import AdaptivePlatform.Secoc.Replay

/-!
# From sender to receiver

The sender builds the authenticated bytes from the message and the whole freshness value,
the receiver from the received payload, where the freshness value it assumes overwrites the
trailer. Both are the header bytes, the original payload and the freshness value, so the
authenticators agree and the message comes out as it went in. What the sender's and the
receiver's managers have to agree on is `InStep`.
-/
namespace AdaptivePlatform.Secoc

open Bytes BitStreams List Option BitVec Nat FVM
open FVM (container encodeValue decodeValue wordOf lowBits)

variable {x : uint64} {profile : SecOCProfile}

section

variable {n : ℕ} {y : uint64}

theorem bitAt_encodeValue (hn : n ≤ 64) (x : uint64) (k : ℕ) :
    bitAt (encodeValue n x) k = (decide (k < n) && x.getLsbD (n - 1 - k)) := by
  obtain ⟨hle, hbytes⟩ := byteLength_bounds hn
  unfold encodeValue
  rcases Nat.lt_or_ge k (8 * calcByteNum n) with hk | hk
  · rw [bitAt_append_left (by rw [length_beBytes]; exact hk), bitAt_beBytes _ hk, getLsbD_shiftLeft]
    by_cases hin : k < n
    · have hpos : 8 * calcByteNum n - 1 - k - (calcByteNum n * 8 - n) = n - 1 - k := by omega
      have hlt : 8 * calcByteNum n - 1 - k < 64 := by omega
      have hge : ¬ 8 * calcByteNum n - 1 - k < calcByteNum n * 8 - n := by omega
      simp [hpos, hlt, hge, hin]
    · have hlt : 8 * calcByteNum n - 1 - k < calcByteNum n * 8 - n := by omega
      simp [hlt, hin]
  · obtain ⟨j, rfl⟩ := Nat.exists_eq_add_of_le hk
    have hpast := bitAt_append_right (beBytes (calcByteNum n) (x <<< (calcByteNum n * 8 - n)))
      (List.replicate (8 - calcByteNum n) 0) j
    rw [length_beBytes] at hpast
    rw [hpast, bitAt_replicate_zero, decide_eq_false (by omega), Bool.false_and]

theorem length_encodeValue (hn : n ≤ 64) (x : uint64) : (encodeValue n x).length = 8 := by
  have hbytes := byteLength_bounds hn
  simp only [encodeValue, length_append, length_beBytes, length_replicate]
  omega

theorem getLsbD_of_mod_eq (h : x.toNat % 2 ^ n = y.toNat % 2 ^ n) {j : ℕ} (hj : j < n) :
    x.getLsbD j = y.getLsbD j := by
  have hx := testBit_mod_two_pow x.toNat n j
  have hy := testBit_mod_two_pow y.toNat n j
  rw [h, hy] at hx
  simpa [hj, BitVec.getLsbD] using hx.symm

theorem encodeValue_congr (hn : n ≤ 64) (h : x.toNat % 2 ^ n = y.toNat % 2 ^ n) :
    encodeValue n x = encodeValue n y := by
  apply eq_of_bitAt_eq ((length_encodeValue hn x).trans (length_encodeValue hn y).symm)
  intro k _
  rw [bitAt_encodeValue hn, bitAt_encodeValue hn]
  by_cases hk : k < n
  · rw [getLsbD_of_mod_eq h (by omega : n - 1 - k < n)]
  · simp [hk]

end

/-- The sender's and the receiver's managers agree on a freshness value: the next counter of
the sender is at most `2 ^ tx` above the last one the receiver verified, or the clocks show
the same second. A time that is sent as a whole may be up to two seconds old. -/
def InStep (profile : SecOCProfile) (sender receiver : Host) (s r : FVM) : Prop :=
  profile.freshnessValueLength.toNat = 0 ∨
    s.modeAndLength profile.freshnessId = some (wordOf profile) ∧
    r.modeAndLength profile.freshnessId = some (wordOf profile) ∧
    if profile.useFreshnessTimestamp then
      (receiver.clock 0).toNat % 2 ^ profile.freshnessValueLength.toNat =
          (sender.clock 0).toNat % 2 ^ profile.freshnessValueLength.toNat ∨
        profile.freshnessValueTxLength = profile.freshnessValueLength ∧
          (sender.clock 0).toNat % 2 ^ profile.freshnessValueLength.toNat ≤
            (receiver.clock 0).toNat % 2 ^ profile.freshnessValueLength.toNat ∧
          (receiver.clock 0).toNat % 2 ^ profile.freshnessValueLength.toNat <
            (sender.clock 0).toNat % 2 ^ profile.freshnessValueLength.toNat + 3
    else
      ∃ sent last, s.counter profile.freshnessId = some sent ∧
        r.counterRx profile.freshnessId = some last ∧
        last.toNat < sent.toNat + 1 ∧
        sent.toNat + 1 ≤ last.toNat + 2 ^ profile.freshnessValueTxLength.toNat ∧
        sent.toNat + 1 < 2 ^ profile.freshnessValueLength.toNat

/-- The manager of the receiver finds the value for which the sender's low bits are sent. -/
def FindsValue (profile : SecOCProfile) (m : Shifts) (now : uint64) (r : FVM) (x : uint64) : Prop :=
  r.implGetRxFreshness m now profile.freshnessId ⟨profile.freshnessValueTxLength.toNat,
    encodeValue profile.freshnessValueTxLength.toNat x⟩ =
      .ok (container profile.freshnessValueLength.toNat x)

section

variable {m : Shifts} {now : uint64} {s r : FVM} {sent : uint64}

section

variable (hvalid : profile.Valid) (hmanaged : profile.useAuthDataFreshness = false)
  (hfv : 0 < profile.bits)
  (hword : r.modeAndLength profile.freshnessId = some (wordOf profile))

include hvalid hmanaged hfv hword

theorem findsValue_counter {last : uint64} (htime : profile.useFreshnessTimestamp = false)
    (hlast : r.counterRx profile.freshnessId = some last) (hlt : last.toNat < sent.toNat)
    (hle : sent.toNat ≤ last.toNat + 2 ^ profile.sent)
    (hfit : sent.toNat < 2 ^ profile.bits) :
    FindsValue profile m now r sent := by
  have htx := hvalid.sent_le
  have htxpos := hvalid.sent_pos hmanaged hfv
  have hlow := toNat_decodeValue_encodeValue htx sent
  unfold FindsValue
  simp only [FVM.implGetRxFreshness, Nat.not_lt.mpr htx, hword, modeOf_wordOf hvalid, htime,
    bitLengthOf_wordOf hvalid, hlast, Bool.false_eq_true, if_true, if_false]
  by_cases hsame : profile.bits = profile.sent
  · -- the whole value is sent
    have hnew : ¬ decodeValue profile.sent (encodeValue profile.sent sent) ≤
        lowBits m last profile.sent := by
      rw [le_def, hlow, toNat_lowBits htxpos htx, ← hsame, mod_eq_of_lt hfit,
        mod_eq_of_lt (lt_trans hlt hfit)]
      omega
    rw [if_pos hsame, if_neg hnew]
    simp only [container, hsame]
  · have hless := lt_of_le_of_ne (hvalid.sent_le_bits hmanaged) (Ne.symm hsame)
    have hguess := toNat_guessCounter (m := m) htxpos hless hvalid.bits_le (lt_trans hlt hfit)
      (toNat_decodeValue_lt htx (encodeValue profile.sent sent))
    rw [hlow, nextWith_residue hlt hle (Nat.two_pow_pos _)] at hguess
    rw [if_neg hsame, container, container, encodeValue_congr hvalid.bits_le hguess]

theorem findsValue_timestamp (htime : profile.useFreshnessTimestamp = true)
    (hsent : sent.toNat < 2 ^ profile.bits)
    (hclock : now.toNat % 2 ^ profile.bits = sent.toNat ∨
      profile.freshnessValueTxLength = profile.freshnessValueLength ∧
        sent.toNat ≤ now.toNat % 2 ^ profile.bits ∧
        now.toNat % 2 ^ profile.bits < sent.toNat + 3) :
    FindsValue profile m now r sent := by
  have htx := hvalid.sent_le
  have htxpos := hvalid.sent_pos hmanaged hfv
  have hone : ¬ (1 : uint16) = 0 := by decide
  have hlow := toNat_decodeValue_encodeValue htx sent
  unfold FindsValue
  simp only [FVM.implGetRxFreshness, Nat.not_lt.mpr htx, hword, modeOf_wordOf hvalid, htime,
    bitLengthOf_wordOf hvalid, hone, if_true, if_false]
  by_cases hsame : profile.bits = profile.sent
  · have hrecent : ¬ (3 : uint64) ≤ lowBits m now profile.sent -
        decodeValue profile.sent (encodeValue profile.sent sent) := by
      have hthree : (3 : uint64).toNat = 3 := rfl
      have hnow := toNat_lowBits (m := m) (x := now) htxpos htx
      have hnowlt := (lowBits m now profile.sent).isLt
      rw [← hsame] at hnow hlow hnowlt ⊢
      rw [mod_eq_of_lt hsent] at hlow
      bv_omega
    rw [if_pos hsame, if_neg hrecent]
    simp only [container, hsame]
  · have hless := lt_of_le_of_ne (hvalid.sent_le_bits hmanaged) (Ne.symm hsame)
    have hnow : now.toNat % 2 ^ profile.bits = sent.toNat := by
      rcases hclock with hclock | ⟨heq, -⟩
      · exact hclock
      · exact absurd (congrArg BitVec.toNat heq.symm) hsame
    rw [← hnow, mod_mod_of_dvd _ (Nat.pow_dvd_pow 2 (le_of_lt hless))] at hlow
    have hguess := toNat_guessTimestamp_self (m := m) htxpos hless hvalid.bits_le hlow
    rw [hnow] at hguess
    rw [if_neg hsame, eq_of_toNat_eq hguess]

end

/-- The sender's manager returns a value that the receiver's manager finds. -/
theorem InStep.exists_value {sender receiver : Host} (h : InStep profile sender receiver s r)
    (hvalid : profile.Valid) (hmanaged : profile.useAuthDataFreshness = false)
    (hfv : profile.bits ≠ 0) :
    ∃ x s', s.implGetTxFreshness sender.shifts (sender.clock 0) profile.freshnessId =
        .ok (container profile.bits x, s') ∧
      FindsValue profile receiver.shifts (receiver.clock 0) r x := by
  have hpos := Nat.pos_of_ne_zero hfv
  have hbits := bitLengthOf_wordOf hvalid
  have hmode := modeOf_wordOf hvalid
  have hlong := Nat.not_lt.mpr hvalid.bits_le
  obtain hzero | ⟨hsword, hrword, hvalue⟩ := h
  · exact absurd hzero hfv
  cases htime : profile.useFreshnessTimestamp with
  | true =>
    rw [htime, if_pos rfl] at hvalue hmode
    have hx := toNat_lowBits (m := sender.shifts) (x := sender.clock 0) hpos hvalid.bits_le
    refine ⟨lowBits sender.shifts (sender.clock 0) profile.bits, s, ?_, ?_⟩
    · simp [FVM.implGetTxFreshness, hsword, hmode, hbits, hlong, lowBits]
    · apply findsValue_timestamp hvalid hmanaged hpos hrword htime <;> rw [hx]
      · exact mod_lt _ (Nat.two_pow_pos _)
      · exact hvalue
  | false =>
    rw [htime, if_neg (by decide)] at hvalue hmode
    obtain ⟨sent, last, hsent, hlast, hlt, hle, hfit⟩ := hvalue
    have hnext : (sent + 1).toNat = sent.toNat + 1 := by
      have hpow := Nat.pow_le_pow_right (show 0 < 2 by decide) hvalid.freshness_le
      have hunit : (1 : uint64).toNat = 1 := rfl
      bv_omega
    obtain ⟨s', hget⟩ : ∃ s', s.implGetTxFreshness sender.shifts (sender.clock 0)
        profile.freshnessId = .ok (container profile.bits (sent + 1), s') := by
      simp only [FVM.implGetTxFreshness, hsword, hmode, hbits, hlong, hsent]
      exact ⟨_, rfl⟩
    rw [← hnext] at hlt hle hfit
    exact ⟨sent + 1, s', hget,
      findsValue_counter hvalid hmanaged hpos hrword htime hlast hlt hle hfit⟩

end

section

variable {fvBytes mac : List uint8}

/-- What the receiver needs of the trailer. -/
structure Trailer (profile : SecOCProfile) (fvBytes mac trailer : List uint8) : Prop where
  length_eq : trailer.length = profile.trailer
  freshness : ∀ k < profile.freshnessValueTxLength.toNat, bitAt trailer k =
    bitAt fvBytes (profile.freshnessValueLength.toNat - profile.freshnessValueTxLength.toNat + k)
  authenticator : ∀ k < profile.authInfoTxLength.toNat,
    bitAt trailer (profile.freshnessValueTxLength.toNat + k) = bitAt mac k

theorem exists_buildTrailer (hvalid : profile.Valid)
    (hmanaged : profile.useAuthDataFreshness = false) (hmac : mac.length = 16)
    (hfresh : profile.bits ≤ 8 * fvBytes.length) :
    ∃ trailer, buildTrailer profile fvBytes mac = some trailer ∧
      Trailer profile fvBytes mac trailer := by
  have hbits := hvalid.eight_mul_trailer
  have hauth := hvalid.authInfo_le
  have htxle := hvalid.sent_le_bits hmanaged
  by_cases hzero : profile.sent = 0
  · -- the trailer is the front of the authenticator
    have hlen : (mac.take profile.trailer).length = profile.trailer := by
      rw [length_take]
      omega
    have hwrite : writeBytes (List.replicate profile.trailer 0) 0 (mac.take profile.trailer) =
        some (mac.take profile.trailer) := writeBytes_whole (by rw [hlen, length_replicate])
    refine ⟨mac.take profile.trailer, ?_, hlen, ?_, ?_⟩
    · simp only [buildTrailer, hzero, if_true, bind_eq_bind,
        segment_eq (show 0 + profile.trailer ≤ mac.length by omega), bind_some,
        drop_zero, hwrite]
    · intro k hk
      exact absurd (hk.trans_eq hzero) k.not_lt_zero
    · intro k hk
      simp only [hzero, Nat.zero_add, bitAt_take (by omega : k < 8 * profile.trailer)]
  · obtain ⟨first, hfirst, hplaced⟩ := copyBitStream2BitStream_placed
      (show (profile.bits - profile.sent) % 8 < 8 by
        omega) (show 0 < 8 by decide) (Nat.pos_of_ne_zero hzero)
      (show 8 * ((profile.bits - profile.sent) / 8) + (profile.bits - profile.sent) % 8 +
          profile.sent ≤ 8 * fvBytes.length by omega)
      (show 8 * 0 + 0 + profile.sent ≤ 8 * (List.replicate profile.trailer (0 : uint8)).length by
          rw [length_replicate]
          omega)
    rw [div_add_mod] at hplaced
    have hlen : first.length = profile.trailer := by rw [hplaced.length_eq, length_replicate]
    obtain ⟨trailer, htrailer, hplaced'⟩ := copyBitStream2BitStream_placed (show 0 < 8 by decide)
      (show profile.sent % 8 < 8 by omega) hvalid.authInfo_pos
      (show 8 * 0 + 0 + profile.authInfoTxLength.toNat ≤ 8 * mac.length by omega)
      (show 8 * (profile.sent / 8) + profile.sent % 8 + profile.authInfoTxLength.toNat ≤
          8 * first.length by omega)
    rw [div_add_mod] at hplaced'
    refine ⟨trailer, ?_, hplaced'.length_eq.trans hlen, ?_, ?_⟩
    · simp only [buildTrailer, hzero, hmanaged, newStartPosition4Stream_zero, hfirst, htrailer,
        if_false, Bool.false_eq_true, bind_eq_bind, bind_some]
    · intro k hk
      have hcopied := hplaced.copied k hk
      rw [Nat.mul_zero, Nat.zero_add] at hcopied
      rw [hplaced'.before k hk, hcopied]
    · intro k hk
      rw [hplaced'.copied k hk, Nat.mul_zero, Nat.zero_add]

end

section

variable (f : List uint8 → List uint8) (dataId : uint16) (message : SomeIpMessage)
  (profile : SecOCProfile) (x : uint64) (trailer : List uint8)

def secure : SomeIpMessage :=
  ⟨{ message.hdr with len := message.hdr.len + BitVec.ofNat 32 trailer.length },
    message.payload ++ trailer⟩

def freshnessBytes : List uint8 :=
  (encodeValue profile.freshnessValueLength.toNat x).take
    (calcByteNum profile.freshnessValueLength.toNat)

def authenticated : List uint8 :=
  headerBytes dataId message.hdr ++ (message.payload ++ freshnessBytes profile x)

/-- The authenticator of a message, for a provider that computes `f` of at most 65535 bytes. -/
def authenticator : List uint8 :=
  f ((authenticated dataId message profile x).take
    (needed message profile.freshnessValueLength.toNat % 2 ^ 16))

/-- The trailer that secures a message. -/
abbrev Secures : Prop :=
  Trailer profile (freshnessBytes profile x) (authenticator f dataId message profile x) trailer

end

section

variable {host : Host} {dataId : uint16} {message : SomeIpMessage} {s : SecOC}
  {f : List uint8 → List uint8} {trailer : List uint8}

theorem length_freshnessBytes (hvalid : profile.Valid) (x : uint64) :
    (freshnessBytes profile x).length = calcByteNum profile.bits := by
  rw [freshnessBytes, length_take, length_encodeValue hvalid.bits_le]
  exact min_eq_left (byteLength_bounds hvalid.bits_le).2

theorem length_authenticated (dataId : uint16) (message : SomeIpMessage) (hvalid : profile.Valid)
    (x : uint64) :
    (authenticated dataId message profile x).length =
      needed message profile.bits := by
  rw [authenticated, length_append, length_append, length_headerBytes,
    length_freshnessBytes hvalid, needed]
  omega

theorem toNat_macWidth {length : uint32} {n : ℕ} (h : length.toNat = n) :
    (length.setWidth 16).toNat = n % 2 ^ 16 := by
  rw [toNat_setWidth, h]

theorem freshnessBytes_eq_nil (hfv : profile.bits = 0) (x : uint64) :
    freshnessBytes profile x = [] := by
  simp only [freshnessBytes, hfv]
  rfl

theorem secure_wellFormed (hwf : message.WellFormed)
    (hfit : needed message profile.bits + profile.trailer < 2 ^ 32)
    (hlen : trailer.length = profile.trailer) :
    (secure message trailer).WellFormed ∧ needed (secure message trailer) profile.bits =
        needed message profile.bits + profile.trailer := by
  unfold SomeIpMessage.WellFormed at hwf ⊢
  unfold needed at hfit ⊢
  simp only [secure, toNat_add, toNat_ofNat, length_append]
  omega

variable (hvalid : profile.Valid) (hmanaged : profile.useAuthDataFreshness = false)

include hvalid hmanaged

theorem received_eq_encodeValue {mac rest value : List uint8}
    (hspec : Trailer profile (freshnessBytes profile x) mac trailer)
    (hreceived : Received (trailer ++ rest) profile.sent value) :
    value = encodeValue profile.sent x := by
  have hbits := hvalid.eight_mul_trailer
  have htxle := hvalid.sent_le_bits hmanaged
  have hbytes := le_bytesFor profile.bits
  rw [← calcByteNum_eq] at hbytes
  apply eq_of_bitAt_eq (hreceived.length_eq.trans (length_encodeValue hvalid.sent_le x).symm)
  intro k _
  rw [hreceived.bit_eq, bitAt_encodeValue hvalid.sent_le]
  by_cases hk : k < profile.sent
  · have hpos : profile.bits - 1 - (profile.bits - profile.sent + k) = profile.sent - 1 - k := by
      omega
    have hlow : profile.bits - profile.sent + k < profile.bits := by omega
    rw [bitAt_append_left (by rw [hspec.length_eq]; omega), hspec.freshness k hk, freshnessBytes,
      bitAt_take (hlow.trans_le hbytes), bitAt_encodeValue hvalid.bits_le, hpos,
      decide_eq_true hlow, Bool.true_and]
  · simp [hk]

variable (hwf : message.WellFormed)
  (hfit : needed message profile.bits + profile.trailer < 2 ^ 32)
  (hcrypto : ∀ k bytes, host.crypto dataId k bytes = some (f bytes))
  (hf : ∀ bytes, (f bytes).length = 16)

include hwf hfit hcrypto hf

theorem generateMac_eq :
    ∃ trailer, generateMac host dataId message profile
        (authenticated dataId message profile x) (freshnessBytes profile x) 0 =
          some (some trailer) ∧
      Secures f dataId message profile x trailer := by
  have hlen := length_freshnessBytes hvalid x
  have hneed : (bufferLength message profile.bits).toNat = needed message profile.bits := by
    rw [toNat_bufferLength hwf, mod_eq_of_lt (by omega)]
  have hbuffer := length_authenticated dataId message hvalid x
  have hmac := doCryptoAuth_of_computes hcrypto (hneed.trans hbuffer.symm).le
    profile.authenticationBuildAttempts.toNat 0
  rw [toNat_macWidth hneed] at hmac
  have hcover : profile.bits ≤ 8 * (freshnessBytes profile x).length := by
    rw [hlen, calcByteNum_eq]
    exact le_bytesFor _
  obtain ⟨trailer, htrailer, hspec⟩ := exists_buildTrailer hvalid hmanaged
    (show (authenticator f dataId message profile x).length = 16 from hf _) hcover
  refine ⟨trailer, ?_, hspec⟩
  have hexpected : (f ((authenticated dataId message profile x).take
      (needed message profile.bits % 2 ^ 16))).length * 8 =
        profile.expectedAuthValueLength.toNat := by
    rw [hf, hvalid.expected]
  rw [authenticator] at htrailer
  simp only [generateMac, hvalid.job, hmac, hexpected, htrailer, ne_eq, not_true_eq_false,
    if_false, bind_eq_bind, bind_some, map_some]

theorem txHandle_eq (hs : s.profiles dataId = some profile)
    (hvalue : profile.bits ≠ 0 → ∃ fvm',
      s.fvm.implGetTxFreshness host.shifts (host.clock 0) profile.freshnessId =
        .ok (container profile.bits x, fvm')) :
    ∃ trailer s', implSecOCTxHandle host dataId message s = some ⟨0, secure message trailer, s'⟩ ∧
      Secures f dataId message profile x trailer := by
  have hfit' : needed message profile.bits < 2 ^ 32 := by omega
  have hassemble := assemble_eq dataId hwf hfit'
  obtain ⟨trailer, hgenerate, hspec⟩ := generateMac_eq hvalid hmanaged hwf hfit hcrypto hf (x := x)
  by_cases hfv : profile.bits = 0
  · have hempty := freshnessBytes_eq_nil hfv x
    have hbuffer : headerBytes dataId message.hdr ++
        (message.payload ++ List.replicate (calcByteNum 0) 0) =
          authenticated dataId message profile x := by
      rw [authenticated, hempty]
      rfl
    rw [hfv, hbuffer] at hassemble
    rw [hempty] at hgenerate
    refine ⟨trailer, s, ?_, hspec⟩
    simp only [implSecOCTxHandle, generateAuthInfo4SomeIpMsg, hs, hfv, hassemble, hgenerate,
      if_true, bind_eq_bind, bind_some]
    rfl
  · obtain ⟨fvm', hget⟩ := hvalue hfv
    have hlen := length_freshnessBytes hvalid x
    have hposition : (10 + (message.hdr.len - 8)).toNat =
        (headerBytes dataId message.hdr ++ message.payload).length := by
      have hten : (10 : uint32).toNat = 10 := rfl
      have hpayload := hwf.toNat_len_sub
      unfold needed at hfit'
      rw [toNat_add, hpayload, hten, length_append, length_headerBytes]
      omega
    have hwrite := @writeBytes_over (freshnessBytes profile x) _ _
      (List.replicate (calcByteNum profile.bits) 0) [] hposition (by rw [hlen, length_replicate])
    rw [append_nil, append_nil, List.append_assoc, List.append_assoc] at hwrite
    have hattempt : attempt (fun k => (s.fvm.implGetTxFreshness host.shifts (host.clock k)
        profile.freshnessId).toOption) profile.authenticationBuildAttempts.toNat 0 =
          (some (container profile.bits x, fvm'), 0) :=
      attempt_of_some (congrArg Except.toOption hget) _
    refine ⟨trailer, { s with fvm := fvm' }, ?_, hspec⟩
    simp only [implSecOCTxHandle, generateAuthInfo4SomeIpMsg, hs, hassemble, hfv, hattempt,
      container, ne_eq, bind_eq_bind, bind_some]
    simp only [freshnessBytes, authenticated] at hwrite hgenerate
    rw [hwrite, bind_some, hgenerate, bind_some]
    rfl

/-- The receiver finds the sender's authenticator for the secured message. -/
theorem verifyTrailer_secure
    (hvalue : profile.bits ≠ 0 → FindsValue profile host.shifts (host.clock 0) s.fvm x)
    (hspec : Secures f dataId message profile x trailer) :
    ∃ freshness, verifyTrailer host dataId (secure message trailer) profile s =
      some (⟨true, false, profile.trailer⟩, (s.setVerificationEventSnapshot dataId
        profile.freshnessId .kSecOcVerificationSuccess).verified profile freshness) := by
  have hbits := hvalid.eight_mul_trailer
  have hlen := hspec.length_eq
  obtain ⟨hwf', hneed⟩ := secure_wellFormed hwf hfit hlen
  have hlong : profile.trailer ≤ (secure message trailer).payload.length := by
    simp only [secure, length_append]
    omega
  have hfit' : needed (secure message trailer) profile.bits < 2 ^ 32 := by omega
  have hin := le_add_left_of_le (k := 10) hlong
  have hassemble := assemble_eq dataId hwf' hfit'
  have hposition := toNat_trailerPosition_of_le hwf' hvalid hfit' hin
  have hmacLength := toNat_macLength hwf' hfit' hin
  rw [hneed, Nat.add_sub_cancel] at hmacLength
  let zeros : List uint8 := List.replicate (calcByteNum profile.bits) 0
  let front : List uint8 := headerBytes dataId message.hdr ++ message.payload
  have hfront : 10 + (secure message trailer).payload.length - profile.trailer = front.length := by
    simp only [front, secure, length_append, length_headerBytes, hlen]
    omega
  have hbuffer : assemble dataId (secure message trailer) profile.bits =
      some (front ++ (trailer ++ zeros)) := by
    rw [hassemble]
    simp only [secure, List.append_assoc]
    rfl
  have hauthInfo : (front ++ (trailer ++ zeros)).drop
      (trailerPosition (secure message trailer) profile).toNat = trailer ++ zeros := by
    rw [hposition, hfront, drop_left]
  have hroom : profile.trailer ≤ (trailer ++ zeros).length := by
    rw [length_append, hlen]
    omega
  obtain ⟨authTxValue, hcopy, hwindow⟩ := exists_authTxValue hvalid hroom
  rw [← hauthInfo] at hcopy
  have hmatch : memBlockCompare authTxValue (authenticator f dataId message profile x)
      profile.authInfoTxLength.toNat = some true := by
    have hauth := hvalid.authInfo_le
    apply memBlockCompare_of_bits hvalid.authInfo_pos (le_of_eq hwindow.length_eq.symm)
    · rw [authenticator, hf, bytesFor]
      omega
    · intro k hk
      rw [hwindow.bit_of_lt hk, bitAt_append_left (by rw [hlen]; omega), hspec.authenticator k hk]
  -- the bytes authenticated stand at the front of the receiver's buffer
  have hmac : ∀ rest k, doCryptoAuth host dataId profile.authenticationBuildAttempts.toNat
      (authenticated dataId message profile x ++ rest)
      (bufferLength (secure message trailer) profile.bits - BitVec.ofNat 32 profile.trailer) k =
          some (some (authenticator f dataId message profile x)) := by
    intro rest k
    have hall := length_authenticated dataId message hvalid x
    rw [doCryptoAuth_of_computes hcrypto (by rw [hmacLength, length_append]; omega),
      toNat_macWidth hmacLength, take_append_of_le_length (by omega), authenticator]
  by_cases hfv : profile.bits = 0
  · have hsame : front ++ (trailer ++ zeros) =
        authenticated dataId message profile x ++ trailer := by
      have hnone : zeros = [] := by
        simp only [zeros, hfv]
        rfl
      simp [front, hnone, authenticated, freshnessBytes_eq_nil hfv]
    refine ⟨⟨0, List.replicate 8 0⟩, ?_⟩
    rw [verifyTrailer_of_no_freshness hbuffer hcopy hfv]
    exact verifyMac_of_match hvalid (hsame ▸ hmac trailer 0) (hf _) hmatch
  · obtain ⟨value, hreceived, hrx⟩ := exists_rxValue hvalid hroom
    obtain rfl := received_eq_encodeValue hvalid hmanaged hspec hreceived
    have hfresh : rxFreshness host profile s.fvm ((front ++ (trailer ++ zeros)).drop
        (trailerPosition (secure message trailer) profile).toNat) =
          some (some (container profile.bits x), 0) := by
      rw [hauthInfo, hrx]
      congr 1
      exact attempt_of_some (congrArg Except.toOption (hvalue hfv)) _
    have hwrite := writeBytes_behind (hposition.trans hfront)
      (show (freshnessBytes profile x).length ≤ (trailer ++ zeros).length by
        simp only [zeros, length_freshnessBytes hvalid, length_append, length_replicate]
        omega)
    refine ⟨container profile.bits x, ?_⟩
    rw [verifyTrailer_of_freshness hbuffer hcopy hfv hfresh rfl hwrite]
    apply verifyMac_of_match hvalid _ (hf _) hmatch
    have hsplit := hmac ((trailer ++ zeros).drop (freshnessBytes profile x).length) 0
    simp only [authenticated, List.append_assoc] at hsplit
    exact hsplit

theorem rxHandle_secure (hcancel : profile.overrideStatus = .kSecOcOverrideCancel)
    (hs : s.profiles dataId = some profile)
    (hvalue : profile.bits ≠ 0 → FindsValue profile host.shifts (host.clock 0) s.fvm x)
    (hspec : Secures f dataId message profile x trailer) :
    ∃ s', implSecOCRxHandle host dataId (secure message trailer) s = some ⟨0, message, s'⟩ ∧
      s'.snapshot = some ⟨dataId, profile.freshnessId, .kSecOcVerificationSuccess⟩ := by
  have hlen := hspec.length_eq
  have hfirst : profile.firstOverride = none := by simp [SecOCProfile.firstOverride, hcancel]
  obtain ⟨freshness, hverify⟩ :=
    verifyTrailer_secure (s := s) hvalid hmanaged hwf hfit hcrypto hf hvalue hspec
  have hcommit : rcommitLast (secure message trailer).payload profile.trailer =
      some message.payload := by
    simp only [rcommitLast, secure, length_append, hlen]
    rw [if_pos (by omega), Nat.add_sub_cancel, take_left]
  have hshort : (secure message trailer).hdr.len - BitVec.ofNat 32 profile.trailer =
      message.hdr.len := by
    simp only [secure, hlen, BitVec.add_sub_cancel]
  refine ⟨(s.setVerificationEventSnapshot dataId profile.freshnessId
    .kSecOcVerificationSuccess).verified profile freshness, ?_, ?_⟩
  · rw [rxHandle_of_verify _ _ hs hfirst, hverify, bind_some]
    simp only [hcommit, hshort]
    rfl
  · unfold SecOC.verified
    split_ifs <;> rfl

end

/-- What the sender secures the receiver verifies and hands up as it was, for every accepted
profile that authenticates without data freshness, as long as the managers are in step. -/
theorem round_trip (sender receiver : Host) (dataId : uint16) (profile : SecOCProfile)
    (message : SomeIpMessage) (s r : SecOC) (f : List uint8 → List uint8)
    (haccepted : profile.Accepted) (hmanaged : profile.useAuthDataFreshness = false)
    (hcancel : profile.overrideStatus = .kSecOcOverrideCancel) (hwf : message.WellFormed)
    (hfit : needed message profile.freshnessValueLength.toNat + profile.trailer < 2 ^ 32)
    (hf : ∀ bytes, 8 * (f bytes).length = profile.expectedAuthValueLength.toNat)
    (hsender : ∀ k bytes, sender.crypto dataId k bytes = some (f bytes))
    (hreceiver : ∀ k bytes, receiver.crypto dataId k bytes = some (f bytes))
    (hs : s.profiles dataId = some profile) (hr : r.profiles dataId = some profile)
    (hstep : InStep profile sender receiver s.fvm r.fvm) :
    ∃ secured s', implSecOCTxHandle sender dataId message s = some ⟨0, secured, s'⟩ ∧
      ∃ r', implSecOCRxHandle receiver dataId secured r = some ⟨0, message, r'⟩ ∧
        r'.snapshot = some ⟨dataId, profile.freshnessId, .kSecOcVerificationSuccess⟩ := by
  have hvalid := haccepted.valid
  have hmac : ∀ bytes, (f bytes).length = 16 := by
    intro bytes
    have hbits := hf bytes
    rw [hvalid.expected] at hbits
    omega
  obtain ⟨x, htx, hrx⟩ : ∃ x, (profile.bits ≠ 0 → ∃ fvm',
      s.fvm.implGetTxFreshness sender.shifts (sender.clock 0) profile.freshnessId =
        .ok (container profile.bits x, fvm')) ∧
      (profile.bits ≠ 0 → FindsValue profile receiver.shifts (receiver.clock 0) r.fvm x) := by
    by_cases hfv : profile.bits = 0
    · exact ⟨0, fun h => absurd hfv h, fun h => absurd hfv h⟩
    · obtain ⟨x, fvm', hget, hfinds⟩ := hstep.exists_value hvalid hmanaged hfv
      exact ⟨x, fun _ => ⟨fvm', hget⟩, fun _ => hfinds⟩
  obtain ⟨trailer, s', hsent, hspec⟩ := txHandle_eq hvalid hmanaged hwf hfit hsender hmac hs htx
  obtain ⟨r', hreceived, hsnapshot⟩ :=
    rxHandle_secure hvalid hmanaged hwf hfit hreceiver hmac hcancel hr hrx hspec
  exact ⟨secure message trailer, s', hsent, r', hreceived, hsnapshot⟩

/-- The first message under a counter of two bits. -/
theorem round_trip_firstCounter : ∃ secured s',
    implSecOCTxHandle (agreeingHost 0 (List.replicate 16 0)) 1 fourBytes tinyState =
      some ⟨0, secured, s'⟩ ∧
    ∃ r', implSecOCRxHandle (agreeingHost 0 (List.replicate 16 0)) 1 secured tinyState =
        some ⟨0, fourBytes, r'⟩ ∧
      r'.snapshot = some ⟨1, 1, .kSecOcVerificationSuccess⟩ :=
  round_trip _ _ 1 tinyProfile fourBytes tinyState tinyState (fun _ => List.replicate 16 0)
    tinyProfile_accepted rfl rfl (by decide) (by decide) (fun _ => rfl) (fun _ _ => rfl)
    (fun _ _ => rfl) rfl rfl
    (.inr ⟨rfl, rfl, 0, 0, rfl, rfl, by decide, by decide, by decide⟩)

/-- Times of 64 bits, of which four are sent. -/
def timedSettings : SecOCProfile :=
  { dataId := 1, freshnessId := 1, profileCategory := "PROFILE_03", cryptoKeySlot := "slot" }

def timedProfile : SecOCProfile := timedSettings.transform.withAlgorithm

theorem timedProfile_accepted : timedProfile.Accepted := ⟨timedSettings, ⟨rfl, rfl, rfl⟩, rfl⟩

def timedState : SecOC := ⟨fun _ => some timedProfile, FVM.implInitialize [timedProfile], none⟩

/-- An authenticator that shows the last byte authenticated. -/
def lastByteMac (bytes : List uint8) : List uint8 := bytes.getLastD 0 :: List.replicate 15 0

def hostAt (now : uint64) : Host :=
  ⟨⟨fun x _ => x, fun x _ => x⟩, fun _ => now, fun _ _ bytes => some (lastByteMac bytes)⟩

/-- What the receiver returns for a message of one second received at another. -/
def received (sentAt receivedAt : uint64) : Option ℤ := do
  let sent ← implSecOCTxHandle (hostAt sentAt) 1 fourBytes timedState
  let handled ← implSecOCRxHandle (hostAt receivedAt) 1 sent.message timedState
  some handled.result

/-- After a message of second 99, the message of second 100 is dropped at second 104. -/
theorem late_message_dropped :
    timedProfile.Accepted ∧ timedProfile.jobSemantic = .kAuthenticate ∧
      timedProfile.useAuthDataFreshness = false ∧
      timedProfile.overrideStatus = .kSecOcOverrideCancel ∧ fourBytes.WellFormed ∧
      received 99 99 = some 0 ∧
      99 < 100 ∧ 100 ≤ 99 + 2 ^ timedProfile.freshnessValueTxLength.toNat ∧
      100 < 2 ^ timedProfile.freshnessValueLength.toNat ∧
      received 100 104 = some (-2) :=
  ⟨timedProfile_accepted, rfl, rfl, rfl, by decide, by decide +kernel, by decide, by decide,
    by decide, by decide +kernel⟩

end AdaptivePlatform.Secoc
