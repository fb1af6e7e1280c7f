import AdaptivePlatform.Secoc.Protocol

/-!
# What a verification can do

`Outcome` lists the results of the verification proper, each with the state it leaves.
A verification has a result when the buffer of the authenticator is as long as what is
copied into it and the trailer does not begin before it; `assemble_eq` gives the buffer,
`toNat_trailerPosition` the place of the trailer in it.
-/
namespace AdaptivePlatform.Secoc

open Bytes BitStreams List Option
open BitVec hiding not_not

variable {dataId : uint16} {message : SomeIpMessage} {profile : SecOCProfile} {host : Host}
  {s : SecOC} {buffer : List uint8}

section

variable {fv : ℕ}

theorem length_headerBytes (dataId : uint16) (hdr : SomeIpHeader) :
    (headerBytes dataId hdr).length = 10 := by
  simp [headerBytes]

theorem SomeIpMessage.WellFormed.toNat_len_sub (h : message.WellFormed) :
    (message.hdr.len - 8).toNat = message.payload.length := by
  unfold WellFormed at h
  bv_omega

/-- The bytes the buffer must hold. -/
def needed (message : SomeIpMessage) (fv : ℕ) : ℕ := 10 + message.payload.length + calcByteNum fv

theorem toNat_bufferLength (h : message.WellFormed) :
    (bufferLength message fv).toNat = needed message fv % 2 ^ 32 := by
  have hlen := h.toNat_len_sub
  have hten : ((2 : uint32) + 8).toNat = 10 := rfl
  unfold bufferLength needed
  bv_omega

theorem assemble_eq (dataId : uint16) (h : message.WellFormed)
    (hfit : needed message fv < 2 ^ 32) :
    assemble dataId message fv = some (headerBytes dataId message.hdr ++
      (message.payload ++ List.replicate (calcByteNum fv) 0)) := by
  have hlen := length_headerBytes dataId message.hdr
  have hzeros : List.replicate (needed message fv) (0 : uint8) = List.replicate 10 0 ++
      (List.replicate message.payload.length 0 ++ List.replicate (calcByteNum fv) 0) := by
    rw [replicate_append_replicate, replicate_append_replicate, needed, Nat.add_assoc]
  have hfirst := @writeBytes_over (headerBytes dataId message.hdr) 0 [] (List.replicate 10 0)
    (List.replicate message.payload.length 0 ++ List.replicate (calcByteNum fv) 0) rfl
    (by rw [hlen, length_replicate])
  rw [nil_append, nil_append, ← hzeros] at hfirst
  rw [assemble, toNat_bufferLength h, Nat.mod_eq_of_lt hfit, h.toNat_len_sub, hfirst,
    take_length, bind_eq_bind, bind_some, writeBytes_over hlen.symm length_replicate.symm]

theorem assemble_eq_none (dataId : uint16) (h : message.WellFormed) (hfv : fv ≤ 64)
    (hbig : 2 ^ 32 ≤ needed message fv) : assemble dataId message fv = none := by
  have hbytes := FVM.byteLength_bounds hfv
  have hshort : (bufferLength message fv).toNat < 10 + message.payload.length := by
    rw [toNat_bufferLength h]
    unfold needed at hbig ⊢
    omega
  have hpayload : message.payload.take (message.hdr.len - 8).toNat = message.payload := by
    rw [h.toNat_len_sub, take_length]
  have hne : message.payload ≠ [] := by
    intro hnil
    rw [needed, hnil, length_nil] at hbig
    omega
  rw [assemble, hpayload, bind_eq_bind, bind_eq_none_iff]
  intro buffer hbuffer
  apply writeBytes_eq_none hne
  rw [length_of_writeBytes hbuffer, length_replicate]
  exact hshort

/-- The trailer begins as many bytes before the end of the payload as it is long, in 32 bits. -/
theorem toNat_trailerPosition (h : message.WellFormed) (hvalid : profile.Valid) :
    (trailerPosition message profile).toNat =
      (10 + message.payload.length + 2 ^ 32 - profile.trailer) % 2 ^ 32 := by
  have hle := hvalid.trailer_le
  have hlen := h.toNat_len_sub
  have hten : (10 : uint32).toNat = 10 := rfl
  unfold trailerPosition
  bv_omega

section

variable (h : message.WellFormed) (hvalid : profile.Valid)
  (hfit : needed message profile.bits < 2 ^ 32)
  (htrailer : profile.trailer ≤ 10 + message.payload.length)

include h hvalid hfit htrailer

theorem toNat_trailerPosition_of_le :
    (trailerPosition message profile).toNat = 10 + message.payload.length - profile.trailer := by
  unfold needed at hfit
  rw [toNat_trailerPosition h hvalid]
  omega

omit hvalid in
/-- The bytes authenticated by the receiver: everything but the length of the trailer. -/
theorem toNat_macLength : (bufferLength message profile.bits -
      BitVec.ofNat 32 profile.trailer).toNat = needed message profile.bits - profile.trailer := by
  have hneed : profile.trailer ≤ needed message profile.bits := by
    unfold needed
    omega
  rw [toNat_sub, toNat_bufferLength h, toNat_ofNat]
  omega

theorem trailer_le_length (hlen : buffer.length = needed message profile.bits) :
    profile.trailer ≤ (buffer.drop (trailerPosition message profile).toNat).length := by
  rw [length_drop, hlen, toNat_trailerPosition_of_le h hvalid hfit htrailer, needed]
  omega

theorem write_le (hlen : buffer.length = needed message profile.bits) (value : List uint8) :
    (trailerPosition message profile).toNat + (value.take (calcByteNum profile.bits)).length ≤
      buffer.length := by
  have htake := length_take_le (calcByteNum profile.bits) value
  rw [hlen, toNat_trailerPosition_of_le h hvalid hfit htrailer, needed]
  omega

end

theorem drop_assembled (dataId : uint16) (n : ℕ)
    (htrailer : profile.trailer ≤ message.payload.length) :
    (headerBytes dataId message.hdr ++ (message.payload ++ List.replicate n 0)).drop
        (10 + message.payload.length - profile.trailer) =
      message.payload.drop (message.payload.length - profile.trailer) ++ List.replicate n 0 := by
  have hpos : 10 + message.payload.length - profile.trailer =
      (headerBytes dataId message.hdr).length + (message.payload.length - profile.trailer) := by
    rw [length_headerBytes]
    omega
  rw [hpos, drop_length_add_append, drop_append_of_le_length (Nat.sub_le _ _)]

end

/-- The freshness value a verification uses: the first one the manager returns for the low
bits in the trailer, if it has the length of the profile. -/
def UsesFreshness (host : Host) (dataId : uint16) (message : SomeIpMessage)
    (profile : SecOCProfile) (fvm : FVM) (freshness : FVContainer) : Prop :=
  ∃ buffer k, assemble dataId message profile.freshnessValueLength.toNat = some buffer ∧
    rxFreshness host profile fvm (buffer.drop (trailerPosition message profile).toNat) =
      some (some freshness, k) ∧
    freshness.length = profile.freshnessValueLength.toNat

/-- The results of a verification that no override precedes. -/
inductive Outcome (host : Host) (dataId : uint16) (message : SomeIpMessage)
    (profile : SecOCProfile) (s : SecOC) : Verdict × SecOC → Prop
  | rejected : Outcome host dataId message profile s (⟨false, false, profile.trailer⟩, s)
  | dropped (status : VerificationStatusResultEnum)
      (hstatus : status ≠ .kSecOcVerificationSuccess) :
    Outcome host dataId message profile s (⟨true, true, profile.trailer⟩,
      s.setVerificationEventSnapshot dataId profile.freshnessId status)
  | passed (status : VerificationStatusResultEnum) (profile' : SecOCProfile)
    (hpass : profile.passOverride = some (status, profile')) :
    Outcome host dataId message profile s (⟨true, false, profile.trailer⟩,
      (s.setVerificationEventSnapshot dataId profile.freshnessId status).setProfile dataId profile')
  | verified (freshness : FVContainer) (huses : profile.freshnessValueLength.toNat ≠ 0 →
      UsesFreshness host dataId message profile s.fvm freshness) :
    Outcome host dataId message profile s (⟨true, false, profile.trailer⟩,
      (s.setVerificationEventSnapshot dataId profile.freshnessId
        .kSecOcVerificationSuccess).verified profile freshness)

section

variable {result : Verdict × SecOC}

theorem verifyMac_outcome {buffer authTxValue : List uint8} {freshness : FVContainer} {k : ℕ}
    (h : verifyMac host dataId message profile s buffer authTxValue freshness k = some result)
    (huses : profile.bits ≠ 0 → UsesFreshness host dataId message profile s.fvm freshness) :
    Outcome host dataId message profile s result := by
  unfold verifyMac at h
  split_ifs at h with hjob
  · cases h
    exact .rejected
  obtain ⟨macOutput, -, h⟩ := bind_eq_some_iff.mp h
  cases macOutput with
  | none =>
    cases h
    exact .dropped _ (by decide)
  | some mac =>
    dsimp only at h
    split_ifs at h with hlen
    · cases h
      exact .rejected
    obtain ⟨matched, -, h⟩ := bind_eq_some_iff.mp h
    cases matched with
    | true =>
      cases h
      exact .verified freshness huses
    | false =>
      cases hpass : profile.passOverride with
      | none =>
        rw [hpass] at h
        cases h
        exact .dropped _ (by decide)
      | some pair =>
        rw [hpass] at h
        cases h
        exact .passed pair.1 pair.2 hpass

theorem verifyTrailer_outcome (h : verifyTrailer host dataId message profile s = some result) :
    Outcome host dataId message profile s result := by
  obtain ⟨buffer, hbuffer, h⟩ := bind_eq_some_iff.mp h
  obtain ⟨authTxValue, -, h⟩ := bind_eq_some_iff.mp h
  split_ifs at h with hzero
  · exact verifyMac_outcome h (fun hne => absurd hzero hne)
  obtain ⟨⟨found, k⟩, hfresh, h⟩ := bind_eq_some_iff.mp h
  cases found with
  | none =>
    cases h
    exact .dropped _ (by decide)
  | some freshness =>
    dsimp only at h
    split_ifs at h with hlen
    · cases h
      exact .rejected
    obtain ⟨written, -, h⟩ := bind_eq_some_iff.mp h
    apply verifyMac_outcome h
    intro _
    exact ⟨buffer, k, hbuffer, hfresh, not_not.mp hlen⟩

end

section

variable {written authTxValue mac : List uint8} {freshness : FVContainer} {k : ℕ} {α : Type*}
  {call : ℕ → Option α}

theorem attempt_of_some {a : α} (h : call k = some a) (left : ℕ) :
    attempt call left k = (some a, k) := by
  cases left with
  | zero => rw [attempt, h]
  | succ left => simp [attempt, h]

theorem call_of_attempt {a : α} {left n : ℕ} (h : attempt call left n = (some a, k)) :
    call k = some a := by
  induction left generalizing n with
  | zero =>
    rw [attempt, Prod.mk.injEq] at h
    obtain ⟨hcall, rfl⟩ := h
    exact hcall
  | succ left ih =>
    rw [attempt] at h
    cases hcall : call n with
    | none =>
      rw [hcall] at h
      exact ih h
    | some b =>
      rw [hcall, Prod.mk.injEq] at h
      obtain ⟨hb, rfl⟩ := h
      rw [hcall, hb]

theorem doCryptoAuth_of_computes {f : List uint8 → List uint8}
    (hcrypto : ∀ k bytes, host.crypto dataId k bytes = some (f bytes)) {length : uint32}
    (h : length.toNat ≤ buffer.length) (attempts k : ℕ) :
    doCryptoAuth host dataId attempts buffer length k =
      some (some (f (buffer.take (length.setWidth 16).toNat))) := by
  have hle : (length.setWidth 16).toNat ≤ length.toNat := by exact Nat.mod_le _ _
  rw [doCryptoAuth, segment_eq (by omega), bind_eq_bind, bind_some,
    attempt_of_some (hcrypto k _), drop_zero]

section

variable (hbuffer : assemble dataId message profile.bits = some buffer)
  (hcopy : copyBitStream2ByteBuffer (buffer.drop (trailerPosition message profile).toNat)
    (profile.sent / 8) (profile.sent % 8)
    profile.authInfoTxLength.toNat = some authTxValue)

include hbuffer hcopy

theorem verifyTrailer_of_freshness (hfv : profile.bits ≠ 0) (hfresh : rxFreshness host profile s.fvm
      (buffer.drop (trailerPosition message profile).toNat) = some (some freshness, k))
    (hlen : freshness.length = profile.bits)
    (hwrite : writeBytes buffer (trailerPosition message profile).toNat (freshness.value.take
      (calcByteNum profile.bits)) = some written) :
    verifyTrailer host dataId message profile s =
      verifyMac host dataId message profile s written authTxValue freshness k := by
  simp [verifyTrailer, hbuffer, newStartPosition4Stream_zero, hcopy, hfv, hfresh, hlen, hwrite]

theorem verifyTrailer_of_no_freshness (hfv : profile.bits = 0) :
    verifyTrailer host dataId message profile s =
      verifyMac host dataId message profile s buffer authTxValue ⟨0, List.replicate 8 0⟩ 0 := by
  rw [hfv] at hbuffer
  simp [verifyTrailer, hfv, hbuffer, newStartPosition4Stream_zero, hcopy]

end

theorem verifyMac_of_match (hvalid : profile.Valid)
    (hmac : doCryptoAuth host dataId profile.authenticationBuildAttempts.toNat buffer
      (bufferLength message profile.bits - BitVec.ofNat 32 profile.trailer) k = some (some mac))
    (hlen : mac.length = 16)
    (hmatch : memBlockCompare authTxValue mac profile.authInfoTxLength.toNat = some true) :
    verifyMac host dataId message profile s buffer authTxValue freshness k =
      some (⟨true, false, profile.trailer⟩, (s.setVerificationEventSnapshot dataId
        profile.freshnessId .kSecOcVerificationSuccess).verified profile freshness) := by
  have hbits : mac.length * 8 = profile.expectedAuthValueLength.toNat := by
    rw [hlen, hvalid.expected]
  simp [verifyMac, hvalid.job, hmac, hbits, hmatch]

end

section

variable {authInfo : List uint8}

theorem exists_doCryptoAuth (host : Host) (dataId : uint16) (attempts k : ℕ) {length : uint32}
    (h : length.toNat ≤ buffer.length) :
    ∃ out, doCryptoAuth host dataId attempts buffer length k = some out := by
  have hle : (length.setWidth 16).toNat ≤ length.toNat := by exact Nat.mod_le _ _
  unfold doCryptoAuth
  rw [segment_eq (by omega)]
  exact ⟨_, rfl⟩

theorem exists_verifyMac (hvalid : profile.Valid) {authTxValue : List uint8}
    (hmac : authTxValue.length = bytesFor profile.authInfoTxLength.toNat)
    (hbuffer : (bufferLength message profile.bits -
      BitVec.ofNat 32 profile.trailer).toNat ≤ buffer.length) (freshness : FVContainer) (k : ℕ) :
    ∃ result, verifyMac host dataId message profile s buffer authTxValue freshness k =
      some result := by
  obtain ⟨out, hout⟩ := exists_doCryptoAuth host dataId
    profile.authenticationBuildAttempts.toNat k hbuffer
  have hauth := hvalid.authInfo_le
  unfold verifyMac
  rw [if_neg (not_not.mpr hvalid.job), hout, bind_eq_bind, bind_some]
  cases out with
  | none => exact ⟨_, rfl⟩
  | some mac =>
    dsimp only
    split_ifs with hlen
    · exact ⟨_, rfl⟩
    · have hsixteen : bytesFor profile.authInfoTxLength.toNat ≤ mac.length := by
        rw [hvalid.expected] at hlen
        unfold bytesFor
        omega
      obtain ⟨matched, hmatched⟩ := exists_memBlockCompare (le_of_eq hmac.symm) hsixteen
      rw [hmatched, bind_eq_bind, bind_some]
      cases matched with
      | true => exact ⟨_, rfl⟩
      | false =>
        cases profile.passOverride with
        | none | some pair => exact ⟨_, rfl⟩

/-- The container with the low bits received. -/
structure Received (authInfo : List uint8) (tx : ℕ) (value : List uint8) : Prop where
  length_eq : value.length = 8
  bit_eq : ∀ k, bitAt value k = (decide (k < tx) && bitAt authInfo k)

theorem exists_received {tx : ℕ} (htx : tx ≤ 64) (hpos : 0 < authInfo.length)
    (hlen : tx ≤ 8 * authInfo.length) :
    ∃ bytes value, copyBitStream2BytePtr authInfo 0 0 tx = some bytes ∧
      writeBytes (List.replicate 8 0) 0 bytes = some value ∧ Received authInfo tx value := by
  obtain ⟨bytes, hcopy, hbytes, hcover, hbits⟩ : ∃ bytes, copyBitStream2BytePtr authInfo 0 0 tx =
      some bytes ∧ bytes.length ≤ 8 ∧ tx ≤ 8 * bytes.length ∧
        ∀ k < 8 * bytes.length, bitAt bytes k = (decide (k < tx) && bitAt authInfo k) := by
    rcases Nat.eq_zero_or_pos tx with rfl | hsome
    · refine ⟨[0], copyBitStream2BytePtr_zero hpos, by decide, by decide, ?_⟩
      intro k hk
      rw [bitAt_cons_of_lt 0 hk]
      simp
    · obtain ⟨bytes, hcopy, hwindow⟩ : ∃ bytes, copyBitStream2BytePtr authInfo 0 0 tx =
          some bytes ∧ Window authInfo (8 * 0 + 0) tx bytes :=
        copyBitStream2BytePtr_window (by decide) hsome (by omega)
      refine ⟨bytes, hcopy, ?_, ?_, ?_⟩
      · rw [hwindow.length_eq, bytesFor]
        omega
      · rw [hwindow.length_eq]
        exact le_bytesFor tx
      · intro k hk
        rw [hwindow.bit_eq k hk, Nat.mul_zero, Nat.zero_add]
  have hin : 0 + bytes.length ≤ (List.replicate 8 (0 : uint8)).length := by
    rw [length_replicate, Nat.zero_add]
    exact hbytes
  refine ⟨bytes, _, hcopy, writeBytes_eq hin, length_splice hin, ?_⟩
  intro k
  rw [bitAt_splice hin, Nat.mul_zero, Nat.zero_add, if_neg (Nat.not_lt_zero k), Nat.sub_zero]
  split_ifs with hk
  · exact hbits k hk
  · rw [bitAt_replicate_zero, decide_eq_false (by omega), Bool.false_and]

theorem exists_rxValue (hvalid : profile.Valid) (h : profile.trailer ≤ authInfo.length) :
    ∃ value, Received authInfo profile.sent value ∧
      ∀ host fvm, rxFreshness host profile fvm authInfo =
        some (attempt (fun k => (fvm.implGetRxFreshness host.shifts (host.clock k)
          profile.freshnessId ⟨profile.sent, value⟩).toOption)
            profile.authenticationBuildAttempts.toNat 0) := by
  have hpos := hvalid.trailer_pos
  have htrailer := hvalid.eight_mul_trailer
  obtain ⟨bytes, value, hcopy, hwrite, hreceived⟩ :=
    exists_received hvalid.sent_le (by omega : 0 < authInfo.length) (by omega)
  refine ⟨value, hreceived, fun host fvm => ?_⟩
  simp only [rxFreshness, hcopy, hwrite, bind_eq_bind, bind_some]

theorem exists_assemble {fv : ℕ} (dataId : uint16) (hwf : message.WellFormed)
    (hfit : needed message fv < 2 ^ 32) :
    ∃ buffer, assemble dataId message fv = some buffer ∧ buffer.length = needed message fv := by
  refine ⟨_, assemble_eq dataId hwf hfit, ?_⟩
  rw [length_append, length_append, length_headerBytes, length_replicate, needed]
  omega

theorem exists_authTxValue (hvalid : profile.Valid) (h : profile.trailer ≤ authInfo.length) :
    ∃ authTxValue, copyBitStream2ByteBuffer authInfo (profile.sent / 8) (profile.sent % 8)
        profile.authInfoTxLength.toNat = some authTxValue ∧
      Window authInfo profile.sent profile.authInfoTxLength.toNat authTxValue := by
  have hbits := hvalid.eight_mul_trailer
  obtain ⟨authTxValue, hcopy, hwindow⟩ := copyBitStream2ByteBuffer_window
    (show profile.sent % 8 < 8 by omega) hvalid.authInfo_pos
    (show 8 * (profile.sent / 8) + profile.sent % 8 + profile.authInfoTxLength.toNat ≤
        8 * authInfo.length by omega)
  rw [Nat.div_add_mod] at hwindow
  exact ⟨authTxValue, hcopy, hwindow⟩

/-- A verification has a result if the buffer length fits 32 bits and the trailer does not
begin before the buffer. -/
theorem exists_verifyTrailer (host : Host) (dataId : uint16) (s : SecOC) (hvalid : profile.Valid)
    (hwf : message.WellFormed) (hfit : needed message profile.bits < 2 ^ 32)
    (htrailer : profile.trailer ≤ 10 + message.payload.length) :
    ∃ result, verifyTrailer host dataId message profile s = some result := by
  have hlength := toNat_macLength hwf hfit htrailer
  obtain ⟨buffer, hbuffer, hlen⟩ := exists_assemble dataId hwf hfit
  have hauthInfo := trailer_le_length hwf hvalid hfit htrailer hlen
  obtain ⟨authTxValue, hcopy, hwindow⟩ := exists_authTxValue hvalid hauthInfo
  obtain ⟨value, -, hvalue⟩ := exists_rxValue hvalid hauthInfo
  obtain ⟨⟨found, k⟩, hfresh⟩ : ∃ result, rxFreshness host profile s.fvm
      (buffer.drop (trailerPosition message profile).toNat) = some result :=
    ⟨_, hvalue host s.fvm⟩
  unfold verifyTrailer
  dsimp only
  rw [hbuffer, bind_eq_bind, bind_some, newStartPosition4Stream_zero, hcopy,
    bind_eq_bind, bind_some]
  split_ifs with hzero
  · exact exists_verifyMac hvalid hwindow.length_eq (by rw [hlength, hlen]; omega) _ _
  · rw [hfresh, bind_some]
    cases found with
    | none => exact ⟨_, rfl⟩
    | some freshness =>
      dsimp only
      split_ifs with hmismatch
      · exact ⟨_, rfl⟩
      · have hwrite := write_le hwf hvalid hfit htrailer hlen freshness.value
        rw [writeBytes_eq hwrite, bind_some]
        apply exists_verifyMac hvalid hwindow.length_eq
        rw [length_splice hwrite, hlength, hlen]
        omega

end

end AdaptivePlatform.Secoc
