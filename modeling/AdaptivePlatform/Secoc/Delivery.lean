import AdaptivePlatform.Secoc.Outcomes

/-!
# What is handed up

A received message is handed up without its trailer, or not at all. The verification
returns the length of the trailer, but an override that skips verification returns before
it is set: the message is handed up with its trailer. The length of the payload is never
compared with the length of the trailer, so with a short payload the trailer is looked for
in the header bytes or outside the buffer.
-/
namespace AdaptivePlatform.Secoc

open Bytes BitStreams List Option Bool SecOCProfile

variable {profile : SecOCProfile} {message : SomeIpMessage}

/-- An override drops the next message. -/
def SecOCProfile.DropsNext (p : SecOCProfile) : Prop :=
  p.overrideStatus = .kSecOcOverrideDropUntilNotice ∨
    p.overrideStatus = .kSecOcOverrideDropUntilLimit ∧
      p.currentNumberOfMessagesToOverride < p.numberOfMessagesToOverride

/-- An override hands up the next message without verification. -/
def SecOCProfile.SkipsNext (p : SecOCProfile) : Prop :=
  p.overrideStatus = .kSecOcOverrideSkipUntilNotice ∨
    p.overrideStatus = .kSecOcOverrideSkipUntilLimit ∧
      p.currentNumberOfMessagesToOverride < p.numberOfMessagesToOverride

/-- A message that is handed up had a trailer and has lost exactly the trailer. -/
def HandsUp (profile : SecOCProfile) (message : SomeIpMessage) (handled : Handled) : Prop :=
  (handled.result = 0 →
    profile.trailer ≤ message.payload.length ∧
    handled.message.payload = message.payload.take (message.payload.length - profile.trailer) ∧
    handled.message.hdr =
      { message.hdr with len := message.hdr.len - BitVec.ofNat 32 profile.trailer }) ∧
  (message.payload.length < profile.trailer → handled.result ≠ 0)

/-- Whatever the clocks, the crypto provider and the freshness values are, the handle returns
and hands up what it should. -/
def AlwaysHandsUp (profile : SecOCProfile) (message : SomeIpMessage) : Prop :=
  ∀ host dataId s, s.profiles dataId = some profile →
    ∃ handled, implSecOCRxHandle host dataId message s = some handled ∧
      HandsUp profile message handled

section

variable {p : SecOCProfile} {host : Host} {dataId : uint16} {s : SecOC}

theorem SecOCProfile.DropsNext.firstOverride (h : p.DropsNext) :
    ∃ p', p.firstOverride = some (true, p') := by
  rcases h with h | ⟨h, hlt⟩
  · simp only [SecOCProfile.firstOverride, h]
    exact ⟨_, rfl⟩
  · simp only [SecOCProfile.firstOverride, h, hlt]
    exact ⟨_, rfl⟩

theorem SecOCProfile.SkipsNext.firstOverride (h : p.SkipsNext) :
    ∃ p', p.firstOverride = some (false, p') := by
  rcases h with h | ⟨h, hlt⟩
  · simp only [SecOCProfile.firstOverride, h]
    exact ⟨_, rfl⟩
  · simp only [SecOCProfile.firstOverride, h, hlt]
    exact ⟨_, rfl⟩

theorem SecOCProfile.firstOverride_eq_none (hdrop : ¬ p.DropsNext) (hskip : ¬ p.SkipsNext) :
    p.firstOverride = none := by
  unfold SecOCProfile.DropsNext at hdrop
  unfold SecOCProfile.SkipsNext at hskip
  unfold SecOCProfile.firstOverride
  cases hstatus : p.overrideStatus <;> simp_all

variable (host : Host) (message : SomeIpMessage)

theorem rxHandle_of_override {drop : Bool}
    {p' : SecOCProfile} (hs : s.profiles dataId = some profile)
    (hfirst : profile.firstOverride = some (drop, p')) :
    ∃ s', implSecOCRxHandle host dataId message s = some ⟨if drop then -2 else 0, message, s'⟩ := by
  have hpayload : rcommitLast message.payload 0 = some message.payload := by simp [rcommitLast]
  have hlen : message.hdr.len - BitVec.ofNat 32 0 = message.hdr.len := by simp
  cases drop with
  | true =>
    simp only [implSecOCRxHandle, verifyAuthInfo4SomeIpMsg, hs, hfirst]
    exact ⟨_, rfl⟩
  | false =>
    simp only [implSecOCRxHandle, verifyAuthInfo4SomeIpMsg, hs, hfirst, bind_eq_bind,
      bind_some, hpayload, hlen]
    exact ⟨_, rfl⟩

theorem rxHandle_of_verify (hs : s.profiles dataId = some profile)
    (hfirst : profile.firstOverride = none) :
    implSecOCRxHandle host dataId message s =
      (verifyTrailer host dataId message profile s).bind fun result =>
        if result.1.returned = false then some ⟨-1, message, result.2⟩
        else if result.1.shouldDrop then some ⟨-2, message, result.2⟩
        else (rcommitLast message.payload result.1.authLength).bind fun payload =>
          some ⟨0, ⟨{ message.hdr with
            len := message.hdr.len - BitVec.ofNat 32 result.1.authLength }, payload⟩,
            result.2⟩ := by
  simp [implSecOCRxHandle, verifyAuthInfo4SomeIpMsg, hs, hfirst]

end

def quietHost : Host := ⟨⟨fun x _ => x, fun x _ => x⟩, fun _ => 0, fun _ _ _ => none⟩

def quietState (profile : SecOCProfile) : SecOC :=
  ⟨fun _ => some profile, ⟨fun _ => none, fun _ => none, fun _ => none⟩, none⟩

section

variable (host : Host) (dataId : uint16) (s : SecOC)

theorem alwaysHandsUp_of_dropsNext (h : profile.DropsNext) : AlwaysHandsUp profile message := by
  intro host dataId s hs
  obtain ⟨p', hfirst⟩ := h.firstOverride
  obtain ⟨s', hhandle⟩ := rxHandle_of_override host message hs hfirst
  refine ⟨_, hhandle, ?_, ?_⟩
  · intro hzero
    cases hzero
  · intro _ hzero
    cases hzero

/-- A skipped message keeps its trailer. -/
theorem not_alwaysHandsUp_of_skipsNext (hvalid : profile.Valid) (h : profile.SkipsNext) :
    ¬ AlwaysHandsUp profile message := by
  intro hall
  have hpos := hvalid.trailer_pos
  obtain ⟨p', hfirst⟩ := h.firstOverride
  obtain ⟨s', hhandle⟩ := rxHandle_of_override quietHost message
    (show (quietState profile).profiles 0 = some profile from rfl) hfirst
  obtain ⟨handled, hhandled, hup, -⟩ := hall quietHost 0 (quietState profile) rfl
  cases hhandle.symm.trans hhandled
  obtain ⟨hle, hpayload, -⟩ := hup rfl
  have hlen : message.payload.length =
      (message.payload.take (message.payload.length - profile.trailer)).length :=
    congrArg List.length hpayload
  rw [length_take] at hlen
  omega

theorem alwaysHandsUp_of_long (hvalid : profile.Valid) (hwf : message.WellFormed)
    (hfirst : profile.firstOverride = none)
    (hfit : needed message profile.bits < 2 ^ 32)
    (hlong : profile.trailer ≤ message.payload.length) : AlwaysHandsUp profile message := by
  intro host dataId s hs
  obtain ⟨result, hresult⟩ := exists_verifyTrailer host dataId s hvalid hwf hfit
    (Nat.le_add_left_of_le hlong)
  have hcommit : rcommitLast message.payload profile.trailer =
      some (message.payload.take (message.payload.length - profile.trailer)) := if_pos hlong
  rw [rxHandle_of_verify host message hs hfirst, hresult, bind_some]
  have houtcome := verifyTrailer_outcome hresult
  cases houtcome with
  | rejected | dropped status hstatus =>
    refine ⟨_, rfl, ?_, ?_⟩
    · intro hzero
      cases hzero
    · intro hshort
      omega
  | passed status profile' hpass | verified freshness huses =>
    simp only [hcommit]
    refine ⟨_, rfl, fun _ => ⟨hlong, rfl, rfl⟩, ?_⟩
    intro hshort
    omega

/-- A verification without a result hands up nothing in an orderly way. -/
theorem not_alwaysHandsUp_of_undefined
    (h : ∃ host dataId s, s.profiles dataId = some profile ∧
      implSecOCRxHandle host dataId message s = none) : ¬ AlwaysHandsUp profile message := by
  intro hall
  obtain ⟨host, dataId, s, hs, hnone⟩ := h
  obtain ⟨handled, hhandled, -⟩ := hall host dataId s hs
  rw [hnone] at hhandled
  cases hhandled

/-- A trailer that begins before the buffer is read outside it. -/
theorem verifyTrailer_eq_none_of_before (hvalid : profile.Valid) (hwf : message.WellFormed)
    (hfit : needed message profile.bits < 2 ^ 32)
    (hbefore : 10 + message.payload.length < profile.trailer) :
    verifyTrailer host dataId message profile s = none := by
  have hbytes := FVM.byteLength_bounds hvalid.bits_le
  have htrailer := hvalid.trailer_le
  have hassemble := assemble_eq dataId hwf hfit
  have hdrop : (headerBytes dataId message.hdr ++ (message.payload ++ List.replicate
      (calcByteNum profile.bits) 0)).drop (trailerPosition message profile).toNat = [] := by
    apply drop_eq_nil_of_le
    rw [toNat_trailerPosition hwf hvalid, length_append, length_append,
      length_headerBytes, length_replicate]
    omega
  have hcopy : ∀ i j n, copyBitStream2ByteBuffer [] i j n = none := by
    intro i j n
    simp [copyBitStream2ByteBuffer, copyBitStream2BytePtr]
  simp only [verifyTrailer, hassemble, hdrop, hcopy, bind_eq_bind, bind_some, bind_none]

theorem verifyTrailer_eq_none_of_big (hvalid : profile.Valid) (hwf : message.WellFormed)
    (hbig : 2 ^ 32 ≤ needed message profile.bits) :
    verifyTrailer host dataId message profile s = none := by
  simp [verifyTrailer, assemble_eq_none dataId hwf hvalid.bits_le hbig]

end

/-! ### A provider that confirms every message -/

/-- A freshness value manager in timestamp mode for every identifier. -/
def timeFvm (profile : SecOCProfile) : FVM :=
  ⟨fun _ => some (FVM.wordOf { profile with useFreshnessTimestamp := true }),
    fun _ => none, fun _ => none⟩

/-- A host whose clock shows `now` and whose provider computes `mac` for everything. -/
def agreeingHost (now : uint64) (mac : List uint8) : Host :=
  ⟨⟨fun x _ => x, fun x _ => x⟩, fun _ => now, fun _ _ _ => some mac⟩

/-- In timestamp mode the clock can be such that the low bits received are accepted. -/
theorem timeFvm_accepts (m : Shifts) (hvalid : profile.Valid)
    (hfv : profile.bits ≠ 0) (id : uint16) (value : List uint8) :
    ∃ freshness, (timeFvm profile).implGetRxFreshness m (FVM.decodeValue profile.sent value) id
        ⟨profile.sent, value⟩ = .ok freshness ∧
      freshness.length = profile.bits := by
  have htimed : ({ profile with useFreshnessTimestamp := true } : SecOCProfile).Valid :=
    { hvalid with }
  have hmode := FVM.modeOf_wordOf htimed
  have hbits := FVM.bitLengthOf_wordOf htimed
  have htx := hvalid.sent_le
  have hone : ¬ (1 : uint16) = 0 := by decide
  by_cases hsame : profile.bits = profile.sent
  · have hlow : FVM.lowBits m (FVM.decodeValue profile.sent value) profile.sent =
          FVM.decodeValue profile.sent value := by
      apply BitVec.eq_of_toNat_eq
      rw [FVM.toNat_lowBits (by omega) htx, Nat.mod_eq_of_lt (FVM.toNat_decodeValue_lt htx value)]
    have hwindow : ¬ (3 : uint64) ≤ 0 := by decide
    refine ⟨⟨profile.sent, value⟩, ?_, hsame.symm⟩
    simp only [FVM.implGetRxFreshness, timeFvm, Nat.not_lt.mpr htx, hmode, hbits, hone, hsame, hlow,
      BitVec.sub_self, if_true, if_false]
    exact if_neg hwindow
  · simp only [FVM.implGetRxFreshness, timeFvm, Nat.not_lt.mpr htx, hmode, hbits, hsame]
    exact ⟨_, rfl, rfl⟩

/-- A payload shorter than the trailer, with a provider that confirms what was received: the
bytes to take away are not there. -/
theorem exists_undefined_of_short (hvalid : profile.Valid) (hwf : message.WellFormed)
    (hfirst : profile.firstOverride = none)
    (hfit : needed message profile.bits < 2 ^ 32)
    (htrailer : profile.trailer ≤ 10 + message.payload.length)
    (hshort : message.payload.length < profile.trailer) :
    ∃ host dataId s, s.profiles dataId = some profile ∧
      implSecOCRxHandle host dataId message s = none := by
  have hauth := hvalid.authInfo_le
  obtain ⟨buffer, hbuffer, hlen⟩ := exists_assemble 0 hwf hfit
  have hauthInfo := trailer_le_length hwf hvalid hfit htrailer hlen
  obtain ⟨authTxValue, hcopy, hwindow⟩ := exists_authTxValue hvalid hauthInfo
  obtain ⟨value, -, hvalue⟩ := exists_rxValue hvalid hauthInfo
  have hmacLength := toNat_macLength hwf hfit htrailer
  let mac := authTxValue ++ List.replicate (16 - authTxValue.length) 0
  let now := FVM.decodeValue profile.sent value
  let s : SecOC := ⟨fun _ => some profile, timeFvm profile, none⟩
  have hbytes : authTxValue.length ≤ 16 := by
    rw [hwindow.length_eq, bytesFor]
    omega
  have hmac : mac.length = 16 := by
    rw [length_append, length_replicate]
    omega
  have hmatch : memBlockCompare authTxValue mac profile.authInfoTxLength.toNat = some true := by
    have hbits := le_bytesFor profile.authInfoTxLength.toNat
    apply memBlockCompare_of_bits hvalid.authInfo_pos (le_of_eq hwindow.length_eq.symm)
    · rw [hmac, ← hwindow.length_eq]
      exact hbytes
    · intro k hk
      rw [bitAt_append_left]
      rw [hwindow.length_eq]
      omega
  have hcrypto : ∀ (bytes : List uint8) (k : ℕ), bytes.length = buffer.length →
      doCryptoAuth (agreeingHost now mac) 0 profile.authenticationBuildAttempts.toNat bytes
        (bufferLength message profile.bits -
          BitVec.ofNat 32 profile.trailer) k = some (some mac) := by
    intro bytes k hsame
    have hcomputes : ∀ k bytes, (agreeingHost now mac).crypto 0 k bytes =
        some ((fun _ => mac) bytes) := fun _ _ => rfl
    exact doCryptoAuth_of_computes hcomputes (by rw [hsame, hlen, hmacLength]; omega) _ _
  obtain ⟨s', hverify⟩ : ∃ s', verifyTrailer (agreeingHost now mac) 0 message profile s =
      some (⟨true, false, profile.trailer⟩, s') := by
    by_cases hfv : profile.bits = 0
    · rw [verifyTrailer_of_no_freshness hbuffer hcopy hfv,
        verifyMac_of_match hvalid (hcrypto buffer 0 rfl) hmac hmatch]
      exact ⟨_, rfl⟩
    · obtain ⟨freshness, haccept, hfresh⟩ := timeFvm_accepts (agreeingHost now mac).shifts hvalid
        hfv profile.freshnessId value
      have hrx : rxFreshness (agreeingHost now mac) profile s.fvm
          (buffer.drop (trailerPosition message profile).toNat) = some (some freshness, 0) := by
        rw [hvalue, attempt_of_some (a := freshness)]
        exact congrArg Except.toOption haccept
      have hwrite := write_le hwf hvalid hfit htrailer hlen freshness.value
      rw [verifyTrailer_of_freshness hbuffer hcopy hfv hrx hfresh (writeBytes_eq hwrite),
        verifyMac_of_match hvalid (hcrypto _ 0 (length_splice hwrite)) hmac hmatch]
      exact ⟨_, rfl⟩
  refine ⟨agreeingHost now mac, 0, s, rfl, ?_⟩
  rw [rxHandle_of_verify _ _ (show s.profiles 0 = some profile from rfl) hfirst, hverify, bind_some]
  simp [rcommitLast, if_neg (Nat.not_le.mpr hshort)]

/-- The messages that are handed up without exactly their trailer or not at all, whatever
else happens: all of them under an override that drops, none under an override that skips,
otherwise those with a payload as long as the trailer and a buffer length in 32 bits. -/
theorem alwaysHandsUp_iff (profile : SecOCProfile) (haccepted : profile.Accepted)
    (message : SomeIpMessage) (hwf : message.WellFormed) :
    AlwaysHandsUp profile message ↔
      profile.DropsNext ∨
        ¬ profile.SkipsNext ∧ profile.trailer ≤ message.payload.length ∧
          needed message profile.freshnessValueLength.toNat < 2 ^ 32 := by
  have hvalid := haccepted.valid
  by_cases hdrop : profile.DropsNext
  · exact iff_of_true (alwaysHandsUp_of_dropsNext hdrop) (Or.inl hdrop)
  by_cases hskip : profile.SkipsNext
  · apply iff_of_false (not_alwaysHandsUp_of_skipsNext hvalid hskip)
    rintro (h | ⟨h, -⟩)
    · exact hdrop h
    · exact h hskip
  have hfirst := firstOverride_eq_none hdrop hskip
  have hundefined : ∀ host dataId s, s.profiles dataId = some profile →
      verifyTrailer host dataId message profile s = none →
      implSecOCRxHandle host dataId message s = none := by
    intro host dataId s hs hnone
    rw [rxHandle_of_verify host message hs hfirst, hnone, bind_none]
  constructor
  · intro hall
    refine Or.inr ⟨hskip, ?_⟩
    by_contra hnot
    apply not_alwaysHandsUp_of_undefined _ hall
    rcases Nat.lt_or_ge (needed message profile.bits) (2 ^ 32) with hfit | hbig
    · have hshort : message.payload.length < profile.trailer := by
        by_contra hlong
        exact hnot ⟨Nat.not_lt.mp hlong, hfit⟩
      rcases Nat.lt_or_ge (10 + message.payload.length) profile.trailer with hbefore | hin
      · exact ⟨quietHost, 0, quietState profile, rfl, hundefined _ _ _ rfl
          (verifyTrailer_eq_none_of_before _ _ _ hvalid hwf hfit hbefore)⟩
      · exact exists_undefined_of_short hvalid hwf hfirst hfit hin hshort
    · exact ⟨quietHost, 0, quietState profile, rfl, hundefined _ _ _ rfl
        (verifyTrailer_eq_none_of_big _ _ _ hvalid hwf hbig)⟩
  · rintro (h | ⟨-, hlong, hfit⟩)
    · exact absurd h hdrop
    · exact alwaysHandsUp_of_long hvalid hwf hfirst hfit hlong

def plainSettings : SecOCProfile :=
  { dataId := 1, freshnessId := 1, profileCategory := "PROFILE_02", cryptoKeySlot := "slot" }

def plainProfile (status : OverrideStatusEnum) : SecOCProfile :=
  { plainSettings.transform.withAlgorithm with overrideStatus := status }

theorem plainProfile_accepted (status : OverrideStatusEnum) : (plainProfile status).Accepted := by
  refine ⟨{ plainSettings with overrideStatus := status }, ⟨rfl, rfl, rfl⟩, ?_⟩
  cases status <;> rfl

def fourBytes : SomeIpMessage := ⟨⟨0x1111, 0x8001, 12, 0, 1, 1, 1, 2, 0⟩, [1, 2, 3, 4]⟩

theorem alwaysHandsUp_fourBytes : AlwaysHandsUp (plainProfile .kSecOcOverrideCancel) fourBytes :=
  (alwaysHandsUp_iff _ (plainProfile_accepted _) fourBytes (by decide)).mpr
    (Or.inr ⟨by simp [SecOCProfile.SkipsNext, plainProfile], by decide, by decide⟩)

/-- Under an override that skips verification the application gets the trailer too. -/
theorem skipped_keeps_trailer :
    (plainProfile .kSecOcOverrideSkipUntilNotice).Accepted ∧ fourBytes.WellFormed ∧
      (plainProfile .kSecOcOverrideSkipUntilNotice).trailer = 3 ∧
      (implSecOCRxHandle quietHost 1 fourBytes
        (quietState (plainProfile .kSecOcOverrideSkipUntilNotice))).map
          (fun handled => (handled.result, handled.message)) = some (0, fourBytes) :=
  ⟨plainProfile_accepted _, by decide, by decide, rfl⟩

end AdaptivePlatform.Secoc
