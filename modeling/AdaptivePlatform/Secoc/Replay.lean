import AdaptivePlatform.Foundations.Runs
import AdaptivePlatform.Secoc.Delivery

/-!
# Replay protection of counters

The receiver keeps the last verified counter of a freshness identifier and assumes the next
value that has the low bits of the trailer. While that value fits its length, the values
under which messages are verified grow, and only a verified message changes the counter.
When the upper part of the counter is all ones, the carry is cut off: the assumed value
starts again from below, and values are accepted a second time.
-/
namespace AdaptivePlatform.Secoc

open Bytes BitStreams Runs List Option
open Handled (state)
open FVM (bitLengthOf decodeValue modeOf)

structure Reception where
  host : Host
  dataId : uint16
  message : SomeIpMessage

variable (s : SecOC) (i : Reception) (profile : SecOCProfile)

def receive : Option SecOC := (implSecOCRxHandle i.host i.dataId i.message s).map state

/-- The freshness value the receiver assumes for a message. -/
def assumedFreshness : Option ℕ := do
  let buffer ← assemble i.dataId i.message profile.freshnessValueLength.toNat
  let result ← rxFreshness i.host profile s.fvm
    (buffer.drop (trailerPosition i.message profile).toNat)
  let freshness ← result.1
  some (decodeValue profile.freshnessValueLength.toNat freshness.value).toNat

/-- The freshness value under which a message is reported as verified. -/
def acceptedFreshness : Option ℕ := do
  let profile ← s.profiles i.dataId
  let handled ← implSecOCRxHandle i.host i.dataId i.message s
  if handled.result = 0 ∧ handled.state.snapshot =
      some ⟨i.dataId, profile.freshnessId, .kSecOcVerificationSuccess⟩ then
    assumedFreshness s i profile
  else none

def acceptedValues : SecOC → List Reception → List ℕ
  | _, [] => []
  | s, i :: receptions => (acceptedFreshness s i).toList ++
    match receive s i with
    | some s' => acceptedValues s' receptions
    | none => []

/-- A message of the freshness identifier, for an accepted profile with a value of the manager
and no override. -/
structure Covered (id : uint16) (s : SecOC) (i : Reception) (profile : SecOCProfile) : Prop where
  found : s.profiles i.dataId = some profile
  accepted : profile.Accepted
  freshnessId : profile.freshnessId = id
  managed : profile.useAuthDataFreshness = false
  freshness : profile.freshnessValueLength.toNat ≠ 0
  cancelled : profile.overrideStatus = .kSecOcOverrideCancel
  wellFormed : i.message.WellFormed

/-- The low bits of the freshness value in the trailer of a message. -/
def receivedLow (message : SomeIpMessage) : ℕ :=
  (decodeValue profile.freshnessValueTxLength.toNat
    (message.payload.drop (message.payload.length - profile.trailer))).toNat

/-- The next value with the low bits received needs a carry out of an upper part that is all
ones. -/
def Wraps (message : SomeIpMessage) (stored : ℕ) : Prop :=
  profile.freshnessValueTxLength.toNat < profile.freshnessValueLength.toNat ∧
    receivedLow profile message ≤ stored % 2 ^ profile.freshnessValueTxLength.toNat ∧
    2 ^ (profile.freshnessValueLength.toNat - profile.freshnessValueTxLength.toNat) ≤
      stored / 2 ^ profile.freshnessValueTxLength.toNat + 1

instance (message : SomeIpMessage) (stored : ℕ) : Decidable (Wraps profile message stored) :=
  inferInstanceAs (Decidable (_ ∧ _ ∧ _))

/-- The message has a whole trailer and does not make the counter wrap. -/
def Safe (id : uint16) (s : SecOC) (i : Reception) : Prop :=
  ∀ profile, s.profiles i.dataId = some profile →
    profile.trailer ≤ i.message.payload.length ∧
    needed i.message profile.freshnessValueLength.toNat < 2 ^ 32 ∧
    ∀ stored, s.fvm.counterRx id = some stored → ¬ Wraps profile i.message stored.toNat

instance (id : uint16) (s : SecOC) (i : Reception) : Decidable (Safe id s i) :=
  decidable_of_iff ((s.profiles i.dataId).all fun profile =>
      profile.trailer ≤ i.message.payload.length ∧
      needed i.message profile.freshnessValueLength.toNat < 2 ^ 32 ∧
      (s.fvm.counterRx id).all fun stored => ¬ Wraps profile i.message stored.toNat)
    (by simp [Safe, Option.all_eq_true])

section

variable {m : Shifts} {now : uint64} {fvm : FVM} {id : uint16} {truncated freshness : FVContainer}

theorem counter_cases {word : uint16} {old : uint64} (hword : fvm.modeAndLength id = some word)
    (hmode : modeOf word = 0) (hold : fvm.counterRx id = some old)
    (h : fvm.implGetRxFreshness m now id truncated = .ok freshness) :
    bitLengthOf word = truncated.length ∧ freshness = truncated ∧
        FVM.lowBits m old truncated.length < decodeValue truncated.length truncated.value ∨
      bitLengthOf word ≠ truncated.length ∧
        freshness = FVM.container (bitLengthOf word) (FVM.guessCounter m
          (bitLengthOf word) truncated.length old
          (decodeValue truncated.length truncated.value)) := by
  unfold FVM.implGetRxFreshness at h
  simp only [hword, hmode, hold, if_true] at h
  split_ifs at h with hlong hsame hle
  · left
    obtain rfl := Except.ok.inj h
    exact ⟨hsame, rfl, BitVec.not_le.mp hle⟩
  · right
    obtain rfl := Except.ok.inj h
    exact ⟨hsame, rfl⟩

theorem nextWith_lt {tx fv old low : ℕ} (htx : tx ≤ fv) (hold : old < 2 ^ fv) (hlow : low < 2 ^ tx)
    (h : ¬ (low ≤ old % 2 ^ tx ∧ 2 ^ (fv - tx) ≤ old / 2 ^ tx + 1)) :
    nextWith (2 ^ tx) old low < 2 ^ fv := by
  have hpow : 2 ^ tx * 2 ^ (fv - tx) = 2 ^ fv := pow_mul_pow_sub 2 htx
  unfold nextWith
  split_ifs with hcarry <;> rw [Nat.mul_comm, ← hpow] <;> refine mul_add_lt_mul ?_ hlow
  · exact Nat.div_lt_of_lt_mul (hpow ▸ hold)
  · by_contra hnot
    exact h ⟨by omega, by omega⟩

end

section

variable {id : uint16} {s s' : SecOC} {i : Reception} {profile : SecOCProfile} {word : uint16}
  {old : uint64} {freshness : FVContainer}

theorem exists_received_low (hcovered : Covered id s i profile)
    (hlong : profile.trailer ≤ i.message.payload.length)
    (hfit : needed i.message profile.bits < 2 ^ 32)
    (huses : UsesFreshness i.host i.dataId i.message profile s.fvm freshness) :
    ∃ value k, (decodeValue profile.sent value).toNat = receivedLow profile i.message ∧
      s.fvm.implGetRxFreshness i.host.shifts (i.host.clock k) id
        ⟨profile.sent, value⟩ = .ok freshness := by
  have hvalid := hcovered.accepted.valid
  have hbits := hvalid.eight_mul_trailer
  obtain ⟨buffer, k, hbuffer, hrx, -⟩ := huses
  rw [assemble_eq i.dataId hcovered.wellFormed hfit] at hbuffer
  cases hbuffer
  rw [toNat_trailerPosition_of_le hcovered.wellFormed hvalid hfit
    (Nat.le_add_left_of_le hlong), drop_assembled i.dataId _ hlong] at hrx
  have htrailer : (i.message.payload.drop
      (i.message.payload.length - profile.trailer)).length = profile.trailer := by
    rw [length_drop]
    omega
  have hbytes : calcByteNum profile.sent ≤ profile.trailer := by
    rw [calcByteNum_eq, bytesFor]
    omega
  obtain ⟨value, hreceived, hvalue⟩ := exists_rxValue hvalid
    (show profile.trailer ≤ (i.message.payload.drop (i.message.payload.length - profile.trailer) ++
      List.replicate (calcByteNum profile.bits) 0).length by
        rw [length_append, htrailer]
        omega)
  rw [hvalue] at hrx
  have hcall := call_of_attempt (some.inj hrx)
  refine ⟨value, k, ?_, ?_⟩
  · have hsame := FVM.decodeValue_congr hvalid.sent_le
      (by rw [hreceived.length_eq]; exact (FVM.byteLength_bounds hvalid.sent_le).2)
      (show calcByteNum profile.sent ≤ (i.message.payload.drop
        (i.message.payload.length - profile.trailer)).length by rw [htrailer]; exact hbytes)
      (fun k hk => by
        rw [hreceived.bit_eq, decide_eq_true hk, Bool.true_and,
          bitAt_append_left (by rw [htrailer]; omega)])
    rw [hsame, receivedLow]
  · rw [← hcovered.freshnessId]
    cases hget : s.fvm.implGetRxFreshness i.host.shifts (i.host.clock k) profile.freshnessId
        ⟨profile.sent, value⟩ with
    | error e =>
      rw [hget] at hcall
      cases hcall
    | ok c =>
      rw [hget] at hcall
      rw [some.inj hcall]

theorem assumedFreshness_eq
    (huses : UsesFreshness i.host i.dataId i.message profile s.fvm freshness) :
    assumedFreshness s i profile = some (decodeValue profile.bits freshness.value).toNat := by
  obtain ⟨buffer, k, hbuffer, hrx, -⟩ := huses
  simp [assumedFreshness, hbuffer, hrx]

theorem Covered.of_profiles (h : Covered id s i profile) (hs : s'.profiles = s.profiles) :
    Covered id s' i profile :=
  ⟨hs ▸ h.found, h.accepted, h.freshnessId, h.managed, h.freshness, h.cancelled, h.wellFormed⟩

theorem acceptedFreshness_of_ne {handled : Handled} (hfound : s.profiles i.dataId = some profile)
    (hdone : implSecOCRxHandle i.host i.dataId i.message s = some handled)
    (hne : handled.result ≠ 0) : acceptedFreshness s i = none := by
  simp only [acceptedFreshness, hfound, hdone]
  exact if_neg (fun h => hne h.1)

section

variable (hcovered : Covered id s i profile) (hword : s.fvm.modeAndLength id = some word)
  (hmode : modeOf word = 0) (hold : s.fvm.counterRx id = some old)

include hcovered hword hmode hold

/-- A value the manager returns is above the stored one and fits its length, if the counter
does not wrap. -/
theorem assumed_increases (hbound : old.toNat < 2 ^ bitLengthOf word) (hsafe : Safe id s i)
    (huses : UsesFreshness i.host i.dataId i.message profile s.fvm freshness) :
    bitLengthOf word = profile.bits ∧
      old.toNat < (decodeValue profile.bits freshness.value).toNat := by
  have hvalid := hcovered.accepted.valid
  obtain ⟨hlong, hfit, hwrap⟩ := hsafe profile hcovered.found
  have hnowrap := hwrap old hold
  have htxpos := hvalid.sent_pos hcovered.managed (Nat.pos_of_ne_zero hcovered.freshness)
  have htxle := hvalid.sent_le_bits hcovered.managed
  obtain ⟨value, k, hlow, hget⟩ := exists_received_low hcovered hlong hfit huses
  obtain ⟨-, -, -, -, hlen⟩ := huses
  have hlowlt := FVM.toNat_decodeValue_lt hvalid.sent_le value
  rcases counter_cases hword hmode hold hget with ⟨hsame, rfl, hlt⟩ | ⟨hne, rfl⟩
  · -- the whole value was sent
    have hfv : profile.sent = profile.bits := hlen
    dsimp only at hsame hlt ⊢
    rw [BitVec.lt_def, FVM.toNat_lowBits htxpos hvalid.sent_le, ← hsame,
      Nat.mod_eq_of_lt hbound] at hlt
    rw [← hfv]
    exact ⟨hsame, by rw [← hsame]; exact hlt⟩
  · have hfv : bitLengthOf word = profile.bits := hlen
    have hshort : profile.sent < profile.bits := by
      dsimp only at hne
      omega
    rw [hfv] at hbound
    have hnext := nextWith_lt htxle hbound (hlow ▸ hlowlt) (fun h => hnowrap ⟨hshort, h⟩)
    have hguess := FVM.toNat_guessCounter (m := i.host.shifts) htxpos hshort hvalid.bits_le
      hbound hlowlt
    refine ⟨hfv, ?_⟩
    rw [FVM.container, hfv, FVM.toNat_decodeValue_encodeValue hvalid.bits_le, hguess, hlow,
      Nat.mod_eq_of_lt hnext]
    exact lt_nextWith _ (hlow ▸ hlowlt)

theorem verified_eq (hlen : freshness.length = profile.bits)
    (hsame : bitLengthOf word = profile.bits) :
    s.verified profile freshness = { s with fvm := { s.fvm with
      counterRx := Function.update s.fvm.counterRx id
        (some (decodeValue profile.bits freshness.value)) } } := by
  have hvalid := hcovered.accepted.valid
  have hne : profile.freshnessValueLength ≠ 0 := by
    intro hzero
    exact hcovered.freshness (by rw [hzero]; rfl)
  have hcondition : modeOf word = 0 ∧ freshness.length = bitLengthOf word ∧
      freshness.length ≤ 64 := ⟨hmode, hlen.trans hsame.symm, hlen ▸ hvalid.bits_le⟩
  rw [SecOC.verified, if_pos ⟨hcovered.managed, hne⟩, hcovered.freshnessId,
    FVM.implVerificationSuccessCallout]
  simp only [hword, hold]
  rw [if_pos hcondition, hlen]

/-- What a reception does to the manager: nothing, or the value verified is stored. -/
theorem receive_cases (hbound : old.toNat < 2 ^ bitLengthOf word) (hsafe : Safe id s i) :
    ∃ s', receive s i = some s' ∧ s'.profiles = s.profiles ∧
      s'.fvm.modeAndLength = s.fvm.modeAndLength ∧
      (acceptedFreshness s i = none ∧ s'.fvm.counterRx id = s.fvm.counterRx id ∨
        ∃ v : uint64, acceptedFreshness s i = some v.toNat ∧ s'.fvm.counterRx id = some v ∧
          old.toNat < v.toNat ∧ v.toNat < 2 ^ profile.bits ∧
          bitLengthOf word = profile.bits) := by
  have hvalid := hcovered.accepted.valid
  obtain ⟨hlong, hfit, -⟩ := hsafe profile hcovered.found
  have hfirst : profile.firstOverride = none := by
    simp [SecOCProfile.firstOverride, hcovered.cancelled]
  have hcommit : rcommitLast i.message.payload profile.trailer =
      some (i.message.payload.take (i.message.payload.length - profile.trailer)) := if_pos hlong
  obtain ⟨result, hresult⟩ := exists_verifyTrailer i.host i.dataId s hvalid hcovered.wellFormed
    hfit (Nat.le_add_left_of_le hlong)
  have hhandle := rxHandle_of_verify i.host i.message hcovered.found hfirst
  rw [hresult, bind_some] at hhandle
  have houtcome := verifyTrailer_outcome hresult
  cases houtcome with
  | rejected | dropped status hstatus =>
    exact ⟨_, congrArg (Option.map state) hhandle, rfl, rfl,
      Or.inl ⟨acceptedFreshness_of_ne hcovered.found hhandle (by simp), rfl⟩⟩
  | passed status profile' hpass =>
    simp only [SecOCProfile.passOverride, hcovered.cancelled] at hpass
    cases hpass
  | verified freshness huses =>
    have huses := huses hcovered.freshness
    have hlen : freshness.length = profile.bits := by
      obtain ⟨-, -, -, -, hlen⟩ := huses
      exact hlen
    obtain ⟨hsame, hlt⟩ := assumed_increases hcovered hword hmode hold hbound hsafe huses
    have hreported : Covered id (s.setVerificationEventSnapshot i.dataId profile.freshnessId
        .kSecOcVerificationSuccess) i profile := hcovered.of_profiles rfl
    have hstate := verified_eq hreported hword hmode hold hlen hsame
    simp only [Bool.true_eq_false, Bool.false_eq_true, if_false, hcommit, hstate] at hhandle
    refine ⟨_, congrArg (Option.map state) hhandle, rfl, rfl, Or.inr
      ⟨decodeValue profile.bits freshness.value, ?_, ?_, hlt,
        FVM.toNat_decodeValue_lt hvalid.bits_le _, hsame⟩⟩
    · simp only [acceptedFreshness, hcovered.found, hhandle, bind_eq_bind, bind_some]
      rw [if_pos ⟨trivial, rfl⟩, assumedFreshness_eq huses]
    · exact Function.update_self _ _ _

end

end

/-- The manager counts for the identifier: a counter of the length in `word` is stored. -/
def Counts (id word : uint16) (s : SecOC) : Prop :=
  s.fvm.modeAndLength id = some word ∧ modeOf word = 0 ∧
    ∃ old, s.fvm.counterRx id = some old ∧ old.toNat < 2 ^ bitLengthOf word

/-- The next message belongs to the identifier and is safe. -/
def SafelyCovered (id : uint16) (s : SecOC) (i : Reception) : Prop :=
  (∃ profile, Covered id s i profile) ∧ Safe id s i

section

variable {id word : uint16} {s t u : SecOC} {i : Reception} {receptions : List Reception}
  {old : uint64}

section

variable (hcounts : Counts id word s)

include hcounts

theorem receive_counts (hi : SafelyCovered id s i) :
    ∃ s', receive s i = some s' ∧ Counts id word s' ∧ s'.profiles = s.profiles := by
  obtain ⟨⟨profile, hcovered⟩, hsafe⟩ := hi
  obtain ⟨hword, hmode, old, hold, hbound⟩ := hcounts
  obtain ⟨s', hs', hprofiles, hmodes, hcase⟩ := receive_cases hcovered hword hmode hold hbound hsafe
  refine ⟨s', hs', ⟨hmodes ▸ hword, hmode, ?_⟩, hprofiles⟩
  rcases hcase with ⟨-, hsame⟩ | ⟨v, -, hstored, -, hlt, hlen⟩
  · exact ⟨old, hsame ▸ hold, hbound⟩
  · exact ⟨v, hstored, hlen ▸ hlt⟩

/-- The profiles do not change, so what is covered at the start stays covered. -/
theorem along_safelyCovered (hcovered : ∀ i ∈ receptions, ∃ profile, Covered id s i profile)
    (hsafe : Along receive (Safe id) s receptions) :
    Along receive (SafelyCovered id) s receptions := by
  induction receptions generalizing s with
  | nil => trivial
  | cons i receptions ih =>
    have hi : SafelyCovered id s i := ⟨hcovered i mem_cons_self, hsafe.1⟩
    refine ⟨hi, fun s' hs' => ?_⟩
    obtain ⟨next, hnext, hcounts', hprofiles⟩ := receive_counts hcounts hi
    cases hnext.symm.trans hs'
    apply ih hcounts' _ (hsafe.2 _ hs')
    intro j hj
    obtain ⟨profile, hcov⟩ := hcovered j (mem_cons_of_mem _ hj)
    exact ⟨profile, hcov.of_profiles hprofiles⟩

theorem always_counts (hrun : Along receive (SafelyCovered id) s receptions) :
    Always receive (Counts id word) s receptions := by
  apply always_of_along _ hcounts hrun
  intro s i hs hi
  obtain ⟨s', hs', hcounts', -⟩ := receive_counts hs hi
  exact ⟨s', hs', hcounts'⟩

end

/-- The values verified in a run grow from the stored counter on. -/
theorem acceptedValues_increase (hword : s.fvm.modeAndLength id = some word)
    (hmode : modeOf word = 0) (hold : s.fvm.counterRx id = some old)
    (hbound : old.toNat < 2 ^ bitLengthOf word)
    (hrun : Along receive (SafelyCovered id) s receptions) :
    (old.toNat :: acceptedValues s receptions).Pairwise (· < ·) := by
  induction receptions generalizing s old with
  | nil => exact pairwise_singleton _ _
  | cons i receptions ih =>
    obtain ⟨⟨⟨profile, hcovered⟩, hsafe⟩, hrest⟩ := hrun
    obtain ⟨s', hs', -, hmodes, hcase⟩ := receive_cases hcovered hword hmode hold hbound hsafe
    have hword' : s'.fvm.modeAndLength id = some word := hmodes ▸ hword
    rcases hcase with ⟨hnone, hsame⟩ | ⟨v, hsome, hstored, hlt, hfit, hlen⟩
    · have hvalues : acceptedValues s (i :: receptions) = acceptedValues s' receptions := by
        simp [acceptedValues, hnone, hs']
      rw [hvalues]
      exact ih hword' (hsame ▸ hold) hbound (hrest s' hs')
    · have hvalues : acceptedValues s (i :: receptions) =
          v.toNat :: acceptedValues s' receptions := by
        simp [acceptedValues, hsome, hs']
      have htail := ih hword' hstored (hlen ▸ hfit) (hrest s' hs')
      rw [hvalues, pairwise_cons]
      refine ⟨?_, htail⟩
      intro w hw
      rcases mem_cons.mp hw with rfl | hw
      · exact hlt
      · exact lt_trans hlt (rel_of_pairwise_cons htail hw)

end

/-- Replay protection: as long as every message has a whole trailer and none makes the counter
wrap, the values verified grow strictly from the stored counter on, each below two to the
length of its profile, and a message that is not verified leaves the stored counter. -/
theorem replay_protected (id word : uint16) (s : SecOC) (old : uint64)
    (hword : s.fvm.modeAndLength id = some word) (hmode : modeOf word = 0)
    (hold : s.fvm.counterRx id = some old) (hbound : old.toNat < 2 ^ bitLengthOf word)
    (receptions : List Reception)
    (hcovered : ∀ i ∈ receptions, ∃ profile, Covered id s i profile)
    (hsafe : Along receive (Safe id) s receptions) :
    (∃ t, exec receive s receptions = some t) ∧
    (old.toNat :: acceptedValues s receptions).Pairwise (· < ·) ∧
    ∀ seen i rest t, receptions = seen ++ i :: rest → exec receive s seen = some t →
      (∀ v profile, t.profiles i.dataId = some profile → acceptedFreshness t i = some v →
        v < 2 ^ profile.freshnessValueLength.toNat) ∧
      (∀ u, receive t i = some u → acceptedFreshness t i = none →
        u.fvm.counterRx id = t.fvm.counterRx id) := by
  have hcounts : Counts id word s := ⟨hword, hmode, old, hold, hbound⟩
  have hrun := along_safelyCovered hcounts hcovered hsafe
  refine ⟨(always_counts hcounts hrun).exists_exec,
    acceptedValues_increase hword hmode hold hbound hrun, ?_⟩
  rintro seen i rest t rfl hreach
  obtain ⟨hseen, hlater⟩ := hrun.of_append
  obtain ⟨⟨⟨profile, hcov⟩, hi⟩, -⟩ := hlater t hreach
  obtain ⟨hword', hmode', old', hold', hbound'⟩ := (always_counts hcounts hseen).last hreach
  obtain ⟨u, hu, -, -, hcase⟩ := receive_cases hcov hword' hmode' hold' hbound' hi
  constructor
  · intro v profile' hprofile hv
    cases hcov.found.symm.trans hprofile
    rcases hcase with ⟨hnone, -⟩ | ⟨w, hsome, -, -, hlt, -⟩
    · rw [hnone] at hv
      cases hv
    · cases hsome.symm.trans hv
      exact hlt
  · intro u' hu' hnone
    cases hu.symm.trans hu'
    rcases hcase with ⟨-, hsame⟩ | ⟨w, hsome, -⟩
    · exact hsame
    · rw [hsome] at hnone
      cases hnone

/-- A counter of two bits, one of which is sent with seven bits of the authenticator. -/
def tinySettings : SecOCProfile :=
  { dataId := 1, freshnessId := 1, freshnessValueLength := 2, freshnessValueTxLength := 1,
    authInfoTxLength := 7, useFreshnessTimestamp := false, authAlgorithm := "AES-128",
    cryptoKeySlot := "slot" }

def tinyProfile : SecOCProfile := tinySettings.withAlgorithm

theorem tinyProfile_accepted : tinyProfile.Accepted := ⟨tinySettings, ⟨rfl, rfl, rfl⟩, rfl⟩

def tinyState : SecOC := ⟨fun _ => some tinyProfile, FVM.implInitialize [tinyProfile], none⟩

/-- A message that is only a trailer, under a provider that computes zeros. -/
def trailerOnly (trailer : uint8) : Reception :=
  ⟨agreeingHost 0 (List.replicate 16 0), 1, ⟨⟨0x1111, 0x8001, 9, 0, 1, 1, 1, 2, 0⟩, [trailer]⟩⟩

theorem trailerOnly_covered (trailer : uint8) : Covered 1 tinyState (trailerOnly trailer)
    tinyProfile :=
  ⟨rfl, tinyProfile_accepted, rfl, rfl, by decide, rfl, rfl⟩

def threeMessages : List Reception := [trailerOnly 0x80, trailerOnly 0x00, trailerOnly 0x80]

theorem replay_protected_threeMessages : acceptedValues tinyState threeMessages = [1, 2, 3] ∧
    (0 :: acceptedValues tinyState threeMessages).Pairwise (· < ·) := by
  have hcovered : ∀ i ∈ threeMessages, ∃ profile, Covered 1 tinyState i profile := by
    simp only [threeMessages, forall_mem_cons]
    exact ⟨⟨_, trailerOnly_covered _⟩, ⟨_, trailerOnly_covered _⟩, ⟨_, trailerOnly_covered _⟩,
      by simp⟩
  refine ⟨by decide +kernel, ?_⟩
  exact (replay_protected 1 (FVM.wordOf tinyProfile) tinyState 0 rfl (by decide) rfl (by decide)
    threeMessages hcovered (by decide +kernel)).2.1

/-- After three messages the counter is at its end; the fourth, with the low bit of the
first, is verified under the value of the first. -/
theorem freshness_accepted_twice :
    (∀ trailer, Covered 1 tinyState (trailerOnly trailer) tinyProfile) ∧
      acceptedValues tinyState
        [trailerOnly 0x80, trailerOnly 0x00, trailerOnly 0x80, trailerOnly 0x80] = [1, 2, 3, 1] :=
  ⟨trailerOnly_covered, by decide +kernel⟩

end AdaptivePlatform.Secoc
