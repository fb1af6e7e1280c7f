import AdaptivePlatform.Foundations.Bytes

/-!
# Profiles of the secure onboard communication

A profile says which freshness value and which authenticator go with the messages of one
data identifier and how many bits of each are sent. `validateAndTransform` checks a profile
read from the manifest; `Valid` collects what it guarantees of the profiles it accepts. The
manifest never sets the job, the length of the authenticator or the crypto algorithm, the
override fields are set at run time.
-/
namespace AdaptivePlatform.Secoc

inductive SecOcJobSemanticEnum
  | kAuthenticate
  | kVerify
  deriving DecidableEq, Repr

inductive OverrideStatusEnum
  | kSecOcOverrideDropUntilNotice
  | kSecOcOverrideDropUntilLimit
  | kSecOcOverrideCancel
  | kSecOcOverridePassUntilNotice
  | kSecOcOverrideSkipUntilLimit
  | kSecOcOverridePassUntilLimit
  | kSecOcOverrideSkipUntilNotice

structure SecOCProfile where
  dataId : uint16 := 0
  freshnessId : uint16 := 0
  freshnessValueLength : uint16 := 64
  freshnessValueTxLength : uint16 := 0
  authInfoTxLength : uint16 := 0
  authDataFreshnessLength : uint16 := 0
  authenticationBuildAttempts : uint16 := 1
  authenticationRetries : uint16 := 1
  numberOfMessagesToOverride : uint16 := 0
  currentNumberOfMessagesToOverride : uint16 := 0
  expectedAuthValueLength : uint16 := 128
  useFreshnessTimestamp : Bool := true
  useAuthDataFreshness : Bool := false
  overrideStatus : OverrideStatusEnum := .kSecOcOverrideCancel
  jobSemantic : SecOcJobSemanticEnum := .kAuthenticate
  authAlgorithm : String := ""
  algorithmFamily : String := ""
  algorithmMode : String := ""
  algorithmSecondaryFamily : String := ""
  profileCategory : String := ""
  cryptoKeySlot : String := ""
  cryptoAlgorithm : String := ""

variable (p : SecOCProfile)

/-- What the three standard categories have in common. -/
def SecOCProfile.standard : SecOCProfile :=
  { p with
    algorithmFamily := "CRYPTO_ALGOFAM_AES"
    algorithmMode := "CRYPTO_ALGOMODE_CMAC"
    algorithmSecondaryFamily := "CRYPTO_ALGOFAM_NOT_SET"
    cryptoAlgorithm := "macaescbc-128"
    expectedAuthValueLength := 128
    jobSemantic := .kAuthenticate }

/-- The settings of `PROFILE_01`, `PROFILE_02` and `PROFILE_03`. -/
def SecOCProfile.transform : SecOCProfile :=
  if p.profileCategory = "PROFILE_01" then
    { p.standard with freshnessValueTxLength := 8, authInfoTxLength := 24 }
  else if p.profileCategory = "PROFILE_02" then
    { p.standard with
      freshnessValueLength := 0, freshnessValueTxLength := 0, authInfoTxLength := 24 }
  else if p.profileCategory = "PROFILE_03" then
    { p.standard with
      freshnessValueLength := 64, freshnessValueTxLength := 4, authInfoTxLength := 28 }
  else p

/-- The checks of the lengths, in the order of the source. -/
def SecOCProfile.lengthsAccepted : Bool :=
  if p.authInfoTxLength = 0 then false
  else if p.useAuthDataFreshness ∧ p.authDataFreshnessLength < p.freshnessValueTxLength then false
  else if p.useAuthDataFreshness ∧ p.authDataFreshnessLength = 0 then false
  else if ¬ p.useAuthDataFreshness ∧ p.freshnessValueTxLength = 0 ∧ 0 < p.freshnessValueLength then
    false
  else if ¬ p.useAuthDataFreshness ∧ p.freshnessValueLength < p.freshnessValueTxLength then false
  else if p.expectedAuthValueLength < p.authInfoTxLength then false
  else if (p.freshnessValueTxLength.toNat + p.authInfoTxLength.toNat) % 8 ≠ 0 then false
  else if 64 < p.freshnessValueLength ∨ 64 < p.freshnessValueTxLength ∨
      4 ≤ p.authenticationBuildAttempts ∨ 4 ≤ p.authenticationRetries then false
  else true

def SecOCProfile.withAlgorithm : SecOCProfile :=
  let p := if p.authAlgorithm = "AES-128" then { p with cryptoAlgorithm := "macaescbc-128" } else p
  if p.algorithmFamily = "CRYPTO_ALGOFAM_AES" ∧ p.algorithmMode = "CRYPTO_ALGOMODE_CMAC" then
    { p with cryptoAlgorithm := "macaescbc-128" }
  else p

/-- The profile as it is used afterwards, if it is accepted. -/
def SecOCProfile.validateAndTransform : Option SecOCProfile :=
  if p.dataId = 0 ∨ p.freshnessId = 0 then none
  else if p.cryptoKeySlot = "" then none
  else if p.transform.lengthsAccepted = false then none
  else if p.transform.withAlgorithm.cryptoAlgorithm = "" then none
  else some p.transform.withAlgorithm

/-- A profile as the manifest loader leaves it. -/
structure SecOCProfile.Loaded (p : SecOCProfile) : Prop where
  expectedAuthValueLength : p.expectedAuthValueLength = 128
  jobSemantic : p.jobSemantic = .kAuthenticate
  cryptoAlgorithm : p.cryptoAlgorithm = ""

/-- A profile the configuration check accepted. -/
def SecOCProfile.Accepted : Prop := ∃ q : SecOCProfile, q.Loaded ∧ q.validateAndTransform = some p

/-- The bits of a freshness value. -/
abbrev SecOCProfile.bits : ℕ := p.freshnessValueLength.toNat

/-- The bits of a freshness value that are transmitted. -/
abbrev SecOCProfile.sent : ℕ := p.freshnessValueTxLength.toNat

/-- The lengths of an accepted profile. -/
structure SecOCProfile.Valid (p : SecOCProfile) : Prop where
  authInfo_pos : 0 < p.authInfoTxLength.toNat
  tx_pos : p.useAuthDataFreshness = false → 0 < p.freshnessValueLength.toNat →
    0 < p.freshnessValueTxLength.toNat
  tx_le : p.useAuthDataFreshness = false →
    p.freshnessValueTxLength.toNat ≤ p.freshnessValueLength.toNat
  authInfo_le : p.authInfoTxLength.toNat ≤ 128
  whole_bytes : (p.freshnessValueTxLength.toNat + p.authInfoTxLength.toNat) % 8 = 0
  freshness_le : p.freshnessValueLength.toNat ≤ 64
  freshnessTx_le : p.freshnessValueTxLength.toNat ≤ 64
  attempts_lt : p.authenticationBuildAttempts.toNat < 4
  expected : p.expectedAuthValueLength.toNat = 128
  job : p.jobSemantic = .kAuthenticate

namespace SecOCProfile

variable {p q : SecOCProfile}

/-- The bytes of the trailer a profile adds to a message. -/
def trailer (p : SecOCProfile) : ℕ :=
  (p.freshnessValueTxLength.toNat + p.authInfoTxLength.toNat) / 8

theorem transform_expected (h : q.Loaded) : q.transform.expectedAuthValueLength = 128 := by
  unfold transform
  split_ifs
  · rfl
  · rfl
  · rfl
  · exact h.expectedAuthValueLength

theorem transform_job (h : q.Loaded) : q.transform.jobSemantic = .kAuthenticate := by
  unfold transform
  split_ifs
  · rfl
  · rfl
  · rfl
  · exact h.jobSemantic

theorem withAlgorithm_eq (p : SecOCProfile) :
    ∃ name, p.withAlgorithm = { p with cryptoAlgorithm := name } := by
  unfold withAlgorithm
  dsimp only
  split_ifs <;> exact ⟨_, rfl⟩

theorem valid_of_lengthsAccepted (h : p.lengthsAccepted = true)
    (hexpected : p.expectedAuthValueLength = 128) (hjob : p.jobSemantic = .kAuthenticate) :
    p.Valid := by
  unfold lengthsAccepted at h
  split_ifs at h with h1 h2 h3 h4 h5 h6 h7 h8
  have hauth : 0 < p.authInfoTxLength.toNat := by bv_omega
  have hauthLe : p.authInfoTxLength.toNat ≤ 128 := by bv_omega
  have hlengths : p.freshnessValueLength.toNat ≤ 64 ∧ p.freshnessValueTxLength.toNat ≤ 64 ∧
      p.authenticationBuildAttempts.toNat < 4 := by bv_omega
  refine ⟨hauth, ?_, ?_, hauthLe, not_not.mp h7, hlengths.1, hlengths.2.1, hlengths.2.2, ?_, hjob⟩
  · intro huse hpos
    simp only [huse, Bool.false_eq_true, not_false_eq_true, true_and] at h4
    bv_omega
  · intro huse
    simp only [huse, Bool.false_eq_true, not_false_eq_true, true_and] at h5
    bv_omega
  · rw [hexpected]
    rfl

theorem Accepted.valid (h : p.Accepted) : p.Valid := by
  obtain ⟨q, hloaded, hcheck⟩ := h
  unfold validateAndTransform at hcheck
  split_ifs at hcheck with _ _ hlengths
  have hvalid := valid_of_lengthsAccepted (Bool.not_eq_false _ ▸ hlengths)
    (transform_expected hloaded) (transform_job hloaded)
  obtain ⟨name, hname⟩ := withAlgorithm_eq q.transform
  cases hcheck
  rw [hname]
  exact ⟨hvalid.authInfo_pos, hvalid.tx_pos, hvalid.tx_le, hvalid.authInfo_le,
    hvalid.whole_bytes, hvalid.freshness_le, hvalid.freshnessTx_le, hvalid.attempts_lt,
    hvalid.expected, hvalid.job⟩

section

variable (h : p.Valid)

include h

theorem Valid.bits_le : p.bits ≤ 64 := h.freshness_le

theorem Valid.sent_le : p.sent ≤ 64 := h.freshnessTx_le

theorem Valid.sent_le_bits : p.useAuthDataFreshness = false → p.sent ≤ p.bits := h.tx_le

theorem Valid.sent_pos : p.useAuthDataFreshness = false → 0 < p.bits → 0 < p.sent := h.tx_pos

theorem Valid.trailer_pos : 0 < p.trailer := by
  have := h.authInfo_pos
  have := h.whole_bytes
  unfold trailer
  omega

theorem Valid.eight_mul_trailer : 8 * p.trailer = p.sent + p.authInfoTxLength.toNat :=
  Nat.mul_div_cancel' (Nat.dvd_of_mod_eq_zero h.whole_bytes)

theorem Valid.trailer_le : p.trailer ≤ 24 := by
  have := h.freshnessTx_le
  have := h.authInfo_le
  unfold trailer
  omega

end

end SecOCProfile

end AdaptivePlatform.Secoc
