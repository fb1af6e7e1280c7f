import AdaptivePlatform.E2E.Profile04
import AdaptivePlatform.E2E.Profile05
import AdaptivePlatform.E2E.Profile07

/-!
# The verdict on a counter

A correct message gets the verdict on its distance `(r - c) mod 2^w` from the
stored counter exactly where `MaxDeltaCounter` is below half the counter range,
or the distance exceeds it anyway: a larger `MaxDeltaCounter` turns negative
when it is converted to the signed type.
-/
namespace AdaptivePlatform.E2E

/-- The check accepts its inputs, and its verdict on the received counter is the
one of `SequenceVerdict` exactly under `condition`. -/
def VerdictIff {w : ℕ} (maxDelta : BitVec w) (state : CheckState w) (r : BitVec w)
    (condition : Prop) (result : Option (ReturnType × CheckState w)) : Prop :=
  ∃ after, result = some (.ok, after) ∧ (SequenceVerdict maxDelta state.counter r after ↔ condition)

section

variable {w : ℕ} {maxDelta : BitVec w} {state : CheckState w} {r : BitVec w}

theorem verdictIff_checkSequence (hw : 2 ≤ w) {result : Option (ReturnType × CheckState w)}
    (hresult : result = some (.ok, checkSequence maxDelta state r)) :
    VerdictIff maxDelta state r (MaxDeltaFits maxDelta state.counter r) result :=
  ⟨_, hresult, checkSequence_verdict_iff hw maxDelta state r⟩

/-- Every distance has one of the four verdicts, so `error` is none of them. -/
theorem not_sequenceVerdict_error (c : BitVec w) :
    ¬ SequenceVerdict maxDelta state.counter r ⟨.error, c⟩ := by
  intro h
  have hrepeated := h.repeated
  have hok := h.ok
  have hlost := h.okSomeLost
  have hwrong := h.wrongSequence
  simp only [reduceCtorEq, false_iff] at hrepeated hok hlost hwrong
  omega

theorem verdictIff_matching (hw : 2 ≤ w) {matching : Prop} [Decidable matching]
    {result : Option (ReturnType × CheckState w)}
    (hresult : result = some (.ok, if matching then checkSequence maxDelta state r
      else { state with status := .error })) :
    VerdictIff maxDelta state r (matching ∧ MaxDeltaFits maxDelta state.counter r) result := by
  refine ⟨_, hresult, ?_⟩
  by_cases h : matching
  · rw [if_pos h, checkSequence_verdict_iff hw]
    exact (and_iff_right h).symm
  · rw [if_neg h]
    constructor
    · intro hverdict
      exact absurd hverdict (not_sequenceVerdict_error _)
    · intro hmatching
      exact absurd hmatching.1 h

end

/-- The exact condition for the verdict, in each profile. The checks of profile
4m compare source identifier, message type and message result, too. -/
theorem counterCheck_verdict_iff (data : List uint8) :
    (∀ (config : P04Config) (state : CheckState 16) (length r : uint16),
      Profile4Correct config.layout data length r →
      VerdictIff config.maxDeltaCounter state r
        (MaxDeltaFits config.maxDeltaCounter state.counter r)
        (p04Check config state (some data) length)) ∧
    (∀ (config : P44Config) (state : CheckState 16) (length r : uint16),
      Profile4Correct config.layout data length r →
      VerdictIff config.maxDeltaCounter state r
        (MaxDeltaFits config.maxDeltaCounter state.counter r)
        (p44Check config state (some data) length)) ∧
    (∀ (config : P04mConfig) (state : CheckState 16) (length r : uint16)
      (sourceID carriedID : uint32)
      (messageType messageResult carriedType carriedResult : uint8),
      P04mCorrect config data length r carriedID carriedType carriedResult →
      MessageKindValid messageType messageResult →
      (sourceID ≤ 0xFFFFFFF →
        VerdictIff config.maxDeltaCounter state r
          ((carriedID = sourceID ∧ carriedType = messageType ∧ carriedResult = messageResult) ∧
            MaxDeltaFits config.maxDeltaCounter state.counter r)
          (p04mSourceCheck config state sourceID messageType messageResult (some data) length)) ∧
      VerdictIff config.maxDeltaCounter state r
        ((carriedType = messageType ∧ carriedResult = messageResult) ∧
          MaxDeltaFits config.maxDeltaCounter state.counter r)
        ((p04mSinkCheck config state sourceID messageType messageResult (some data) length).map
          fun (ret, after, _) => (ret, after))) ∧
    (∀ (config : P05Config) (state : CheckState 8) (length : uint16)
      (r : uint8), P05Correct config data length r →
      VerdictIff config.maxDeltaCounter state r
        (MaxDeltaFits config.maxDeltaCounter state.counter r)
        (p05Check config state (some data) length)) ∧
    (∀ (config : P06Config) (state : CheckState 8) (length : uint16)
      (r : uint8), P06Correct config data length r →
      VerdictIff config.maxDeltaCounter state r
        (MaxDeltaFits config.maxDeltaCounter state.counter r)
        (p06Check config state (some data) length)) ∧
    (∀ (config : P07Config) (state : CheckState 32) (length r : uint32),
      Profile7Correct 8 (p07CRC config) config data length r →
      VerdictIff config.maxDeltaCounter state r
        (MaxDeltaFits config.maxDeltaCounter state.counter r)
        (p07Check config state (some data) length)) ∧
    (∀ (config : P08Config) (state : CheckState 32) (length r : uint32),
      Profile7Correct 4 (p08CRC config) config data length r →
      VerdictIff config.maxDeltaCounter state r
        (MaxDeltaFits config.maxDeltaCounter state.counter r)
        (p08Check config state (some data) length)) := by
  refine ⟨?_, ?_, ?_, ?_, ?_, ?_, ?_⟩
  · intro config state length r h
    exact verdictIff_checkSequence (by decide) (profile4Check_correct h state)
  · intro config state length r h
    exact verdictIff_checkSequence (by decide) (profile4Check_correct h state)
  · intro config state length r sourceID carriedID messageType messageResult carriedType
      carriedResult h hkind
    constructor
    · intro hid
      exact verdictIff_matching (by decide) (p04mSourceCheck_correct h hid hkind state)
    · refine verdictIff_matching (by decide) ?_
      rw [p04mSinkCheck_correct h hkind state]
      rfl
  · intro config state length r h
    exact verdictIff_checkSequence (by decide) (p05Check_correct h state)
  · intro config state length r h
    exact verdictIff_checkSequence (by decide) (p06Check_correct h state)
  all_goals
    intro config state length r h
    exact verdictIff_checkSequence (by decide) (profile7Check_correct h state)

def halfRange : P04Config where
  dataID := 0x0A0B0C0D
  offset := 0
  minDataLength := 96
  maxDataLength := 32768
  maxDeltaCounter := 0x8000

def counterOne : List uint8 := [0, 12, 0, 1, 10, 11, 12, 13, 249, 157, 69, 118]

theorem counterOne_correct : Profile4Correct halfRange.layout counterOne 12 1 where
  nonzero := by decide
  admitted := by decide
  length_eq := by decide
  counter_eq := by decide
  dataID_eq := by decide
  crc_eq := ⟨0xF99D4576, by decide +kernel, by decide +kernel⟩

/-- The message next in sequence, with nothing lost, gets `WRONGSEQUENCE`. -/
theorem halfRange_refuses_next :
    Profile4Correct halfRange.layout counterOne 12 1 ∧
      p04Check halfRange { status := .ok, counter := 0 } (some counterOne) 12 =
        some (.ok, { status := .wrongSequence, counter := 1 }) ∧
      (1 - 0 : uint16).toNat = 1 ∧ 1 ≤ halfRange.maxDeltaCounter.toNat ∧
      ¬ SequenceVerdict halfRange.maxDeltaCounter 0 1
        { status := .wrongSequence, counter := 1 } := by
  refine ⟨counterOne_correct, ?_, by decide, by decide, ?_⟩
  · exact profile4Check_correct counterOne_correct _
  · intro h
    have := h.wrongSequence.mp rfl
    revert this
    decide

theorem counterCheck_verdict_iff_halfRange :
    Profile4Correct halfRange.layout counterOne 12 1 ∧
      VerdictIff halfRange.maxDeltaCounter { status := .ok, counter := 0xFFFF } 1
        (MaxDeltaFits halfRange.maxDeltaCounter 0xFFFF 1)
        (p04Check halfRange { status := .ok, counter := 0xFFFF } (some counterOne) 12) :=
  ⟨counterOne_correct, (counterCheck_verdict_iff counterOne).1 halfRange _ _ _ counterOne_correct⟩

end AdaptivePlatform.E2E
