import AdaptivePlatform.E2E.StateMachine
import Mathlib.Tactic

/-!
# What one call of the state machine can do

Inside the array every helper has a result; `recorded`, `cleared` and
`clearedRemaining` are these results. `Transition` lists the successors of a
state under one `E2E_SMCheck` call with the tests that select them, and
`smStep_transition` says that the list is complete. Every invariant of the
state machine is derived from this list.
-/
namespace AdaptivePlatform.E2E

open List Option
open Or (inl inr)

/-- The configurations of the wrapper: no window is empty, and the array of
`WindowSizeValid` cells holds the other two windows. -/
structure SMConfig.Admissible (config : SMConfig) : Prop where
  init_pos : 0 < config.windowSizeInit.toNat
  invalid_pos : 0 < config.windowSizeInvalid.toNat
  valid_pos : 0 < config.windowSizeValid.toNat
  init_le : config.windowSizeInit.toNat ≤ config.windowSizeValid.toNat
  invalid_le : config.windowSizeInvalid.toNat ≤ config.windowSizeValid.toNat

variable (config : SMConfig)

@[simp] theorem windowSize_valid : config.windowSize .valid = config.windowSizeValid := rfl

@[simp] theorem windowSize_init : config.windowSize .init = config.windowSizeInit := rfl

@[simp] theorem windowSize_invalid : config.windowSize .invalid = config.windowSizeInvalid := rfl

@[simp] theorem windowSize_nodata : config.windowSize .nodata = config.windowSizeInvalid := rfl

namespace SMConfig.Admissible

variable {config : SMConfig} (h : config.Admissible)
include h

theorem size_pos (s : SMState) : 0 < (config.windowSize s).toNat := by
  cases s <;> simp only [SMConfig.windowSize]
  case valid => exact h.valid_pos
  case init => exact h.init_pos
  all_goals exact h.invalid_pos

theorem size_le (s : SMState) : (config.windowSize s).toNat ≤ config.windowSizeValid.toNat := by
  cases s <;> simp only [SMConfig.windowSize]
  case valid => exact le_rfl
  case init => exact h.init_le
  all_goals exact h.invalid_le

end SMConfig.Admissible

variable (config : SMConfig) (state : SMCheckState) (profileStatus : uint8)

def SMCheckState.stored : List uint8 :=
  state.profileStatusWindow.set state.windowTopIndex.toNat profileStatus

def countedCells : List uint8 :=
  (state.stored profileStatus).take (config.windowSize state.smState).toNat

def recorded (state : SMCheckState) : SMCheckState :=
  { state with
    profileStatusWindow := state.stored profileStatus
    okCount := BitVec.ofNat 8 ((countedCells config state profileStatus).count pOk)
    errorCount := BitVec.ofNat 8 ((countedCells config state profileStatus).count pError)
    windowTopIndex := nextTopIndex (config.windowSize state.smState) state.windowTopIndex }

def cleared : SMCheckState :=
  { state with
    profileStatusWindow :=
      List.replicate (config.windowSize state.smState).toNat pNotAvailable ++
        state.profileStatusWindow.drop (config.windowSize state.smState).toNat
    okCount := 0
    errorCount := 0
    windowTopIndex := 0 }

/-- `E2E_SMClearRemainingStatus` towards a window of `next` cells: it is the
cells below the last one of the old window that are overwritten. -/
def clearedRemaining (next : uint8) (state : SMCheckState) : SMCheckState :=
  if config.windowSize state.smState < next then
    { state with
      profileStatusWindow :=
        List.replicate ((config.windowSize state.smState).toNat - 1) pNotAvailable ++
          state.profileStatusWindow.drop ((config.windowSize state.smState).toNat - 1) }
  else state

def toInvalid : SMCheckState :=
  (if config.clearToInvalid then cleared config state
    else clearedRemaining config config.windowSizeInvalid state).enter .invalid

variable (ps : uint8) (st : SMCheckState) (next : uint8) (s : SMState)

@[simp] theorem recorded_smState : (recorded config ps st).smState = st.smState := rfl

@[simp] theorem recorded_window : (recorded config ps st).profileStatusWindow = st.stored ps := rfl

@[simp] theorem recorded_topIndex :
    (recorded config ps st).windowTopIndex =
      nextTopIndex (config.windowSize st.smState) st.windowTopIndex := rfl

@[simp] theorem cleared_smState : (cleared config st).smState = st.smState := rfl

@[simp] theorem cleared_topIndex : (cleared config st).windowTopIndex = 0 := rfl

@[simp] theorem clearedRemaining_smState (st : SMCheckState) :
    (clearedRemaining config next st).smState = st.smState := by
  unfold clearedRemaining; split_ifs <;> rfl

@[simp] theorem clearedRemaining_topIndex (st : SMCheckState) :
    (clearedRemaining config next st).windowTopIndex = st.windowTopIndex := by
  unfold clearedRemaining; split_ifs <;> rfl

@[simp] theorem toInvalid_smState : (toInvalid config st).smState = .invalid := rfl

@[simp] theorem stored_length (ps : uint8) :
    (st.stored ps).length = st.profileStatusWindow.length := by
  simp [SMCheckState.stored]

@[simp] theorem enter_smState : (st.enter s).smState = s := rfl

@[simp] theorem enter_window : (st.enter s).profileStatusWindow = st.profileStatusWindow := rfl

@[simp] theorem enter_topIndex : (st.enter s).windowTopIndex = st.windowTopIndex := rfl

/-- The array holds `WindowSizeValid` cells and the next write lies in it. -/
structure InArray (st : SMCheckState) : Prop where
  length_eq : st.profileStatusWindow.length = config.windowSizeValid.toNat
  top_lt : st.windowTopIndex.toNat < config.windowSizeValid.toNat

variable {config} (hc : config.Admissible) {st : SMCheckState}
include hc

theorem size_le_length (hlen : st.profileStatusWindow.length = config.windowSizeValid.toNat)
    (s : SMState) : (config.windowSize s).toNat ≤ st.profileStatusWindow.length := by
  rw [hlen]
  exact hc.size_le s

theorem smAddStatus_eq (h : InArray config st) (ps : uint8) :
    smAddStatus ps config st = some (recorded config ps st) := by
  have htop : st.windowTopIndex.toNat < st.profileStatusWindow.length := by
    rw [h.length_eq]; exact h.top_lt
  have hsize : (config.windowSize st.smState).toNat ≤
      (st.profileStatusWindow.set st.windowTopIndex.toNat ps).length := by
    simpa using size_le_length hc h.length_eq st.smState
  simp [smAddStatus, Cells.write_eq htop, Cells.countUpTo_eq _ hsize, recorded, countedCells,
    SMCheckState.stored]

section

variable (hlen : st.profileStatusWindow.length = config.windowSizeValid.toNat)

include hlen

theorem smClearStatus_eq : smClearStatus st config = some (cleared config st) := by
  simp [smClearStatus, Cells.fill_eq _ (size_le_length hc hlen st.smState), cleared]

theorem smCheckInit_eq : smCheckInit st config = some ((cleared config st).enter .nodata) := by
  simp [smCheckInit, Cells.fill_eq _ (size_le_length hc hlen st.smState), cleared,
    SMCheckState.enter]

theorem smClearRemainingStatus_eq {next : SMState} (hnext : next = .valid ∨ next = .invalid) :
    smClearRemainingStatus st config next =
      some (clearedRemaining config (config.windowSize next) st) := by
  have hpos : config.windowSize st.smState ≠ 0 := by
    have := hc.size_pos st.smState
    intro h
    simp [h] at this
  have hfill : (config.windowSize st.smState).toNat - 1 ≤ st.profileStatusWindow.length := by
    have := size_le_length hc hlen st.smState
    omega
  unfold clearedRemaining
  rcases hnext with rfl | rfl <;>
    simp only [smClearRemainingStatus, Cells.fill_eq _ hfill, windowSize_valid, windowSize_invalid,
      map_some] <;>
    split <;> simp_all only [↓reduceIte]

theorem smToInvalid_eq : smToInvalid st config = some (toInvalid config st) := by
  unfold smToInvalid toInvalid
  rw [smClearStatus_eq hc hlen, smClearRemainingStatus_eq hc hlen (inr rfl), windowSize_invalid]
  split_ifs <;> rfl

omit hc in
theorem recorded_length (ps : uint8) :
    (recorded config ps st).profileStatusWindow.length = config.windowSizeValid.toNat := by
  simpa using hlen

theorem cleared_length :
    (cleared config st).profileStatusWindow.length = config.windowSizeValid.toNat := by
  have hle := hc.size_le st.smState
  simp only [cleared, length_append, length_replicate, length_drop]
  omega

theorem clearedRemaining_length (next : uint8) :
    (clearedRemaining config next st).profileStatusWindow.length =
      config.windowSizeValid.toNat := by
  have hle := hc.size_le st.smState
  unfold clearedRemaining
  split_ifs
  · simp only [length_append, length_replicate, length_drop]
    omega
  · exact hlen

theorem toInvalid_length :
    (toInvalid config st).profileStatusWindow.length = config.windowSizeValid.toNat := by
  unfold toInvalid
  split_ifs
  · exact cleared_length hc hlen
  · exact clearedRemaining_length hc hlen _

end

omit hc in
theorem clearedRemaining_of_le {next : uint8}
    (h : next.toNat ≤ (config.windowSize st.smState).toNat) :
    clearedRemaining config next st = st := by
  unfold clearedRemaining
  rw [if_neg]
  bv_omega

omit hc in
theorem smAddStatus_inArray {st' : SMCheckState} {ps : uint8}
    (hlen : st.profileStatusWindow.length = config.windowSizeValid.toNat)
    (h : smAddStatus ps config st = some st') : InArray config st := by
  refine ⟨hlen, ?_⟩
  by_contra htop
  rw [smAddStatus, Cells.write_eq_none (by omega)] at h
  simp at h

def SMConfig.Adds (config : SMConfig) : SMState → Prop
  | .init | .valid | .invalid => True
  | .nodata => config.transitToInvalidExtended = true
  | _ => False

open SMConfig (Adds)

/-- The tests on the counts that lead to `VALID`. -/
def EntersValid (config : SMConfig) (ps : uint8) (st : SMCheckState) : Prop :=
  let after := recorded config ps st
  ps ≤ 0x05#8 ∧
    (st.smState = .init ∧ after.errorCount ≤ config.maxErrorStateInit ∧
        config.minOkStateInit ≤ after.okCount ∨
      st.smState = .invalid ∧ after.errorCount ≤ config.maxErrorStateInvalid ∧
        config.minOkStateInvalid ≤ after.okCount)

/-- The tests on the counts that lead from `INIT` or `VALID` to `INVALID`. -/
def LeavesForInvalid (config : SMConfig) (ps : uint8) (st : SMCheckState) : Prop :=
  let after := recorded config ps st
  ps ≤ 0x05#8 ∧
    (st.smState = .init ∧
        ¬ (after.errorCount ≤ config.maxErrorStateInit ∧ config.minOkStateInit ≤ after.okCount) ∧
        (config.maxErrorStateInit < after.errorCount ∨
          config.transitToInvalidExtended = true ∧ tooFewOkLeft config after = true) ∨
      st.smState = .valid ∧
        ¬ (after.errorCount ≤ config.maxErrorStateValid ∧ config.minOkStateValid ≤ after.okCount))

/-- The successors of a state under one call. -/
inductive Transition (config : SMConfig) (ps : uint8) (st : SMCheckState) : SMCheckState → Prop
  | unchanged : 0x05#8 < ps ∨ ¬ config.Adds st.smState → Transition config ps st st
  | start : st.smState = .nodata → ¬ config.Adds .nodata → Transition config ps st (st.enter .init)
  | record : config.Adds st.smState → ¬ EntersValid config ps st →
      ¬ LeavesForInvalid config ps st → Transition config ps st (recorded config ps st)
  | restart : st.smState = .nodata → config.Adds .nodata →
      Transition config ps st ((cleared config (recorded config ps st)).enter .init)
  | widen : EntersValid config ps st →
      Transition config ps st
        ((clearedRemaining config config.windowSizeValid (recorded config ps st)).enter .valid)
  | giveUp : st.smState = .nodata → config.Adds .nodata →
      Transition config ps st (toInvalid config (recorded config ps st))
  | leave : LeavesForInvalid config ps st →
      Transition config ps st (toInvalid config (recorded config ps st))
  | clear : st.smState = .invalid → ¬ EntersValid config ps st →
      Transition config ps st (cleared config (recorded config ps st))

open Transition (record)

section

variable {ps : uint8} {st' : SMCheckState} {r : ReturnType}
  (hlen : st.profileStatusWindow.length = config.windowSizeValid.toNat)
include hlen

theorem bind_smAddStatus {α : Type} {f : SMCheckState → Option α} {a : α}
    (h : (smAddStatus ps config st).bind f = some a) : f (recorded config ps st) = some a := by
  obtain ⟨st₁, hadd, hf⟩ := bind_eq_some_iff.mp h
  have harr := smAddStatus_inArray hlen hadd
  rw [smAddStatus_eq hc harr ps] at hadd
  cases hadd
  exact hf

theorem smCheckValid_transition (hps : ps ≤ 0x05#8) (hs : st.smState = .valid)
    (h : (smCheckValid ps config st).map (fun state => (ReturnType.ok, state)) = some (r, st')) :
    Transition config ps st st' := by
  obtain ⟨st₁, h, he⟩ := map_eq_some_iff.mp h
  cases he
  have hrec := bind_smAddStatus hc hlen h
  have hkeep : clearedRemaining config config.windowSizeInvalid (recorded config ps st) =
      recorded config ps st := by
    apply clearedRemaining_of_le
    simpa [hs] using hc.invalid_le
  by_cases htest : (recorded config ps st).errorCount ≤ config.maxErrorStateValid ∧
      config.minOkStateValid ≤ (recorded config ps st).okCount
  · rw [if_pos htest] at hrec
    cases hrec
    apply record <;> simp [Adds, EntersValid, LeavesForInvalid, hs, htest]
  · rw [if_neg htest, smClearStatus_eq hc (by simpa using hlen)] at hrec
    have hleave : LeavesForInvalid config ps st := ⟨hps, inr ⟨hs, htest⟩⟩
    have heq : toInvalid config (recorded config ps st) = st' := by
      unfold toInvalid
      rw [hkeep]
      split_ifs at hrec ⊢ <;> exact some.inj hrec
    exact heq ▸ .leave hleave

theorem smCheckBeforeR2011_transition (hps : ps ≤ 0x05#8)
    (hext : config.transitToInvalidExtended = false)
    (h : smCheckBeforeR2011 ps config st = some (r, st')) : Transition config ps st st' := by
  have hlen' := recorded_length hlen ps
  unfold smCheckBeforeR2011 at h
  cases hs : st.smState <;> simp only [hs] at h
  case valid => exact smCheckValid_transition hc hlen hps hs h
  case deinit | other =>
    cases h
    exact .unchanged (inr (by simp [hs, Adds]))
  case nodata =>
    have hadds : ¬ config.Adds .nodata := by simp [Adds, hext]
    split_ifs at h
    · cases h
      exact .start hs hadds
    · cases h
      exact .unchanged (inr (hs ▸ hadds))
  case init =>
    have hrec := bind_smAddStatus hc hlen h
    rw [smClearRemainingStatus_eq hc hlen' (inl rfl), smToInvalid_eq hc hlen'] at hrec
    split_ifs at hrec with hvalid herr <;> cases hrec
    · exact .widen ⟨hps, inl ⟨hs, hvalid⟩⟩
    · exact .leave ⟨hps, inl ⟨hs, hvalid, inl herr⟩⟩
    · apply record <;> simp [Adds, EntersValid, LeavesForInvalid, hs, hvalid, herr, hext]
  case invalid =>
    have hrec := bind_smAddStatus hc hlen h
    rw [smClearRemainingStatus_eq hc hlen' (inl rfl)] at hrec
    split_ifs at hrec with hvalid <;> cases hrec
    · exact .widen ⟨hps, inr ⟨hs, hvalid⟩⟩
    · apply record <;> simp [Adds, EntersValid, LeavesForInvalid, hs, hvalid]

theorem smCheckR2011_transition (hps : ps ≤ 0x05#8)
    (hext : config.transitToInvalidExtended = true)
    (h : smCheckR2011 ps config st = some (r, st')) : Transition config ps st st' := by
  have hlen' := recorded_length hlen ps
  unfold smCheckR2011 at h
  cases hs : st.smState <;> simp only [hs] at h
  case valid => exact smCheckValid_transition hc hlen hps hs h
  case deinit | other =>
    cases h
    exact .unchanged (inr (by simp [hs, Adds]))
  case nodata =>
    have hadds : config.Adds .nodata := hext
    have hrec := bind_smAddStatus hc hlen h
    rw [smToInvalid_eq hc hlen', smClearStatus_eq hc hlen'] at hrec
    split_ifs at hrec <;> cases hrec
    · exact .giveUp hs hadds
    · exact .restart hs hadds
    · apply record (hs ▸ hadds) <;> simp [EntersValid, LeavesForInvalid, hs]
  case init =>
    have hrec := bind_smAddStatus hc hlen h
    rw [smClearRemainingStatus_eq hc hlen' (inl rfl), smToInvalid_eq hc hlen'] at hrec
    split_ifs at hrec with hvalid herr hzero hfew <;> cases hrec
    · exact .widen ⟨hps, inl ⟨hs, hvalid⟩⟩
    · exact .leave ⟨hps, inl ⟨hs, hvalid, inl herr⟩⟩
    · exact .leave ⟨hps, inl ⟨hs, hvalid, inr ⟨hext, hfew⟩⟩⟩
    · apply record <;> simp [Adds, EntersValid, LeavesForInvalid, hs, hvalid, herr, hfew]
  case invalid =>
    have hrec := bind_smAddStatus hc hlen h
    rw [smClearRemainingStatus_eq hc hlen' (inl rfl), smClearStatus_eq hc hlen'] at hrec
    split_ifs at hrec with hvalid herr <;> cases hrec
    · exact .widen ⟨hps, inr ⟨hs, hvalid⟩⟩
    · exact .clear hs (by simp [EntersValid, hs, hvalid])
    · apply record <;> simp [Adds, EntersValid, LeavesForInvalid, hs, hvalid]

theorem smStep_transition (h : smStep config st ps = some st') : Transition config ps st st' := by
  obtain ⟨⟨r, st₁⟩, hcheck, rfl⟩ := map_eq_some_iff.mp h
  unfold smCheck at hcheck
  split_ifs at hcheck with hps hext
  · cases hcheck
    exact .unchanged (inl hps)
  · exact smCheckR2011_transition hc hlen (BitVec.not_lt.mp hps) hext hcheck
  · exact smCheckBeforeR2011_transition hc hlen (BitVec.not_lt.mp hps) (by simpa using hext) hcheck

end

variable (h : InArray config st) (ps : uint8)

include h

theorem smCheckValid_isSome : (smCheckValid ps config st).isSome := by
  have hlen := recorded_length h.length_eq ps
  rw [smCheckValid, smAddStatus_eq hc h]
  simp only [bind_eq_bind, bind_some, smClearStatus_eq hc hlen]
  split_ifs <;> rfl

theorem smCheckBeforeR2011_isSome : (smCheckBeforeR2011 ps config st).isSome := by
  have hlen := recorded_length h.length_eq ps
  unfold smCheckBeforeR2011
  rw [smAddStatus_eq hc h]
  simp only [bind_eq_bind, bind_some, smToInvalid_eq hc hlen,
    smClearRemainingStatus_eq hc hlen (inl rfl)]
  split
  case h_4 => simpa using smCheckValid_isSome hc h ps
  all_goals (try split_ifs) <;> rfl

theorem smCheckR2011_isSome : (smCheckR2011 ps config st).isSome := by
  have hlen := recorded_length h.length_eq ps
  have hpos : config.windowSizeInit ≠ 0 := by
    intro hzero
    have := hc.init_pos
    simp [hzero] at this
  unfold smCheckR2011
  rw [smAddStatus_eq hc h]
  simp only [bind_eq_bind, bind_some, smToInvalid_eq hc hlen,
    smClearRemainingStatus_eq hc hlen (inl rfl), smClearStatus_eq hc hlen]
  split
  case h_4 => simpa using smCheckValid_isSome hc h ps
  all_goals (try split_ifs) <;> rfl

theorem exists_smStep : ∃ st', smStep config st ps = some st' := by
  apply isSome_iff_exists.mp
  unfold smStep smCheck
  rw [isSome_map]
  split_ifs
  · rfl
  · exact smCheckR2011_isSome hc h ps
  · exact smCheckBeforeR2011_isSome hc h ps

end AdaptivePlatform.E2E
