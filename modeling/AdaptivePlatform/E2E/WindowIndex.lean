import AdaptivePlatform.E2E.StateMachineSteps

/-!
# The position of the next write in the status window

`E2E_SMAddStatus` wraps `WindowTopIndex` by an equality test, and the move into
`INVALID` without `ClearToInvalid` keeps the index while the window may become
smaller. A run keeps the index inside the window of the current state exactly
when each such move happens with a successor index that lies in the `INVALID`
window.
-/
namespace AdaptivePlatform.E2E

open Runs

variable {config : SMConfig} {st st' : SMCheckState} {ps : uint8} {size top : uint8}

def TopInWindow (config : SMConfig) (st : SMCheckState) : Prop :=
  st.windowTopIndex.toNat < (config.windowSize st.smState).toNat

/-- The condition on a call: where it leaves `INIT` or `VALID` for `INVALID` and
the window is not cleared, either the index wraps in the old window or the next
index lies in the `INVALID` window. -/
def KeepsTop (config : SMConfig) (st : SMCheckState) (ps : uint8) : Prop :=
  LeavesForInvalid config ps st → config.clearToInvalid = false →
    st.windowTopIndex.toNat + 1 = (config.windowSize st.smState).toNat ∨
      st.windowTopIndex.toNat + 1 < config.windowSizeInvalid.toNat

instance (config : SMConfig) (st : SMCheckState) : Decidable (TopInWindow config st) :=
  inferInstanceAs (Decidable (_ < _))

/-- What every call keeps besides the index: the array, and index zero while
`NODATA` records nothing. -/
structure WindowShape (config : SMConfig) (st : SMCheckState) : Prop where
  length_eq : st.profileStatusWindow.length = config.windowSizeValid.toNat
  unused : st.smState = .nodata → ¬ config.Adds .nodata → st.windowTopIndex = 0

theorem nextTopIndex_toNat (h : top.toNat < size.toNat) :
    (nextTopIndex size top).toNat =
      if top.toNat + 1 = size.toNat then 0 else top.toNat + 1 := by
  unfold nextTopIndex
  split_ifs
  · rfl
  · bv_omega

theorem nextTopIndex_lt (h : top.toNat < size.toNat) :
    (nextTopIndex size top).toNat < size.toNat := by
  rw [nextTopIndex_toNat h]
  split_ifs <;> omega

theorem nextTopIndex_lt_iff {bound : uint8} (h : top.toNat < size.toNat) (hpos : 0 < bound.toNat) :
    (nextTopIndex size top).toNat < bound.toNat ↔
      top.toNat + 1 = size.toNat ∨ top.toNat + 1 < bound.toNat := by
  rw [nextTopIndex_toNat h]
  split_ifs <;> omega

theorem toInvalid_topInWindow (hc : config.Admissible) (h : TopInWindow config st) :
    TopInWindow config (toInvalid config (recorded config ps st)) ↔
      (config.clearToInvalid = false →
        st.windowTopIndex.toNat + 1 = (config.windowSize st.smState).toNat ∨
          st.windowTopIndex.toNat + 1 < config.windowSizeInvalid.toNat) := by
  unfold TopInWindow toInvalid
  by_cases hclear : config.clearToInvalid = true
  · simpa [hclear] using hc.invalid_pos
  · simpa [hclear] using nextTopIndex_lt_iff h hc.invalid_pos

theorem WindowShape.step (hc : config.Admissible) (h : WindowShape config st)
    (hstep : smStep config st ps = some st') : WindowShape config st' := by
  have hlen := h.length_eq
  have hrec : (recorded config ps st).profileStatusWindow.length =
      config.windowSizeValid.toNat := by simpa using hlen
  cases smStep_transition hc hlen hstep with
  | unchanged => exact h
  | start => exact ⟨hlen, by simp⟩
  | record hadds =>
    refine ⟨hrec, fun hs hn => ?_⟩
    exact absurd (hs ▸ hadds) hn
  | restart | clear hs => exact ⟨cleared_length hc hrec, by simp⟩
  | widen => exact ⟨clearedRemaining_length hc hrec _, by simp⟩
  | giveUp | leave => exact ⟨toInvalid_length hc hrec, by simp⟩

section

variable (hc : config.Admissible) (hw : WindowShape config st) (h : TopInWindow config st)

include hc hw h

theorem TopInWindow.inArray : InArray config st :=
  ⟨hw.length_eq, h.trans_le (hc.size_le st.smState)⟩

theorem topInWindow_step_iff :
    (∃ st', smStep config st ps = some st' ∧ TopInWindow config st') ↔ KeepsTop config st ps := by
  obtain ⟨st', hstep⟩ := exists_smStep hc (h.inArray hc hw) ps
  have hone : (∃ st₁, smStep config st ps = some st₁ ∧ TopInWindow config st₁) ↔
      TopInWindow config st' := by simp [hstep]
  have hnext := nextTopIndex_lt h
  rw [hone]
  cases smStep_transition hc hw.length_eq hstep with
  | unchanged hno =>
    refine iff_of_true h fun hleave _ => ?_
    obtain ⟨hps, ⟨hs, -⟩ | ⟨hs, -⟩⟩ := hleave <;>
      simp [hs, SMConfig.Adds, BitVec.not_lt.mpr hps] at hno
  | start hs hadds =>
    refine iff_of_true ?_ (by simp [KeepsTop, LeavesForInvalid, hs])
    simpa [TopInWindow, hw.unused hs hadds] using hc.init_pos
  | record _ _ hstay => exact iff_of_true hnext fun hleave => absurd hleave hstay
  | restart hs =>
    refine iff_of_true ?_ (by simp [KeepsTop, LeavesForInvalid, hs])
    simpa [TopInWindow] using hc.init_pos
  | widen hvalid =>
    refine iff_of_true ?_ fun hleave _ => ?_
    · simpa [TopInWindow] using hnext.trans_le (hc.size_le st.smState)
    · obtain ⟨-, ⟨hs, hcount⟩ | ⟨hs, -⟩⟩ := hvalid
      · simp [LeavesForInvalid, hs, hcount] at hleave
      · simp [LeavesForInvalid, hs] at hleave
  | giveUp hs =>
    refine iff_of_true ?_ (by simp [KeepsTop, LeavesForInvalid, hs])
    rw [toInvalid_topInWindow hc h]
    intro
    have hsize : config.windowSize st.smState = config.windowSizeInvalid := by simp [hs]
    rw [TopInWindow, hsize] at h
    rw [hsize]
    omega
  | leave hleave =>
    rw [toInvalid_topInWindow hc h]
    exact ⟨fun hk _ => hk, fun hk => hk hleave⟩
  | clear hs =>
    refine iff_of_true ?_ (by simp [KeepsTop, LeavesForInvalid, hs])
    simpa [TopInWindow, hs] using hc.invalid_pos

theorem topInWindow_run_iff (statuses : List uint8) :
    Always (smStep config) (TopInWindow config) st statuses ↔
      Along (smStep config) (KeepsTop config) st statuses := by
  apply always_iff_along (J := WindowShape config)
  · intro s i s' hs _ hstep
    exact hs.step hc hstep
  · intro s i hs hq
    exact topInWindow_step_iff hc hs hq
  · exact hw
  · exact h

end

section

variable (hc : config.Admissible) {prior : SMCheckState}
  (hlen : prior.profileStatusWindow.length = config.windowSizeValid.toNat)
include hc

include hlen in
theorem windowShape_initialised : WindowShape config ((cleared config prior).enter .nodata) :=
  ⟨cleared_length hc hlen, fun _ _ => rfl⟩

theorem topInWindow_initialised : TopInWindow config ((cleared config prior).enter .nodata) := by
  simpa [TopInWindow] using hc.invalid_pos

include hlen

/-- After `E2E_SMCheckInit` a run of calls finds the index inside the window of
the current state, and so inside the array, exactly when all calls meet
`KeepsTop`. -/
theorem smCheck_top_inside_iff :
    ∃ st, smCheckInit prior config = some st ∧ ∀ statuses,
      Always (smStep config) (TopInWindow config) st statuses ↔
        Along (smStep config) (KeepsTop config) st statuses := by
  refine ⟨_, smCheckInit_eq hc hlen, fun statuses => ?_⟩
  exact topInWindow_run_iff hc (windowShape_initialised hc hlen) (topInWindow_initialised hc)
    statuses

end

def narrowing (extended : Bool) : SMConfig where
  windowSizeValid := 3
  minOkStateInit := 1
  maxErrorStateInit := 0
  minOkStateValid := 1
  maxErrorStateValid := 0
  minOkStateInvalid := 2
  maxErrorStateInvalid := 0
  windowSizeInit := 2
  windowSizeInvalid := 2
  clearToInvalid := false
  transitToInvalidExtended := extended

theorem narrowing_admissible (extended : Bool) : (narrowing extended).Admissible := by
  cases extended <;> constructor <;> decide

def threeCells : SMCheckState where
  profileStatusWindow := [pNotAvailable, pNotAvailable, pNotAvailable]
  windowTopIndex := 0
  okCount := 0
  errorCount := 0
  smState := .deinit

/-- In both variants the third call leaves index 2 in a window of two cells, and
the fifth call writes behind the array. -/
theorem narrowing_leaves_array :
    ((narrowing false).Admissible ∧ (narrowing true).Admissible) ∧
      (∃ st st₃, smCheckInit threeCells (narrowing false) = some st ∧
        exec (smStep (narrowing false)) st [pOk, pOk, pError] = some st₃ ∧
        ¬ TopInWindow (narrowing false) st₃ ∧
        exec (smStep (narrowing false)) st₃ [pRepeated, pRepeated] = none) ∧
      (∃ st st₃, smCheckInit threeCells (narrowing true) = some st ∧
        exec (smStep (narrowing true)) st [pOk, pOk, pError] = some st₃ ∧
        ¬ TopInWindow (narrowing true) st₃ ∧
        exec (smStep (narrowing true)) st₃ [pRepeated, pRepeated] = none) := by
  refine ⟨⟨narrowing_admissible false, narrowing_admissible true⟩, ?_, ?_⟩
  all_goals exact ⟨_, _, rfl, rfl, by decide, rfl⟩

theorem smCheck_top_inside_iff_narrowing :
    (narrowing true).Admissible ∧ ∃ st, smCheckInit threeCells (narrowing true) = some st ∧
      ∀ statuses, Always (smStep (narrowing true)) (TopInWindow (narrowing true)) st statuses ↔
        Along (smStep (narrowing true)) (KeepsTop (narrowing true)) st statuses :=
  ⟨narrowing_admissible true, smCheck_top_inside_iff (narrowing_admissible true) rfl⟩

end AdaptivePlatform.E2E
