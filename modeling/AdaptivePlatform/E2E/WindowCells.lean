import AdaptivePlatform.E2E.WindowIndex

/-!
# The contents of the status window

On the way into `VALID` the window grows. `E2E_SMClearRemainingStatus` then
overwrites the cells below the last one of the old window and leaves the newly
exposed cells as they are, so the recorded statuses survive exactly when the
former were blank, and the exposed cells are blank exactly when they were
before. `E2E_SMCheckInit` clears the window of the previous state only; what
lies behind it is counted as soon as a later window reaches it.
-/
namespace AdaptivePlatform.E2E

open Runs List Cells
open Or (inl inr)

variable {config : SMConfig} {st st' : SMCheckState} {ps : uint8}

section

variable (config : SMConfig) (st : SMCheckState) (ps : uint8) (st' : SMCheckState)

/-- Entering `VALID` with a larger window keeps the old cells and blanks the rest. -/
def WindowKept : Prop :=
  let size := (config.windowSize st.smState).toNat
  st.smState = .init ∨ st.smState = .invalid → st'.smState = .valid →
    size < config.windowSizeValid.toNat →
      (∀ i < size, st'.profileStatusWindow[i]? = (st.stored ps)[i]?) ∧
        ∀ i, size ≤ i → i < config.windowSizeValid.toNat →
          st'.profileStatusWindow[i]? = some pNotAvailable

def KeepsWindow : Prop := ∀ st', smStep config st ps = some st' → WindowKept config st ps st'

/-- The condition on a call that enters `VALID` with a larger window: all cells
except the last one of the old window are blank. -/
def BlankWhenWidened : Prop :=
  let size := (config.windowSize st.smState).toNat
  EntersValid config ps st → size < config.windowSizeValid.toNat →
    ∀ i < config.windowSizeValid.toNat, i + 1 ≠ size → (st.stored ps)[i]? = some pNotAvailable

/-- The counts are those of statuses reported since the initialisation. -/
def CountsReported (reports : List uint8) (st : SMCheckState) : Prop :=
  st.okCount.toNat ≤ reports.count pOk ∧ st.errorCount.toNat ≤ reports.count pError

/-- Behind the cells that `E2E_SMCheckInit` clears, the `INIT` and `INVALID`
windows hold neither `OK` nor `ERROR`. -/
def NoStaleCells (prior : SMCheckState) : Prop :=
  ∀ i, (config.windowSize prior.smState).toNat ≤ i →
    i < max config.windowSizeInit.toNat config.windowSizeInvalid.toNat →
      prior.profileStatusWindow[i]? ≠ some pOk ∧ prior.profileStatusWindow[i]? ≠ some pError

end

theorem EntersValid.smState (h : EntersValid config ps st) :
    st.smState = .init ∨ st.smState = .invalid := by
  obtain ⟨-, ⟨hs, -⟩ | ⟨hs, -⟩⟩ := h
  · exact inl hs
  · exact inr hs

theorem not_entersValid_of_leaves (h : LeavesForInvalid config ps st) :
    ¬ EntersValid config ps st := by
  rintro ⟨-, hvalid⟩
  obtain ⟨-, ⟨hs, hno, -⟩ | ⟨hs, -⟩⟩ := h
  · rcases hvalid with ⟨-, hyes⟩ | ⟨hs', -⟩
    · exact hno hyes
    · simp [hs] at hs'
  · simp [hs] at hvalid

theorem smStep_entersValid (hc : config.Admissible)
    (hlen : st.profileStatusWindow.length = config.windowSizeValid.toNat)
    (hstep : smStep config st ps = some st') :
    EntersValid config ps st ∧ st' =
        (clearedRemaining config config.windowSizeValid (recorded config ps st)).enter .valid ∨
      ¬ EntersValid config ps st ∧ (st'.smState = .valid → st.smState = .valid) := by
  cases smStep_transition hc hlen hstep with
  | unchanged hno =>
    refine inr ⟨fun hvalid => ?_, id⟩
    rcases hno with hps | hno
    · exact absurd hvalid.1 (BitVec.not_le.mpr hps)
    · rcases hvalid.smState with hs | hs <;> simp [hs, SMConfig.Adds] at hno
  | start hs | restart hs | giveUp hs => exact inr ⟨by simp [EntersValid, hs], by simp⟩
  | record _ hno => exact inr ⟨hno, id⟩
  | widen hvalid => exact inl ⟨hvalid, rfl⟩
  | leave hleave => exact inr ⟨not_entersValid_of_leaves hleave, by simp⟩
  | clear hs hno => exact inr ⟨hno, by simp⟩

theorem getElem?_widened
    (hsize : (config.windowSize st.smState).toNat < config.windowSizeValid.toNat) (i : ℕ) :
    (clearedRemaining config config.windowSizeValid (recorded config ps st)).profileStatusWindow[i]? =
      if i + 1 < (config.windowSize st.smState).toNat then some pNotAvailable
      else (st.stored ps)[i]? := by
  have hlt : config.windowSize (recorded config ps st).smState < config.windowSizeValid := by
    exact hsize
  rw [clearedRemaining, if_pos hlt]
  simp only [recorded_smState]
  rw [getElem?_append, length_replicate]
  by_cases hi : i + 1 < (config.windowSize st.smState).toNat
  · rw [if_pos (by omega), if_pos hi, getElem?_replicate, if_pos (by omega)]
  · rw [if_neg (by omega), if_neg hi, getElem?_drop]
    congr 1
    omega

theorem keepsWindow_iff (hc : config.Admissible)
    (hlen : st.profileStatusWindow.length = config.windowSizeValid.toNat)
    (hstep : smStep config st ps = some st') :
    KeepsWindow config st ps ↔ BlankWhenWidened config st ps := by
  have hone : KeepsWindow config st ps ↔ WindowKept config st ps st' := by simp [KeepsWindow, hstep]
  rw [hone]
  rcases smStep_entersValid hc hlen hstep with ⟨hvalid, rfl⟩ | ⟨hno, hback⟩
  · constructor
    · intro hkept _ hsize i hi hne
      obtain ⟨hold, hnew⟩ := hkept hvalid.smState rfl hsize
      simp only [enter_window, getElem?_widened hsize] at hold hnew
      by_cases hlt : i < (config.windowSize st.smState).toNat
      · have := hold i hlt
        rw [if_pos (by omega)] at this
        exact this.symm
      · have := hnew i (by omega) hi
        rwa [if_neg (by omega)] at this
    · intro hblank _ _ hsize
      simp only [enter_window, getElem?_widened hsize]
      constructor
      · intro i hi
        split_ifs with hlt
        · exact (hblank hvalid hsize i (by omega) (by omega)).symm
        · rfl
      · intro i hle hi
        rw [if_neg (by omega)]
        exact hblank hvalid hsize i hi (by omega)
  · refine iff_of_true (fun hs hs' => ?_) fun hvalid => absurd hvalid hno
    rcases hs with hs | hs <;> simp [hs] at hback <;> exact absurd hs' hback

/-- How far the windows of the states other than `VALID` reach. -/
def SMConfig.reach (config : SMConfig) (s : SMState) : ℕ :=
  if s = .valid then config.windowSizeValid.toNat
  else max config.windowSizeInit.toNat config.windowSizeInvalid.toNat

theorem SMConfig.Admissible.reach_le (hc : config.Admissible) {s : SMState} (hs : s ≠ .valid)
    (t : SMState) : config.reach s ≤ config.reach t := by
  have hinit := hc.init_le
  have hinvalid := hc.invalid_le
  unfold SMConfig.reach
  rw [if_neg hs]
  split_ifs <;> omega

theorem size_le_reach (config : SMConfig) (s : SMState) :
    (config.windowSize s).toNat ≤ config.reach s := by
  cases s <;> simp [SMConfig.reach, SMConfig.windowSize]

def Counted (v : uint8) : Prop := v = pOk ∨ v = pError

theorem Counted.ne {v : uint8} (h : Counted v) : pNotAvailable ≠ v := by
  rcases h with rfl | rfl <;> decide

/-- The counted values in reach and the counts come from the reports. -/
structure Reported (config : SMConfig) (reports : List uint8) (st : SMCheckState) : Prop where
  cells : ∀ v, Counted v →
    (st.profileStatusWindow.take (config.reach st.smState)).count v ≤ reports.count v
  counts : CountsReported reports st

section

variable {reports : List uint8} (h : Reported config reports st)
include h

theorem Reported.mono (ps : uint8) : Reported config (reports ++ [ps]) st := by
  refine ⟨fun v hv => ?_, ?_, ?_⟩
  · exact (h.cells v hv).trans (by simp)
  · exact h.counts.1.trans (by simp)
  · exact h.counts.2.trans (by simp)

theorem Reported.enter {s : SMState} (hs : config.reach s ≤ config.reach st.smState) :
    Reported config reports (st.enter s) :=
  ⟨fun v hv => (count_take_mono hs v).trans (h.cells v hv), h.counts⟩

theorem Reported.cleared : Reported config reports (cleared config st) :=
  ⟨fun v hv => (count_take_blank_le hv.ne).trans (h.cells v hv), Nat.zero_le _, Nat.zero_le _⟩

theorem Reported.clearedRemaining (next : uint8) :
    Reported config reports (clearedRemaining config next st) := by
  unfold E2E.clearedRemaining
  split_ifs
  · exact ⟨fun v hv => (count_take_blank_le hv.ne).trans (h.cells v hv), h.counts⟩
  · exact h

theorem Reported.toInvalid (hc : config.Admissible) :
    Reported config reports (toInvalid config st) := by
  unfold E2E.toInvalid
  split_ifs
  · exact h.cleared.enter (hc.reach_le (by simp) _)
  · exact (h.clearedRemaining _).enter (hc.reach_le (by simp) _)

theorem Reported.recorded (ps : uint8) :
    Reported config (reports ++ [ps]) (recorded config ps st) := by
  have hcells : ∀ v, Counted v →
      ((st.stored ps).take (config.reach st.smState)).count v ≤ (reports ++ [ps]).count v := by
    intro v hv
    rw [count_append]
    exact (count_take_set_le _ ps v).trans (Nat.add_le_add_right (h.cells v hv) _)
  have hcount : ∀ v, Counted v →
      (BitVec.ofNat 8 ((countedCells config st ps).count v)).toNat ≤ (reports ++ [ps]).count v := by
    intro v hv
    calc (countedCells config st ps).count v % 2 ^ 8
        ≤ (countedCells config st ps).count v := Nat.mod_le _ _
      _ ≤ ((st.stored ps).take (config.reach st.smState)).count v :=
        count_take_mono (size_le_reach config st.smState) v
      _ ≤ (reports ++ [ps]).count v := hcells v hv
  exact ⟨hcells, hcount pOk (inl rfl), hcount pError (inr rfl)⟩

theorem Reported.widen (hvalid : EntersValid config ps st)
    (hblank : BlankWhenWidened config st ps) :
    Reported config (reports ++ [ps])
      ((E2E.clearedRemaining config config.windowSizeValid (E2E.recorded config ps st)).enter
        .valid) := by
  have hrem := (h.recorded ps).clearedRemaining config.windowSizeValid
  by_cases hsize : (config.windowSize st.smState).toNat < config.windowSizeValid.toNat
  · refine ⟨fun v hv => le_trans ?_ (hrem.cells v hv), hrem.counts⟩
    apply count_take_le_of_blank hv.ne
    intro i hle hi
    have hi' : i < config.windowSizeValid.toNat := by simpa [SMConfig.reach] using hi
    have hold : (config.windowSize st.smState).toNat ≤ i := by
      have := size_le_reach config st.smState
      simp only [clearedRemaining_smState, recorded_smState] at hle
      omega
    rw [enter_window, getElem?_widened hsize, if_neg (by omega)]
    exact hblank hvalid hsize i hi' (by omega)
  · apply hrem.enter
    have hreach := size_le_reach config st.smState
    simp only [clearedRemaining_smState, recorded_smState]
    simp only [SMConfig.reach, ↓reduceIte] at hreach ⊢
    omega

theorem Reported.step (hc : config.Admissible)
    (hlen : st.profileStatusWindow.length = config.windowSizeValid.toNat)
    (hblank : BlankWhenWidened config st ps) (hstep : smStep config st ps = some st') :
    Reported config (reports ++ [ps]) st' := by
  cases smStep_transition hc hlen hstep with
  | unchanged => exact h.mono ps
  | start => exact (h.mono ps).enter (hc.reach_le (by simp) _)
  | record => exact h.recorded ps
  | restart => exact (h.recorded ps).cleared.enter (hc.reach_le (by simp) _)
  | widen hvalid => exact h.widen hvalid hblank
  | giveUp | leave => exact (h.recorded ps).toInvalid hc
  | clear => exact (h.recorded ps).cleared

end

theorem reported_initialised {prior : SMCheckState} (h : NoStaleCells config prior) :
    Reported config [] ((cleared config prior).enter .nodata) := by
  refine ⟨fun v hv => ?_, Nat.zero_le _, Nat.zero_le _⟩
  rw [count_nil, Nat.le_zero, count_eq_zero]
  intro hmem
  obtain ⟨i, hi⟩ := mem_iff_getElem?.mp hmem
  rw [getElem?_take] at hi
  split_ifs at hi with hreach
  simp only [enter_window, cleared, getElem?_append, length_replicate] at hi
  split_ifs at hi with hlt
  · rw [getElem?_replicate, if_pos hlt] at hi
    exact hv.ne (Option.some.inj hi)
  · rw [getElem?_drop, Nat.add_sub_cancel' (by omega)] at hi
    have hstale := h i (by omega) (by simpa [SMConfig.reach] using hreach)
    rcases hv with rfl | rfl
    · exact hstale.1 hi
    · exact hstale.2 hi

theorem countsReported_run (hc : config.Admissible) {reports statuses : List uint8}
    (hw : WindowShape config st) (h : Reported config reports st)
    (hblank : Along (smStep config) (BlankWhenWidened config) st statuses)
    (hexec : exec (smStep config) st statuses = some st') :
    CountsReported (reports ++ statuses) st' := by
  have hinv : ∀ seen s i s', WindowShape config s ∧ Reported config seen s →
      BlankWhenWidened config s i → smStep config s i = some s' →
      WindowShape config s' ∧ Reported config (seen ++ [i]) s' := by
    rintro seen s i s' ⟨hs, hr⟩ hb hstep
    exact ⟨hs.step hc hstep, hr.step hc hs.length_eq hb hstep⟩
  exact (exec_history hinv ⟨hw, h⟩ hblank hexec).2.counts

/-- Along a run after `E2E_SMCheckInit`, every growth of the window into `VALID`
keeps the recorded statuses and exposes blank cells exactly when every such call
meets `BlankWhenWidened`; and then, without stale values in reach at the
initialisation, the counts are those of reported statuses. -/
theorem smCheck_window_kept_iff (hc : config.Admissible) {prior : SMCheckState}
    (hlen : prior.profileStatusWindow.length = config.windowSizeValid.toNat) :
    ∃ st, smCheckInit prior config = some st ∧ ∀ statuses st',
      exec (smStep config) st statuses = some st' →
        (Along (smStep config) (KeepsWindow config) st statuses ↔
          Along (smStep config) (BlankWhenWidened config) st statuses) ∧
        (NoStaleCells config prior →
          Along (smStep config) (BlankWhenWidened config) st statuses →
            CountsReported statuses st') := by
  have hinit := windowShape_initialised hc hlen
  refine ⟨_, smCheckInit_eq hc hlen, fun statuses st' hexec => ⟨?_, fun hstale hblank => ?_⟩⟩
  · apply along_congr (J := WindowShape config) _ _ hinit hexec
    · intro s i s' hs hstep
      exact hs.step hc hstep
    · intro s i s' hs hstep
      exact keepsWindow_iff hc hs.length_eq hstep
  · simpa using countsReported_run hc hinit (reported_initialised hstale) hblank hexec

def staleCells : SMCheckState :=
  { threeCells with profileStatusWindow := [pNotAvailable, pNotAvailable, pError] }

/-- The second `OK` enters `VALID`: the recorded `OK` is lost, the old `ERROR` is
exposed, and the next call counts it although no `ERROR` was reported. -/
theorem narrowing_counts_stale :
    (narrowing false).Admissible ∧ ∃ st st₁ st₂ st₃,
      smCheckInit staleCells (narrowing false) = some st ∧
      exec (smStep (narrowing false)) st [pOk] = some st₁ ∧
      smStep (narrowing false) st₁ pOk = some st₂ ∧
      st₁.smState = .init ∧ st₂.smState = .valid ∧
      (st₁.stored pOk)[0]? = some pOk ∧ st₂.profileStatusWindow[0]? = some pNotAvailable ∧
      st₂.profileStatusWindow[2]? = some pError ∧
      ¬ WindowKept (narrowing false) st₁ pOk st₂ ∧
      smStep (narrowing false) st₂ pRepeated = some st₃ ∧
      ¬ CountsReported [pOk, pOk, pRepeated] st₃ := by
  refine ⟨narrowing_admissible false, _, _, _, _, rfl, rfl, rfl, rfl, rfl, rfl, rfl, rfl, ?_, rfl,
    ?_⟩
  · intro hkept
    have := (hkept (inl rfl) rfl (by decide)).1 0 (by decide)
    revert this
    decide
  · unfold CountsReported
    decide

theorem smCheck_window_kept_iff_narrowing :
    (narrowing true).Admissible ∧ ∃ st, smCheckInit threeCells (narrowing true) = some st ∧
      ∀ statuses st', exec (smStep (narrowing true)) st statuses = some st' →
        (Along (smStep (narrowing true)) (KeepsWindow (narrowing true)) st statuses ↔
          Along (smStep (narrowing true)) (BlankWhenWidened (narrowing true)) st statuses) ∧
        (NoStaleCells (narrowing true) threeCells →
          Along (smStep (narrowing true)) (BlankWhenWidened (narrowing true)) st statuses →
            CountsReported statuses st') :=
  ⟨narrowing_admissible true, smCheck_window_kept_iff (narrowing_admissible true) rfl⟩

end AdaptivePlatform.E2E
