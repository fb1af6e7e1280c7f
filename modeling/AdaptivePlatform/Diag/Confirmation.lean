import AdaptivePlatform.Diag.StatusHistory

/-!
# Confirmation of a trouble code

A trouble code is confirmed by failures in several operation cycles. The code
counts them in a trip counter that cycles, clears and the confirmation itself
reset. Here the number of failing cycles is read off the history instead, and
the two are compared.
-/
namespace AdaptivePlatform.Diag

open Runs
open Bool (false_ne_true)
open DTCStatusHandler (get_opCycleStoppedStatusChange opCycleStartedStatusChange setStatusWIR)

/-! ### What a history says -/

variable (n : ℕ) (history : List StatusInput) (input : StatusInput)

/-- The operation cycles since the last clear, each with what happened in it; both lists
begin with the latest. A refused clear is no clear. -/
def operationCycles : List (List StatusInput) :=
  (history.reverse.takeWhile (· ≠ .clear false)).splitOnP (· = .operationCycle .start)

def currentCycle : List StatusInput := (operationCycles history).headD []

variable (cycle : List StatusInput)

def failingCycle : Bool := .failed ∈ cycle

def passingCycle : Bool := .passed ∈ cycle ∧ .failed ∉ cycle

/-- The failing cycles before the current one and since the last passing cycle. -/
def failingCycles : ℕ :=
  ((operationCycles history).tail.takeWhile (!passingCycle ·)).countP failingCycle

/-- The input is the first failed result of the current cycle, and this is the `n`-th
failing cycle since the last clear and the last passing cycle. A code that is not
confirmed has no confirmation after its last clear. -/
def ConfirmsAt : Prop :=
  input = .failed ∧ failingCycle (currentCycle history) = false ∧ failingCycles history + 1 = n

instance (n : ℕ) (history : List StatusInput) (input : StatusInput) :
    Decidable (ConfirmsAt n history input) :=
  inferInstanceAs (Decidable (_ ∧ _))

@[simp] theorem failingCycle_nil : failingCycle [] = false := rfl

@[simp] theorem passingCycle_nil : passingCycle [] = false := rfl

@[simp] theorem failingCycle_cons :
    failingCycle (input :: cycle) = (decide (.failed = input) || failingCycle cycle) := by
  simp [failingCycle]

variable {input : StatusInput} (history : List StatusInput)

theorem failingCycle_of_passing {cycle : List StatusInput} (h : passingCycle cycle = true) :
    failingCycle cycle = false := by
  simpa [failingCycle] using (of_decide_eq_true h).2

theorem operationCycles_start :
    operationCycles (history ++ [.operationCycle .start]) = [] :: operationCycles history := by
  simp [operationCycles, List.splitOnP_cons_eq_if_modifyHead]

theorem operationCycles_clear : operationCycles (history ++ [.clear false]) = [[]] := by
  simp [operationCycles]

theorem operationCycles_eq :
    operationCycles history = currentCycle history :: (operationCycles history).tail := by
  unfold currentCycle
  cases h : operationCycles history with
  | nil => exact absurd h (List.splitOnP_ne_nil _ _)
  | cons cycle cycles => rfl

@[simp] theorem currentCycle_start : currentCycle (history ++ [.operationCycle .start]) = [] := by
  simp [currentCycle, operationCycles_start]

@[simp] theorem currentCycle_clear : currentCycle (history ++ [.clear false]) = [] := by
  simp [currentCycle, operationCycles_clear]

@[simp] theorem failingCycles_clear : failingCycles (history ++ [.clear false]) = 0 := by
  simp [failingCycles, operationCycles_clear]

theorem failingCycles_start : failingCycles (history ++ [.operationCycle .start]) =
    if passingCycle (currentCycle history) then 0
    else failingCycles history + (failingCycle (currentCycle history)).toNat := by
  unfold failingCycles
  rw [operationCycles_start, List.tail_cons, operationCycles_eq history]
  split_ifs with h
  · simp [h]
  · simp only [h, List.takeWhile_cons, Bool.not_false, ↓reduceIte, List.countP_cons]
    cases failingCycle (currentCycle history) <;> simp

section

variable (hstart : input ≠ .operationCycle .start) (hclear : input ≠ .clear false)

include hstart hclear

theorem operationCycles_other :
    operationCycles (history ++ [input]) =
      (input :: currentCycle history) :: (operationCycles history).tail := by
  have hcons : operationCycles (history ++ [input]) =
      (operationCycles history).modifyHead (input :: ·) := by
    simp [operationCycles, hclear, List.splitOnP_cons_eq_if_modifyHead, hstart]
  rw [hcons, operationCycles_eq history]
  rfl

theorem currentCycle_other :
    currentCycle (history ++ [input]) = input :: currentCycle history := by
  simp [currentCycle, operationCycles_other history hstart hclear]

theorem failingCycles_other :
    failingCycles (history ++ [input]) = failingCycles history := by
  simp [failingCycles, operationCycles_other history hstart hclear]

end

/-- The inputs that begin a cycle, or count in one. -/
def cycleMarks : List StatusInput := [.operationCycle .start, .clear false, .failed, .passed]

section

variable (hinput : input ∉ cycleMarks)

include hinput

theorem currentCycle_unmarked :
    currentCycle (history ++ [input]) = input :: currentCycle history := by
  apply currentCycle_other history <;>
  · rintro rfl
    exact hinput (by decide)

theorem failingCycles_unmarked : failingCycles (history ++ [input]) = failingCycles history := by
  apply failingCycles_other history <;>
  · rintro rfl
    exact hinput (by decide)

theorem failingCycle_unmarked : failingCycle (currentCycle (history ++ [input])) =
    failingCycle (currentCycle history) := by
  rw [currentCycle_unmarked history hinput, failingCycle_cons, decide_eq_false, Bool.false_or]
  rintro rfl
  exact hinput (by decide)

theorem passingCycle_unmarked : passingCycle (currentCycle (history ++ [input])) =
    passingCycle (currentCycle history) := by
  simp only [cycleMarks, List.mem_cons, List.not_mem_nil, or_false, not_or] at hinput
  rw [currentCycle_unmarked history (by simp [cycleMarks, hinput])]
  simp [passingCycle, Ne.symm hinput.2.2.1, Ne.symm hinput.2.2.2]

end

/-! ### The trip counter -/

namespace Dtc

variable (dtc : Dtc) (threshold : uint32) (hasIndicator recoverable : Bool)

/-- The counter after a failed result, before it is compared with the threshold. -/
def nextTrip : uint32 :=
  if dtc.status.get .testFailedThisOperationCycle then dtc.tripCounter else dtc.tripCounter + 1

theorem setStatus_failed_confirmed :
    (dtc.setStatus .failed threshold hasIndicator recoverable).status.get .confirmedDTC =
      (dtc.status.get .confirmedDTC || decide (threshold ≤ dtc.nextTrip)) := by
  cases hcycle : dtc.status.get .testFailedThisOperationCycle <;>
    simp [setStatus, DTCStatusHandler.setStatus, nextTrip] <;> split_ifs <;> simp_all

theorem setStatus_failed_cycle :
    (dtc.setStatus .failed threshold hasIndicator recoverable).status.get
      .testFailedThisOperationCycle = true := by
  simp [setStatus, DTCStatusHandler.setStatus]
  split_ifs <;> simp

theorem setStatus_failed_trip :
    (dtc.setStatus .failed threshold hasIndicator recoverable).tripCounter =
      if threshold ≤ dtc.nextTrip then 0 else dtc.nextTrip := by
  cases hcycle : dtc.status.get .testFailedThisOperationCycle <;> simp [setStatus, nextTrip, hcycle]

end Dtc

namespace EventStatuses

variable {cfg : EventConfig} {n : uint32} {s start : EventStatuses}

abbrev confirmed (s : EventStatuses) : Bool := s.dtc.status.get .confirmedDTC

/-- Results arrive within an operation cycle, and a clear is refused only where the code
is confirmed or no failing cycle is counted. -/
def Orderly (s : EventStatuses) : StatusInput → Prop
  | .failed => s.isOperationCycleStarted = true
  | .passed => s.isOperationCycleStarted = true
  | .clear true => s.confirmed = true ∨ s.dtc.tripCounter = 0
  | _ => True

/-- The trip counter of a code that is not confirmed counts the failing cycles of its
history. At the end of a passing cycle it is reset before the next cycle begins. -/
structure Counted (n : uint32) (history : List StatusInput) (s : EventStatuses) : Prop where
  failed : s.dtc.status.get .testFailedThisOperationCycle = failingCycle (currentCycle history)
  completed : s.dtc.status.get .testNotCompletedThisOperationCycle = false →
    failingCycle (currentCycle history) = false → passingCycle (currentCycle history) = true
  refused : s.dtc.status.get .testNotCompletedThisOperationCycle = true →
    passingCycle (currentCycle history) = true → s.dtc.tripCounter = 0
  trips : s.dtc.tripCounter.toNat =
    if passingCycle (currentCycle history) && !s.isOperationCycleStarted then 0
    else failingCycles history + (failingCycle (currentCycle history)).toNat
  below : s.dtc.tripCounter < n

section

variable {history : List StatusInput} (h : Counted n history s)

include h

theorem Counted.unmarked (hinput : input ∉ cycleMarks) : Counted n (history ++ [input]) s := by
  refine ⟨?_, ?_, ?_, ?_, h.below⟩ <;>
    simp only [failingCycle_unmarked history hinput, passingCycle_unmarked history hinput,
      failingCycles_unmarked history hinput]
  · exact h.failed
  · exact h.completed
  · exact h.refused
  · exact h.trips

theorem Counted.other {s' : EventStatuses} (hinput : input ∉ cycleMarks)
    (hcycle : s'.dtc.status.get .testFailedThisOperationCycle =
      s.dtc.status.get .testFailedThisOperationCycle)
    (hnot : s'.dtc.status.get .testNotCompletedThisOperationCycle =
      s.dtc.status.get .testNotCompletedThisOperationCycle)
    (htrip : s'.dtc.tripCounter = s.dtc.tripCounter)
    (hstarted : s'.isOperationCycleStarted = s.isOperationCycleStarted) :
    Counted n (history ++ [input]) s' := by
  apply Counted.unmarked _ hinput
  constructor
  · rw [hcycle, h.failed]
  · rw [hnot]
    exact h.completed
  · rw [hnot, htrip]
    exact h.refused
  · rw [htrip, hstarted]
    exact h.trips
  · rw [htrip]
    exact h.below

theorem Counted.threshold_pos : 0 < n := by
  have := h.below
  bv_omega

theorem Counted.trips_of_started (hstarted : s.isOperationCycleStarted = true) :
    s.dtc.tripCounter.toNat =
      failingCycles history + (failingCycle (currentCycle history)).toNat := by
  simpa [hstarted] using h.trips

theorem Counted.nextTrip_eq (hstarted : s.isOperationCycleStarted = true) :
    s.dtc.nextTrip.toNat = failingCycles history + 1 := by
  have htrips := h.trips_of_started hstarted
  have hbelow : s.dtc.tripCounter.toNat < n.toNat := h.below
  unfold Dtc.nextTrip
  rw [h.failed]
  cases hcycle : failingCycle (currentCycle history) with
  | true => simpa [hcycle] using htrips
  | false =>
    have hlt : s.dtc.tripCounter.toNat + 1 < 2 ^ 32 := by omega
    simp only [Bool.false_eq_true, ↓reduceIte]
    rw [BitVec.toNat_add_of_lt (by simpa using hlt), htrips, hcycle]
    rfl

/-- The counter is reset at the end of a cycle precisely if the cycle is passing. -/
theorem Counted.trip_stopped :
    s.dtc.opCycleStoppedStatusChange.tripCounter =
      if passingCycle (currentCycle history) then 0 else s.dtc.tripCounter := by
  have hfailed := h.failed
  cases hpassing : passingCycle (currentCycle history) with
  | true =>
    rw [failingCycle_of_passing hpassing] at hfailed
    cases hnot : s.dtc.status.get .testNotCompletedThisOperationCycle with
    | true => simp [Dtc.opCycleStoppedStatusChange, h.refused hnot hpassing]
    | false => simp [Dtc.opCycleStoppedStatusChange, hnot, hfailed]
  | false =>
    have hopen : ¬ (s.dtc.status.get .testFailedThisOperationCycle = false ∧
        s.dtc.status.get .testNotCompletedThisOperationCycle = false) := by
      rintro ⟨hcycle, hnot⟩
      have := h.completed hnot (hfailed.symm.trans hcycle)
      cases this.symm.trans hpassing
    simp only [Dtc.opCycleStoppedStatusChange, Bool.not_eq_true, hopen]
    simp

end

theorem confirmed_failed (cfg : EventConfig) (s : EventStatuses) :
    (s.react cfg .failed).confirmed =
      (s.confirmed || decide (cfg.confirmationThreshold ≤ s.dtc.nextTrip)) :=
  Dtc.setStatus_failed_confirmed _ _ _ _

section

variable {history : List StatusInput} (h : Counted cfg.confirmationThreshold history s)

include h

/-- A new cycle begins, after the end of the last one or as a restart. -/
theorem Counted.started :
    Counted cfg.confirmationThreshold (history ++ [.operationCycle .start])
      (s.react cfg (.operationCycle .start)) := by
  have htrip : (s.react cfg (.operationCycle .start)).dtc.tripCounter =
      if passingCycle (currentCycle history) then 0 else s.dtc.tripCounter := by
    simp only [react, reportOperationCycleStateTransition, Dtc.opCycleStartedStatusChange]
    cases hs : s.isOperationCycleStarted with
    | true => simpa using h.trip_stopped
    | false =>
      cases hpassing : passingCycle (currentCycle history) with
      | true =>
        have hzero : s.dtc.tripCounter.toNat = (0 : uint32).toNat := by
          simpa [hs, hpassing] using h.trips
        simpa using BitVec.eq_of_toNat_eq hzero
      | false => simp
  constructor
  · simp [react, reportOperationCycleStateTransition, Dtc.opCycleStartedStatusChange,
      opCycleStartedStatusChange]
  · simp [react, reportOperationCycleStateTransition, Dtc.opCycleStartedStatusChange,
      opCycleStartedStatusChange]
  · simp
  · rw [htrip, failingCycles_start, currentCycle_start]
    cases hpassing : passingCycle (currentCycle history) with
    | true => simp
    | false => simpa [hpassing] using h.trips
  · rw [htrip]
    split_ifs
    · exact h.threshold_pos
    · exact h.below

theorem Counted.stopped :
    Counted cfg.confirmationThreshold (history ++ [.operationCycle .stop])
      (s.react cfg (.operationCycle .stop)) := by
  cases hs : s.isOperationCycleStarted with
  | false =>
    have hsame : s.react cfg (.operationCycle .stop) = s := by
      simp [react, reportOperationCycleStateTransition, hs]
    rw [hsame]
    exact h.other (by decide) rfl rfl rfl rfl
  | true =>
    have hstop : s.react cfg (.operationCycle .stop) =
        { s with isOperationCycleStarted := false, dtc := s.dtc.opCycleStoppedStatusChange } := by
      simp [react, reportOperationCycleStateTransition, hs]
    have hbits : ∀ {b}, b ≠ DTCStatusBit.pendingDTC →
        s.dtc.opCycleStoppedStatusChange.status.get b = s.dtc.status.get b :=
      fun hb => get_opCycleStoppedStatusChange _ hb
    rw [hstop]
    refine Counted.unmarked ?_ (by decide)
    constructor
    · rw [hbits (by decide), h.failed]
    · rw [hbits (by decide)]
      exact h.completed
    · intro _ hp
      simpa [hp] using h.trip_stopped
    · rw [h.trip_stopped]
      cases hp : passingCycle (currentCycle history) with
      | true => simp
      | false => simpa using h.trips_of_started hs
    · rw [h.trip_stopped]
      split_ifs
      · exact h.threshold_pos
      · exact h.below

/-- A refused clear where nothing is counted. -/
theorem Counted.refusedClear (hzero : s.dtc.tripCounter = 0) :
    Counted cfg.confirmationThreshold (history ++ [.clear true]) (s.react cfg (.clear true)) := by
  have htrip : (s.react cfg (.clear true)).dtc.tripCounter = s.dtc.tripCounter := hzero.symm
  cases hb : cfg.clearEventAllowedBehavior with
  | noStatusByteChange =>
    have hstatus : (s.react cfg (.clear true)).dtc.status = s.dtc.status := by
      simp [react, clear, Dtc.clear, DTCStatusHandler.clearForbidden, hb]
    exact h.other (by decide) (by rw [hstatus]) (by rw [hstatus]) htrip rfl
  | onlyThisCycleAndReadiness =>
    refine Counted.unmarked ?_ (by decide)
    -- a failure of this cycle would be counted
    have hnone : failingCycle (currentCycle history) = false := by
      by_contra hfailing
      have htrips := h.trips
      have hp : passingCycle (currentCycle history) = false := by
        by_contra hp
        exact hfailing (failingCycle_of_passing (by simpa using hp))
      rw [hzero, hp, eq_true_of_ne_false hfailing] at htrips
      exact absurd htrips (Nat.succ_ne_zero _).symm
    constructor
    · simp [hnone, react, clear, Dtc.clear, DTCStatusHandler.clearForbidden, hb,
        DTCStatus.clearOnThisCycleAndReadiness]
    · simp [react, clear, Dtc.clear, DTCStatusHandler.clearForbidden, hb,
        DTCStatus.clearOnThisCycleAndReadiness]
    · exact fun _ _ => rfl
    · rw [htrip]
      exact h.trips
    · rw [htrip]
      exact h.below

variable (hstarted : s.isOperationCycleStarted = true)

include hstarted

/-- A failed result confirms at the `n`-th failing cycle. -/
theorem Counted.confirms_iff (hconfirmed : s.confirmed = false) :
    (s.react cfg .failed).confirmed = true ↔
      ConfirmsAt cfg.confirmationThreshold.toNat history .failed := by
  have hnext := h.nextTrip_eq hstarted
  have htrips := h.trips_of_started hstarted
  have hbelow : s.dtc.tripCounter.toNat < cfg.confirmationThreshold.toNat := h.below
  have hreached : (s.react cfg .failed).confirmed = true ↔
      cfg.confirmationThreshold.toNat ≤ failingCycles history + 1 := by
    rw [confirmed_failed, hconfirmed, Bool.false_or, decide_eq_true_iff, BitVec.le_def, hnext]
  rw [hreached]
  cases hcycle : failingCycle (currentCycle history) with
  | true =>
    have : s.dtc.tripCounter.toNat = failingCycles history + 1 := by simpa [hcycle] using htrips
    simp only [ConfirmsAt]
    omega
  | false =>
    simp only [ConfirmsAt, hcycle, true_and]
    omega

theorem Counted.failedResult (hconfirmed : (s.react cfg .failed).confirmed = false) :
    Counted cfg.confirmationThreshold (history ++ [.failed]) (s.react cfg .failed) := by
  have hcurrent : currentCycle (history ++ [.failed]) = .failed :: currentCycle history :=
    currentCycle_other history (by decide) (by decide)
  have hfailing : failingCycle (currentCycle (history ++ [.failed])) = true := by simp [hcurrent]
  have hpassing : passingCycle (currentCycle (history ++ [.failed])) = false := by
    simp [hcurrent, passingCycle]
  have hbelow : ¬ cfg.confirmationThreshold ≤ s.dtc.nextTrip := by
    rw [confirmed_failed, Bool.or_eq_false_iff, decide_eq_false_iff_not] at hconfirmed
    exact hconfirmed.2
  have htrip : (s.react cfg .failed).dtc.tripCounter = s.dtc.nextTrip := by
    simp [react, setDebouncedStatus, Dtc.setStatus_failed_trip, if_neg hbelow]
  constructor
  · rw [hfailing]
    exact Dtc.setStatus_failed_cycle _ _ _ _
  · rw [hfailing]
    exact fun _ hfalse => absurd hfalse.symm false_ne_true
  · rw [hpassing]
    exact fun _ hfalse => absurd hfalse false_ne_true
  · rw [htrip, hpassing, hfailing, h.nextTrip_eq hstarted,
      failingCycles_other history (by decide) (by decide)]
    simp
  · rw [htrip]
    exact BitVec.not_le.mp hbelow

theorem Counted.passedResult :
    Counted cfg.confirmationThreshold (history ++ [.passed]) (s.react cfg .passed) := by
  have hcurrent : currentCycle (history ++ [.passed]) = .passed :: currentCycle history :=
    currentCycle_other history (by decide) (by decide)
  have hfailing : failingCycle (currentCycle (history ++ [.passed])) =
      failingCycle (currentCycle history) := by
    simp [hcurrent]
  have hcycle : (s.react cfg .passed).dtc.status.get .testFailedThisOperationCycle =
      s.dtc.status.get .testFailedThisOperationCycle := by
    simp [react, setDebouncedStatus, Dtc.setStatus, DTCStatusHandler.setStatus]
    split_ifs <;> simp
  have hnot : (s.react cfg .passed).dtc.status.get .testNotCompletedThisOperationCycle = false := by
    simp [react, setDebouncedStatus, Dtc.setStatus, DTCStatusHandler.setStatus]
  have htrip : (s.react cfg .passed).dtc.tripCounter = s.dtc.tripCounter := by
    simp [react, setDebouncedStatus, Dtc.setStatus, BitVec.not_le.mpr h.below]
  constructor
  · rw [hcycle, hfailing, h.failed]
  · intro _ hfalse
    simpa [hcurrent, passingCycle, failingCycle] using hfalse
  · rw [hnot]
    exact fun hfalse => absurd hfalse false_ne_true
  · have hstarted' : (s.react cfg .passed).isOperationCycleStarted = true := hstarted
    rw [htrip, hfailing, hstarted', failingCycles_other history (by decide) (by decide)]
    simpa using h.trips_of_started hstarted
  · rw [htrip]
    exact h.below

end

theorem counted_clear (s : EventStatuses) (hthreshold : 0 < cfg.confirmationThreshold) :
    Counted cfg.confirmationThreshold (history ++ [.clear false]) (s.react cfg (.clear false)) := by
  constructor
  · simp [react, clear, Dtc.clear, DTCStatus.clear]
    split_ifs <;> simp
  · simp [react, clear, Dtc.clear, DTCStatus.clear]
    split_ifs <;> simp
  · simp
  · simp [react, clear, Dtc.clear]
  · exact hthreshold

theorem setLatchedWIRStatus_frame (s : EventStatuses) (state : Bool) :
    (∀ b ≠ DTCStatusBit.warningIndicatorRequested,
      (s.setLatchedWIRStatus state).dtc.status.get b = s.dtc.status.get b) ∧
    (s.setLatchedWIRStatus state).dtc.tripCounter = s.dtc.tripCounter ∧
    (s.setLatchedWIRStatus state).isOperationCycleStarted = s.isOperationCycleStarted := by
  unfold setLatchedWIRStatus
  split_ifs
  · exact ⟨fun _ _ => rfl, rfl, rfl⟩
  · refine ⟨?_, rfl, rfl⟩
    intro b hb
    cases state <;> simp [Dtc.setStatusWIR, setStatusWIR, hb.symm]

/-- Only failed results and permitted clears change the bit. -/
theorem confirmed_react (cfg : EventConfig) (s : EventStatuses) (hfailed : input ≠ .failed)
    (hclear : input ≠ .clear false) : (s.react cfg input).confirmed = s.confirmed := by
  cases input with
  | failed => exact absurd rfl hfailed
  | passed =>
    simp [react, confirmed, setDebouncedStatus, Dtc.setStatus, DTCStatusHandler.setStatus]
    split_ifs <;> simp
  | resetTestFailed =>
    simp [react, confirmed, resetTestFailed, Dtc.resetStatus, DTCStatusHandler.reset]
  | clear isForbidden =>
    cases isForbidden with
    | false => exact absurd rfl hclear
    | true =>
      cases hb : cfg.clearEventAllowedBehavior <;>
        simp [react, confirmed, clear, Dtc.clear, DTCStatusHandler.clearForbidden, hb,
          DTCStatus.clearOnThisCycleAndReadiness]
  | operationCycle newState =>
    have hstop : s.dtc.opCycleStoppedStatusChange.status.get .confirmedDTC = s.confirmed :=
      get_opCycleStoppedStatusChange _ (by decide)
    cases newState <;> cases hs : s.isOperationCycleStarted <;>
      simp [react, confirmed, reportOperationCycleStateTransition, hs,
        Dtc.opCycleStartedStatusChange, opCycleStartedStatusChange, hstop]
  | setLatchedWIRStatus state => exact (s.setLatchedWIRStatus_frame state).1 _ (by decide)

theorem confirmed_clear (cfg : EventConfig) (s : EventStatuses) :
    (s.react cfg (.clear false)).confirmed = false := by
  simp [react, confirmed, clear, Dtc.clear, DTCStatus.clear]
  split_ifs <;> simp

theorem counted_react {history : List StatusInput}
    (h : s.confirmed = false → Counted cfg.confirmationThreshold history s)
    (hthreshold : 0 < cfg.confirmationThreshold) (horderly : s.Orderly input)
    (hconfirmed : (s.react cfg input).confirmed = false) :
    Counted cfg.confirmationThreshold (history ++ [input]) (s.react cfg input) := by
  by_cases hclear : input = .clear false
  · subst hclear
    exact counted_clear history s hthreshold
  have hbefore : s.confirmed = false := by
    by_cases hfailed : input = .failed
    · subst hfailed
      rw [confirmed_failed, Bool.or_eq_false_iff] at hconfirmed
      exact hconfirmed.1
    · exact (confirmed_react cfg s hfailed hclear).symm.trans hconfirmed
  have h := h hbefore
  cases input with
  | failed => exact h.failedResult horderly hconfirmed
  | passed => exact h.passedResult horderly
  | resetTestFailed =>
    refine h.other (by decide) ?_ ?_ rfl rfl <;>
      simp [react, resetTestFailed, Dtc.resetStatus, DTCStatusHandler.reset]
  | clear isForbidden =>
    cases isForbidden with
    | false => exact absurd rfl hclear
    | true =>
      refine h.refusedClear (horderly.resolve_left ?_)
      exact fun htrue => false_ne_true (hbefore.symm.trans htrue)
  | operationCycle newState =>
    cases newState with
    | start => exact h.started
    | stop => exact h.stopped
  | setLatchedWIRStatus state =>
    obtain ⟨hbits, htrip, hstarted⟩ := s.setLatchedWIRStatus_frame state
    exact h.other (by simp [cycleMarks]) (hbits _ (by decide)) (hbits _ (by decide)) htrip hstarted

theorem counted_new (hthreshold : 0 < cfg.confirmationThreshold) (hnew : start.dtc = {}) :
    Counted cfg.confirmationThreshold [] start := by
  constructor <;> rw [hnew]
  · decide
  · decide
  · decide
  · simp [failingCycles, currentCycle, operationCycles]
  · exact hthreshold

/-- Along an orderly history the trip counter of an unconfirmed code is the number of
failing cycles. -/
theorem counted_exec {history : List StatusInput} (hthreshold : 0 < cfg.confirmationThreshold)
    (hnew : start.dtc = {}) (horderly : Along (step cfg) Orderly start history)
    (hexec : exec (step cfg) start history = some s) (hconfirmed : s.confirmed = false) :
    Counted cfg.confirmationThreshold history s := by
  have hstep : ∀ seen s input s', (s.confirmed = false →
        Counted cfg.confirmationThreshold seen s) → s.Orderly input →
      s.step cfg input = some s' → s'.confirmed = false →
      Counted cfg.confirmationThreshold (seen ++ [input]) s' := by
    intro seen s input s' h horderly hs hconfirmed
    cases hs
    exact counted_react h hthreshold horderly hconfirmed
  exact exec_history hstep (fun _ => counted_new hthreshold hnew) horderly hexec hconfirmed

/-- A code that is not confirmed becomes confirmed precisely at the first failed result of
the `n`-th failing operation cycle, and a confirmed one stays so until a permitted clear,
in every history whose results arrive within cycles and in which a clear is refused only
while the code is confirmed or no failing cycle is counted. -/
theorem confirmed_at_nth_failing_cycle (cfg : EventConfig)
    (hthreshold : 0 < cfg.confirmationThreshold) {start s : EventStatuses}
    (hnew : start.dtc = {}) (history : List StatusInput) (input : StatusInput)
    (horderly : Along (step cfg) Orderly start (history ++ [input]))
    (hexec : exec (step cfg) start history = some s) :
    (s.confirmed = false → ((s.react cfg input).confirmed = true ↔
      ConfirmsAt cfg.confirmationThreshold.toNat history input)) ∧
    (s.confirmed = true → ((s.react cfg input).confirmed = false ↔ input = .clear false)) := by
  obtain ⟨hhistory, hlast⟩ := horderly.of_append
  have hnow : s.Orderly input := (hlast s hexec).1
  constructor
  · intro hconfirmed
    by_cases hfailed : input = .failed
    · subst hfailed
      exact (counted_exec hthreshold hnew hhistory hexec hconfirmed).confirms_iff hnow hconfirmed
    · refine iff_of_false ?_ (fun h => hfailed h.1)
      by_cases hclear : input = .clear false
      · rw [hclear, confirmed_clear]
        exact false_ne_true
      · rw [confirmed_react cfg s hfailed hclear, hconfirmed]
        exact false_ne_true
  · intro hconfirmed
    by_cases hclear : input = .clear false
    · rw [hclear]
      exact iff_of_true (confirmed_clear cfg s) rfl
    · refine iff_of_false ?_ hclear
      by_cases hfailed : input = .failed
      · subst hfailed
        rw [confirmed_failed, hconfirmed, Bool.true_or]
        exact false_ne_true.symm
      · rw [confirmed_react cfg s hfailed hclear, hconfirmed]
        exact false_ne_true.symm

/-- Two failing cycles in a row, with threshold two. -/
theorem confirmed_at_second_failing_cycle :
    ∃ s, exec (step { confirmationThreshold := 2 }) {}
        [.operationCycle .start, .failed, .operationCycle .start] = some s ∧
      s.confirmed = false ∧ (s.react { confirmationThreshold := 2 } .failed).confirmed = true := by
  refine ⟨_, rfl, rfl, ?_⟩
  refine ((confirmed_at_nth_failing_cycle { confirmationThreshold := 2 } (by decide) rfl
    [.operationCycle .start, .failed, .operationCycle .start] .failed ?_ rfl).1 rfl).mpr
    (by decide)
  simp [Along, step, Orderly, react, reportOperationCycleStateTransition]

/-- A clear is refused between two failures of the first cycle. It changes no status bit
but resets the trip counter, and the failure that follows it is not counted in its cycle
again: after a failure in the second cycle the code is still not confirmed. -/
theorem refusedClear_delays_confirmation :
    ∃ s, exec (step { confirmationThreshold := 2 }) {}
        [.operationCycle .start, .failed, .clear true, .failed, .operationCycle .start] = some s ∧
      s.confirmed = false ∧
      ConfirmsAt 2 [.operationCycle .start, .failed, .clear true, .failed, .operationCycle .start]
        .failed ∧
      (s.react { confirmationThreshold := 2 } .failed).confirmed = false :=
  ⟨_, rfl, rfl, by decide, rfl⟩

end EventStatuses

end AdaptivePlatform.Diag
