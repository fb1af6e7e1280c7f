import AdaptivePlatform.Foundations.Runs
import AdaptivePlatform.Diag.Event

/-!
# Histories of results

What happens to the status of an event and of its trouble code: qualified results,
resets, clears and operation cycles. Every history of an event is one of these
(`Event.exec_statuses`). The event and the trouble code each have the bits
testFailed, testFailedThisOperationCycle and testNotCompletedThisOperationCycle,
kept by two handlers; the module determines the histories in which they agree.
-/
namespace AdaptivePlatform.Diag

open Runs List Option
open EventStatusHandler (setStatus reset clearForbidden opCycleStartedStatusChange)
open Prod (mk snd)

inductive StatusInput
  | failed
  | passed
  | resetTestFailed
  | clear (isForbidden : Bool)
  | operationCycle (newState : OperationCycleType)
  | setLatchedWIRStatus (state : Bool)
  deriving DecidableEq, Repr

namespace EventStatuses

variable (cfg : EventConfig)

def react (s : EventStatuses) : StatusInput → EventStatuses
  | .failed => s.setDebouncedStatus cfg .failed
  | .passed => s.setDebouncedStatus cfg .passed
  | .resetTestFailed => s.resetTestFailed
  | .clear isForbidden => s.clear cfg isForbidden
  | .operationCycle newState => s.reportOperationCycleStateTransition newState
  | .setLatchedWIRStatus state => s.setLatchedWIRStatus state

def step (s : EventStatuses) (input : StatusInput) : Option EventStatuses :=
  some (s.react cfg input)

end EventStatuses

/-! ### The histories of an event -/

theorem DebounceCounterBase.exists_qualified (params : CounterBased) (d : DebounceCounterBase) :
    ∃ fdc, (d.checkConditions params).2.toList = qualified fdc := by
  unfold checkConditions
  split_ifs
  · exact ⟨fdcMax, rfl⟩
  · exact ⟨fdcMin, rfl⟩
  · exact ⟨0, rfl⟩

variable (params : TimeBased) (now : uint64) (d : DebounceTimeBase)

theorem DebounceTimeBase.exists_qualified (action : MonitorAction) :
    ∃ fdc, (d.indicateReportedStatus params now action).2 = qualified fdc := by
  cases action with
  | failed => exact ⟨fdcMax, rfl⟩
  | passed => exact ⟨fdcMin, rfl⟩
  | _ => exact ⟨0, rfl⟩

theorem DebounceTimeBase.exists_qualified_timeout :
    ∃ fdc, (d.timeout params now).2 = qualified fdc := by
  unfold timeout
  dsimp only
  split
  · exact ⟨fdcMax, rfl⟩
  · exact ⟨fdcMin, rfl⟩
  · exact ⟨0, rfl⟩

theorem DebounceUserDefined.exists_qualified (d : DebounceUserDefined) (action : MonitorAction) :
    ∃ fdc, (d.indicateReportedStatus action).2 = qualified fdc := by
  unfold indicateReportedStatus
  split_ifs
  · exact ⟨0, rfl⟩
  · split
    · exact ⟨fdcMax, rfl⟩
    · exact ⟨fdcMin, rfl⟩
    · exact ⟨0, rfl⟩

namespace Debounce

variable (now : uint64)

/-- Whatever the debouncing, it qualifies a result as a fault detection counter at its limits
does. -/
theorem exists_qualified (d : Debounce) (action : MonitorAction) :
    ∃ fdc, (d.indicateReportedStatus now action).2 = qualified fdc := by
  cases d with
  | counterBase params d =>
    cases params with
    | none => exact ⟨0, rfl⟩
    | some params => exact DebounceCounterBase.exists_qualified params _
  | timeBase params d =>
    cases params with
    | none => exact ⟨0, rfl⟩
    | some params => exact d.exists_qualified params now action
  | userDefined d => exact d.exists_qualified action

theorem exists_qualified_timeout {d d' : Debounce} {results : List MonitorAction}
    (h : d.timeout now = some (d', results)) : ∃ fdc, results = qualified fdc := by
  cases d with
  | counterBase params d | userDefined d => cases h
  | timeBase params d =>
    simp only [timeout] at h
    split_ifs at h
    obtain ⟨rfl, rfl⟩ := mk.inj (some.inj h)
    exact d.exists_qualified_timeout _ now

end Debounce

namespace Event

variable {cfg : EventConfig} (event : Event) {event' : Event}

theorem debounced_statuses (cfg : EventConfig) (d : Debounce) {results : List MonitorAction}
    (h : ∃ fdc, results = qualified fdc) :
    ∃ inputs, exec (EventStatuses.step cfg) event.toEventStatuses inputs =
      some (debounced cfg event d results).toEventStatuses := by
  obtain ⟨fdc, rfl⟩ := h
  unfold qualified
  split_ifs
  · exact ⟨[.failed], rfl⟩
  · exact ⟨[.passed], rfl⟩
  · exact ⟨[], rfl⟩

theorem handleMonitorAction_statuses (action : MonitorAction) :
    ∃ inputs, exec (EventStatuses.step cfg) event.toEventStatuses inputs =
      some (event.handleMonitorAction cfg now action).2.toEventStatuses := by
  have hindicate (d : Debounce) := event.debounced_statuses cfg
    (d.indicateReportedStatus now action).1 (d.exists_qualified now action)
  cases action
  case resetDebouncing | fdcThresholdReached => exact ⟨[], rfl⟩
  case resetTestFailed => exact ⟨[.resetTestFailed], rfl⟩
  case freezeDebouncing =>
    simp only [handleMonitorAction]
    split
    · exact ⟨[], rfl⟩
    · split_ifs
      · exact hindicate _
      · exact ⟨[], rfl⟩
  all_goals
    simp only [handleMonitorAction]
    split
    · -- without debouncing only a result is set
      first
        | exact ⟨[.passed], rfl⟩
        | exact ⟨[.failed], rfl⟩
        | exact ⟨[], rfl⟩
    · exact hindicate _

theorem setCondition_statuses (index : ℕ) (state : Bool) :
    (event.setCondition cfg now index state).toEventStatuses = event.toEventStatuses := by
  unfold setCondition
  split
  · rfl
  · split_ifs
    · dsimp only
      split <;> rfl
    · rfl

theorem controlDtcSetting_statuses (on : Bool) :
    (event.controlDtcSetting cfg now on).toEventStatuses = event.toEventStatuses := by
  unfold controlDtcSetting
  split_ifs <;> rfl

/-- What one step does to the statuses is a history of results, resets, clears and
cycles. -/
theorem step_statuses {event : Event} {input : uint64 × EventInput}
    (h : event.step cfg input = some event') :
    ∃ inputs, exec (EventStatuses.step cfg) event.toEventStatuses inputs =
      some event'.toEventStatuses := by
  obtain ⟨now, input⟩ := input
  obtain ⟨⟨results, _⟩, hreact, rfl⟩ := map_eq_some_iff.mp h
  cases input
  case timeout =>
    obtain ⟨d, _, d', htimeout, rfl⟩ := react_timeout hreact
    exact event.debounced_statuses cfg d' (Debounce.exists_qualified_timeout now htimeout)
  all_goals obtain rfl := congrArg snd (some.inj hreact)
  case report action =>
    unfold processMonitorActionEvent
    split_ifs
    · exact event.handleMonitorAction_statuses now action
    · exact ⟨[], rfl⟩
  case setFaultDetectionCounter fdc =>
    unfold setFaultDetectionCounter
    split
    · exact ⟨[], rfl⟩
    · rename_i d _
      exact event.debounced_statuses cfg _ ⟨fdc.toInt, by cases d <;> rfl⟩
  case operationCycle newState => exact ⟨[.operationCycle newState], rfl⟩
  case setCondition index state =>
    exact ⟨[], congrArg some (event.setCondition_statuses now index state).symm⟩
  case controlDtcSetting on =>
    exact ⟨[], congrArg some (event.controlDtcSetting_statuses now on).symm⟩
  case clear isForbidden => exact ⟨[.clear isForbidden], rfl⟩
  case setLatchedWIRStatus state =>
    unfold setLatchedWIRStatus
    split_ifs
    · exact ⟨[], rfl⟩
    · exact ⟨[.setLatchedWIRStatus state], rfl⟩
  all_goals exact ⟨[], rfl⟩

/-- The event refines its statuses: whatever the debouncing, the conditions and the DTC setting do,
a run changes the statuses only as a history of results, resets, clears and cycles does. -/
theorem exec_statuses {event : Event} {history : List (uint64 × EventInput)}
    (h : exec (step cfg) event history = some event') :
    ∃ inputs, exec (EventStatuses.step cfg) event.toEventStatuses inputs =
      some event'.toEventStatuses := by
  induction history generalizing event with
  | nil =>
    cases h
    exact ⟨[], rfl⟩
  | cons input history ih =>
    obtain ⟨t, ht, h⟩ := bind_eq_some_iff.mp h
    obtain ⟨first, hfirst⟩ := step_statuses ht
    obtain ⟨rest, hrest⟩ := ih h
    refine ⟨first ++ rest, ?_⟩
    rw [exec_append, hfirst]
    exact hrest

/-- A failure that the debounce timer qualifies -/
def timedOut : Option Event :=
  exec (step {}) { debounce := some (.timeBase (some ⟨1, 1⟩) {}) }
    [(0, .operationCycle .start), (0, .report .prefailed), (1000, .timeout)]

theorem exec_statuses_timedOut : ∃ event' inputs, timedOut = some event' ∧
    exec (EventStatuses.step {}) {} inputs = some event'.toEventStatuses := by
  obtain ⟨event', h⟩ : ∃ event', timedOut = some event' := ⟨_, rfl⟩
  obtain ⟨inputs, hinputs⟩ := exec_statuses h
  exact ⟨event', inputs, h, hinputs⟩

end Event

/-! ### The bits that are kept twice -/

namespace EventStatuses

variable {cfg : EventConfig} {s : EventStatuses}

/-- The three bits of the event are bits 0, 1 and 6 of the trouble code. -/
structure Agree (s : EventStatuses) : Prop where
  testFailed : s.status.get .testFailed = s.dtc.status.get .testFailed
  failedThisCycle : s.status.get .testFailedThisOperationCycle =
    s.dtc.status.get .testFailedThisOperationCycle
  notCompleted : s.status.get .testNotCompletedThisOperationCycle =
    s.dtc.status.get .testNotCompletedThisOperationCycle

/-- A passed result arrives only where neither a failed test nor a failure in this
operation cycle is recorded. -/
def PassedWhileClear (s : EventStatuses) (input : StatusInput) : Prop :=
  input = .passed → s.status.get .testFailed = false ∧
    s.status.get .testFailedThisOperationCycle = false

theorem agree_failed (s : EventStatuses) : (s.react cfg .failed).Agree := by
  constructor <;>
    simp [react, setDebouncedStatus, setStatus, Dtc.setStatus,
      DTCStatusHandler.setStatus] <;> split_ifs <;> simp

/-- At a passed result the event withdraws a failed test of this cycle, if it is recoverable;
the failure of the cycle itself is forgotten. -/
theorem get_status_passed (cfg : EventConfig) (s : EventStatuses) : let s' := s.react cfg .passed
    s'.status.get .testFailed = (s.status.get .testFailed &&
      !(cfg.recoverableInSameOperationCycle && s.status.get .testFailedThisOperationCycle)) ∧
    s'.status.get .testFailedThisOperationCycle = false ∧
    s'.status.get .testNotCompletedThisOperationCycle = false := by
  simp only [react, setDebouncedStatus, setStatus]
  split_ifs with h
  · simp [h]
  · refine ⟨?_, by simp, by simp⟩
    have hkeep : (cfg.recoverableInSameOperationCycle &&
        s.status.get .testFailedThisOperationCycle) = false := by
      simpa using h
    simp [hkeep]

/-- The trouble code withdraws a failed test of an earlier cycle as well, and keeps the
failure of the cycle. -/
theorem get_dtc_passed (cfg : EventConfig) (s : EventStatuses) : let s' := s.react cfg .passed
    s'.dtc.status.get .testFailed = (s.dtc.status.get .testFailed &&
      !(cfg.recoverableInSameOperationCycle || !s.dtc.status.get .testFailedThisOperationCycle)) ∧
    s'.dtc.status.get .testFailedThisOperationCycle =
      s.dtc.status.get .testFailedThisOperationCycle ∧
    s'.dtc.status.get .testNotCompletedThisOperationCycle = false := by
  simp only [react, setDebouncedStatus, Dtc.setStatus, DTCStatusHandler.setStatus]
  split_ifs with h
  · have hreset : (cfg.recoverableInSameOperationCycle ||
        !s.dtc.status.get .testFailedThisOperationCycle) = true := by
      simpa using h
    simp [hreset]
  · have hkeep : (cfg.recoverableInSameOperationCycle ||
        !s.dtc.status.get .testFailedThisOperationCycle) = false := by
      simpa using h
    simp [hkeep]

/-- After a passed result the two agree only if neither a failed test nor a failure of this
cycle was recorded: the one is withdrawn by only one of them, the other kept by only one. -/
theorem agree_passed_iff (h : s.Agree) :
    (s.react cfg .passed).Agree ↔ s.PassedWhileClear .passed := by
  obtain ⟨htest, hcycle, _⟩ := h
  obtain ⟨hfailed, hforgotten, hcompleted⟩ := s.get_status_passed cfg
  obtain ⟨hfailed', hkept, hcompleted'⟩ := s.get_dtc_passed cfg
  rw [← htest, ← hcycle] at hfailed'
  rw [← hcycle] at hkept
  constructor
  · intro h' _
    have hc : s.status.get .testFailedThisOperationCycle = false := by
      rw [← hkept, ← h'.failedThisCycle, hforgotten]
    have hf := h'.testFailed
    rw [hfailed, hfailed', hc] at hf
    exact ⟨by simpa using hf, hc⟩
  · intro hclear
    obtain ⟨hf, hc⟩ := hclear rfl
    exact ⟨by rw [hfailed, hfailed', hf]; rfl, by rw [hforgotten, hkept, hc],
      by rw [hcompleted, hcompleted']⟩

theorem Agree.resetTestFailed (h : s.Agree) : (s.react cfg .resetTestFailed).Agree := by
  constructor <;>
    simp [react, EventStatuses.resetTestFailed, reset, Dtc.resetStatus,
      DTCStatusHandler.reset, h.failedThisCycle, h.notCompleted]

theorem Agree.clear (h : s.Agree) (isForbidden : Bool) :
    (s.react cfg (.clear isForbidden)).Agree := by
  cases isForbidden with
  | false =>
    constructor <;>
      simp [react, EventStatuses.clear, EventStatus.clear, Dtc.clear, DTCStatus.clear] <;>
      split_ifs <;> simp
  | true =>
    cases hb : cfg.clearEventAllowedBehavior with
    | noStatusByteChange => simpa [react, EventStatuses.clear, hb] using ⟨h.1, h.2, h.3⟩
    | onlyThisCycleAndReadiness =>
      constructor <;>
        simp [react, EventStatuses.clear, Dtc.clear, hb, clearForbidden,
          DTCStatusHandler.clearForbidden, EventStatus.clearOnThisCycleAndReadiness,
          DTCStatus.clearOnThisCycleAndReadiness, h.testFailed]

theorem Agree.operationCycle (h : s.Agree) (newState : OperationCycleType) :
    (s.react cfg (.operationCycle newState)).Agree := by
  have hstop : { s with dtc := s.dtc.opCycleStoppedStatusChange }.Agree := by
    constructor <;>
      simp [Dtc.opCycleStoppedStatusChange, DTCStatusHandler.get_opCycleStoppedStatusChange,
        h.testFailed, h.failedThisCycle, h.notCompleted]
  have hstart : ∀ dtc : Dtc, { s with dtc := dtc }.Agree → ∀ started,
      EventStatuses.Agree { s with
        isOperationCycleStarted := started
        status := opCycleStartedStatusChange s.status
        dtc := dtc.opCycleStartedStatusChange } := by
    intro dtc hd started
    have htest : s.status.get .testFailed = dtc.status.get .testFailed := hd.testFailed
    constructor <;>
      simp [opCycleStartedStatusChange, Dtc.opCycleStartedStatusChange,
        DTCStatusHandler.opCycleStartedStatusChange, htest]
  cases newState with
  | start =>
    simp only [react, reportOperationCycleStateTransition]
    split_ifs
    · exact hstart _ hstop _
    · exact hstart _ h _
  | stop =>
    simp only [react, reportOperationCycleStateTransition]
    split_ifs
    · exact ⟨hstop.1, hstop.2, hstop.3⟩
    · exact h

theorem Agree.setLatchedWIRStatus (h : s.Agree) (state : Bool) :
    (s.react cfg (.setLatchedWIRStatus state)).Agree := by
  simp only [react, EventStatuses.setLatchedWIRStatus]
  split_ifs
  · exact h
  · constructor <;> cases state <;>
      simp [Dtc.setStatusWIR, DTCStatusHandler.setStatusWIR, h.testFailed, h.failedThisCycle,
        h.notCompleted]

theorem agree_react_iff (cfg : EventConfig) (h : s.Agree) (input : StatusInput) :
    (s.react cfg input).Agree ↔ s.PassedWhileClear input := by
  cases input with
  | passed => exact agree_passed_iff h
  | failed => exact iff_of_true s.agree_failed (by simp [PassedWhileClear])
  | resetTestFailed => exact iff_of_true h.resetTestFailed (by simp [PassedWhileClear])
  | clear isForbidden => exact iff_of_true (h.clear isForbidden) (by simp [PassedWhileClear])
  | operationCycle newState =>
    exact iff_of_true (h.operationCycle newState) (by simp [PassedWhileClear])
  | setLatchedWIRStatus state =>
    exact iff_of_true (h.setLatchedWIRStatus state) (by simp [PassedWhileClear])

/-- In a history of results, resets, clears and cycles the event and its trouble code
agree after every step precisely if each passed result arrives where no failed test and no
failure of the operation cycle is recorded. -/
theorem status_bits_agree_iff (cfg : EventConfig) {s : EventStatuses}
    (history : List StatusInput) (hs : s.Agree) :
    Always (step cfg) Agree s history ↔ Along (step cfg) PassedWhileClear s history := by
  refine always_iff_along (fun _ _ _ _ _ _ => trivial) ?_ trivial hs
  intro s input _ hs
  rw [← agree_react_iff cfg hs]
  simp [step]

theorem status_bits_agree_iff_passed :
    Always (step {}) Agree {} [.operationCycle .start, .passed] ↔
      Along (step {}) PassedWhileClear {} [.operationCycle .start, .passed] :=
  status_bits_agree_iff {} _ ⟨by decide, by decide, by decide⟩

/-- A test that fails and passes: in the same cycle the event forgets the failure of this
cycle, and in the next one it keeps the failed test that the trouble code has withdrawn. -/
theorem status_bits_diverge :
    (∃ s, exec (step {}) {} [.operationCycle .start, .failed, .passed] = some s ∧
      s.status.get .testFailedThisOperationCycle = false ∧
      s.dtc.status.get .testFailedThisOperationCycle = true) ∧
    (∃ s, exec (step {}) {}
        [.operationCycle .start, .failed, .operationCycle .start, .passed] = some s ∧
      s.status.get .testFailed = true ∧ s.dtc.status.get .testFailed = false) :=
  ⟨⟨_, rfl, rfl, rfl⟩, ⟨_, rfl, rfl, rfl⟩⟩

end EventStatuses

end AdaptivePlatform.Diag
