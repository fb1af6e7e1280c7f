import AdaptivePlatform.Diag.Debounce
import AdaptivePlatform.Diag.Status

/-!
# Diagnostic events

An event receives the reports of its monitor, debounces them and, once a result
is qualified, changes its own status and that of its trouble code. Reports are
ignored while the operation cycle is not started, while the enable conditions
are not fulfilled and while the DTC setting (service 0x85) is off.
-/
namespace AdaptivePlatform.Diag

structure EventConfig where
  confirmationThreshold : uint32 := 1
  recoverableInSameOperationCycle : Bool := false
  clearEventAllowedBehavior : ClearEventAllowedBehavior := .noStatusByteChange
  /-- There are connected indicators. -/
  hasIndicator : Bool := false
  debounceBehavior : DebounceBehavior := .freeze

/-- The states of the conditions, and the state of the group that `Init` computes and
the callbacks keep. -/
structure ConditionGroup where
  conditions : List Bool
  currentState : Bool
  consistent : currentState = conditions.all id

namespace ConditionGroup

variable (g : ConditionGroup)

def checkConditionGroup : Bool := g.conditions.all id

theorem checkConditionGroup_eq : g.checkConditionGroup = g.currentState := g.consistent.symm

/-- A condition of the group changes; the second part is what the group calls back with. -/
def setCondition (index : ℕ) (state : Bool) : ConditionGroup × Option Bool :=
  if h : (g.conditions.set index state).all id = g.currentState then
    (⟨g.conditions.set index state, g.currentState, h.symm⟩, none)
  else
    (⟨g.conditions.set index state, !g.currentState, (Bool.eq_not_of_ne h).symm⟩,
      some (!g.currentState))

end ConditionGroup

structure ControlDtcSetting where
  state : Bool := true
  first : Bool := true

inductive OperationCycleType
  | start
  | stop
  deriving DecidableEq, Repr

/-- The part of an event that results and cycles act on: its status and its trouble
code, the state of the operation cycle and the latch of the warning indicator. -/
structure EventStatuses where
  status : EventStatus := EventStatus.create
  dtc : Dtc := {}
  isOperationCycleStarted : Bool := false
  indicatorLock : Bool := false

namespace EventStatuses

variable (cfg : EventConfig) (s : EventStatuses)

def setDebouncedStatus (actionType : MonitorAction) : EventStatuses :=
  { s with
    status := EventStatusHandler.setStatus s.status actionType
      cfg.recoverableInSameOperationCycle
    dtc := s.dtc.setStatus actionType cfg.confirmationThreshold cfg.hasIndicator
      cfg.recoverableInSameOperationCycle }

/-- The action `kResetTestFailed` -/
def resetTestFailed : EventStatuses :=
  { s with status := EventStatusHandler.reset s.status, dtc := s.dtc.resetStatus }

/-- The status changes of `ReportOperationCycleStateTransition`. A start while the cycle
is started is a restart. -/
def reportOperationCycleStateTransition : OperationCycleType → EventStatuses
  | .start =>
    let dtc := if s.isOperationCycleStarted then s.dtc.opCycleStoppedStatusChange else s.dtc
    { s with
      isOperationCycleStarted := true
      status := EventStatusHandler.opCycleStartedStatusChange s.status
      dtc := dtc.opCycleStartedStatusChange }
  | .stop =>
    if s.isOperationCycleStarted then
      { s with isOperationCycleStarted := false, dtc := s.dtc.opCycleStoppedStatusChange }
    else s

/-- `Dtc::Clear` with the status changes of `DtcClearedCallback` -/
def clear (s : EventStatuses) (isForbidden : Bool) : EventStatuses :=
  { s with
    status :=
      if isForbidden then EventStatusHandler.clearForbidden s.status cfg.clearEventAllowedBehavior
      else s.status.clear
    dtc := s.dtc.clear isForbidden cfg.clearEventAllowedBehavior s.indicatorLock }

/-- The callback that sets the latched warning indicator. A request of the DM itself
(the code is confirmed and nothing is latched) is not withdrawn. -/
def setLatchedWIRStatus (state : Bool) : EventStatuses :=
  if state = false ∧ s.dtc.status.get .confirmedDTC ∧
      s.dtc.status.get .warningIndicatorRequested ∧ s.indicatorLock = false then s
  else { s with indicatorLock := state, dtc := s.dtc.setStatusWIR state }

end EventStatuses

structure Event extends EventStatuses where
  debounce : Option Debounce := none
  enableConditionGroup : Option ConditionGroup := none
  dtcSetting : ControlDtcSetting := {}
  bFreezeUpdateDtc : Bool := false

namespace Event

variable (cfg : EventConfig) (now : uint64)

def setDebouncedStatus (event : Event) (actionType : MonitorAction) : Event :=
  { event with toEventStatuses := event.toEventStatuses.setDebouncedStatus cfg actionType }

variable (event : Event) (action : MonitorAction)

/-- The debouncing changes and the results it has qualified are set. -/
def debounced (d : Debounce) (results : List MonitorAction) : Event :=
  results.foldl (setDebouncedStatus cfg) { event with debounce := some d }

def conditionsFulfilled : Bool := event.enableConditionGroup.all ConditionGroup.checkConditionGroup

/-- The guards at the entry of `_processMonitorActionEvent`. -/
def accepts : Bool :=
  event.isOperationCycleStarted && event.conditionsFulfilled && !event.bFreezeUpdateDtc

/-- The body of `_processMonitorActionEvent` behind its guards: the results that reach
`SetDebouncedStatus`, and the event. -/
def handleMonitorAction : List MonitorAction × Event :=
  match action with
  | .passed | .failed =>
    match event.debounce with
    | none => ([action], setDebouncedStatus cfg event action)
    | some d =>
      let (d, results) := d.indicateReportedStatus now action
      (results, debounced cfg event d results)
  | .prepassed | .prefailed =>
    match event.debounce with
    | none => ([], event)
    | some d =>
      let (d, results) := d.indicateReportedStatus now action
      (results, debounced cfg event d results)
  | .resetDebouncing => ([], { event with debounce := event.debounce.map (·.reset now) })
  | .resetTestFailed =>
    ([], { event with toEventStatuses := event.toEventStatuses.resetTestFailed })
  | .fdcThresholdReached => ([], event)
  | .freezeDebouncing =>
    match event.debounce with
    | none => ([], event)
    | some d =>
      if d.isTimeBase then
        let (d, results) := d.indicateReportedStatus now action
        (results, debounced cfg event d results)
      else ([], event)

def processMonitorActionEvent : List MonitorAction × Event :=
  if event.accepts then event.handleMonitorAction cfg now action else ([], event)

/-- The callback for the fault detection counter of the monitor. -/
def setFaultDetectionCounter (fdc : int8) : List MonitorAction × Event :=
  match event.debounce with
  | none => ([], event)
  | some d =>
    let (d, results) := d.setFDC now fdc.toInt
    (results, debounced cfg event d results)

/-- `ReportOperationCycleStateTransition`. Only a start resets the debouncing. -/
def reportOperationCycleStateTransition (event : Event) (newState : OperationCycleType) : Event :=
  { event with
    toEventStatuses := event.toEventStatuses.reportOperationCycleStateTransition newState
    debounce :=
      match newState with
      | .start => event.debounce.map fun d =>
        (d.mapFdc fun f => { f with maxFdcDuringCurCycle := 0 }).reset now
      | .stop => event.debounce }

/-- The callback for a change of the enable condition group. -/
def conditionGroupStatusChanged (fulfilled : Bool) : Event :=
  { event with
    debounce := event.debounce.map fun d =>
      if fulfilled then d.freeze now false
      else
        (if cfg.debounceBehavior = .reset then d.reset now else d).freeze now true }

def setCondition (event : Event) (index : ℕ) (state : Bool) : Event :=
  match event.enableConditionGroup with
  | none => event
  | some g =>
    if g.conditions[index]? = some (!state) then
      let event' := { event with enableConditionGroup := some (g.setCondition index state).1 }
      match (g.setCondition index state).2 with
      | none => event'
      | some fulfilled => event'.conditionGroupStatusChanged cfg now fulfilled
    else event

/-- The callback for a change of the DTC setting. -/
def dtcSettingChanged (on : Bool) : Event :=
  { event with
    bFreezeUpdateDtc := !on
    debounce := event.debounce.map fun d =>
      let d := if !on && cfg.debounceBehavior = .reset then d.reset now else d
      if d.isTimeBase then d.freeze now (!on) else d }

def controlDtcSetting (on : Bool) : Event :=
  if on = event.dtcSetting.state ∧ event.dtcSetting.first = false then event
  else { event with dtcSetting := ⟨on, false⟩ }.dtcSettingChanged cfg now on

/-- The callback that sets the latched warning indicator, ignored while the DTC setting
is off. -/
def setLatchedWIRStatus (event : Event) (state : Bool) : Event :=
  if event.dtcSetting.state = false then event
  else { event with toEventStatuses := event.toEventStatuses.setLatchedWIRStatus state }

/-- `Dtc::Clear` with `DtcClearedCallback` -/
def clear (event : Event) (isForbidden : Bool) : Event :=
  { event with
    toEventStatuses := event.toEventStatuses.clear cfg isForbidden
    debounce := event.debounce.map fun d =>
      (d.mapFdc fun f => { f with maxFdcSinceLastClear := 0 }).reset now }

end Event

/-- What can happen to an event, with the time at which it happens. -/
inductive EventInput
  /-- The monitor reports an action. -/
  | report (action : MonitorAction)
  /-- The monitor supplies its fault detection counter. -/
  | setFaultDetectionCounter (fdc : int8)
  /-- The debounce timer runs out. -/
  | timeout
  | operationCycle (newState : OperationCycleType)
  | setCondition (index : ℕ) (state : Bool)
  | controlDtcSetting (on : Bool)
  | clear (isForbidden : Bool)
  | setLatchedWIRStatus (state : Bool)
  /-- The monitor supplies the parameters of a counter or a timer. -/
  | receiveCounter (counter : CounterBased)
  | receiveTimer (timer : TimeBased)
  /-- The fault detection counter is read. -/
  | getFaultDetectionCounter

namespace Event

variable (cfg : EventConfig)

def react (event : Event) : uint64 × EventInput → Option (List MonitorAction × Event)
  | (now, .report action) => some (event.processMonitorActionEvent cfg now action)
  | (now, .setFaultDetectionCounter fdc) => some (event.setFaultDetectionCounter cfg now fdc)
  | (now, .timeout) => do
    let d ← event.debounce
    let (d, results) ← d.timeout now
    some (results, debounced cfg event d results)
  | (now, .operationCycle newState) =>
    some ([], event.reportOperationCycleStateTransition now newState)
  | (now, .setCondition index state) => some ([], event.setCondition cfg now index state)
  | (now, .controlDtcSetting on) => some ([], event.controlDtcSetting cfg now on)
  | (now, .clear isForbidden) => some ([], event.clear cfg now isForbidden)
  | (_, .setLatchedWIRStatus state) => some ([], event.setLatchedWIRStatus state)
  | (_, .receiveCounter counter) =>
    some ([], { event with debounce := event.debounce.map (·.setDebounceCounterParam counter) })
  | (_, .receiveTimer timer) =>
    some ([], { event with debounce := event.debounce.map (·.setDebounceTimerParam timer) })
  | (now, .getFaultDetectionCounter) =>
    some ([], { event with
      debounce := event.debounce.map fun d => (d.getFaultDetectionCounter now).2 })

def step (event : Event) (input : uint64 × EventInput) : Option Event :=
  (event.react cfg input).map (·.2)

theorem react_timeout {cfg : EventConfig} {event event' : Event} {now : uint64}
    {results : List MonitorAction}
    (hreact : event.react cfg (now, .timeout) = some (results, event')) :
    ∃ d ∈ event.debounce, ∃ d', d.timeout now = some (d', results) ∧
      event' = debounced cfg event d' results := by
  obtain ⟨d, hd, hreact⟩ := Option.bind_eq_some_iff.mp hreact
  obtain ⟨⟨d', results'⟩, htimeout, hreact⟩ := Option.bind_eq_some_iff.mp hreact
  cases hreact
  exact ⟨d, hd, d', htimeout, rfl⟩

end Event

end AdaptivePlatform.Diag
