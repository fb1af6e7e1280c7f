import AdaptivePlatform.Foundations.Runs
import AdaptivePlatform.Diag.Event

/-!
# The guards of an event

Reports of the monitor are let in only while the operation cycle is started, the
enable conditions are fulfilled and the DTC setting is on. A qualified result can
also arrive later, from a debounce timer that a report has started, or past the
guards, with a fault detection counter of the monitor. The module determines
the histories in which no result ever arrives outside the guards.
-/
namespace AdaptivePlatform.Diag

open Runs Option
open Or (inl inr)
open Prod (fst snd)

namespace DebounceTimeBase

variable (timer : TimeBased) (now : uint64) (d : DebounceTimeBase) (action : MonitorAction)

/-- A running timer waits to qualify an unqualified report. -/
def WellTimed : Prop := d.timer ≠ none → d.actionLast = .prefailed ∨ d.actionLast = .prepassed

@[simp] theorem getFaultDetectionCounter_timer :
    (d.getFaultDetectionCounter timer now).2.timer = d.timer := by
  unfold getFaultDetectionCounter
  repeat' split
  all_goals rfl

@[simp] theorem getFaultDetectionCounter_actionLast :
    (d.getFaultDetectionCounter timer now).2.actionLast = d.actionLast := by
  unfold getFaultDetectionCounter
  repeat' split
  all_goals rfl

@[simp] theorem setFDC_timer (fdc : ℤ) : (d.setFDC timer now fdc).1.timer = d.timer := by
  simp [setFDC, notifierFDCChanged, storeFDC]

@[simp] theorem setFDC_actionLast (fdc : ℤ) :
    (d.setFDC timer now fdc).1.actionLast = d.actionLast := by
  simp [setFDC, notifierFDCChanged, storeFDC]

@[simp] theorem reset_timer : (d.reset timer now).timer = none := rfl

theorem freezeTimer_timer {d' : DebounceTimeBase} (h : d.freezeTimer timer now = some d') :
    d'.timer = none := by
  unfold freezeTimer at h
  dsimp only at h
  repeat' split at h
  all_goals first
    | exact absurd h (some_ne_none _).symm
    | cases h
      simp [notifierFDCChanged, storeFDC, stopTimer]

@[simp] theorem freezeDebouncing_true_timer : (d.freezeDebouncing timer now true).timer = none := by
  by_cases htimer : d.timer = none
  · simp [freezeDebouncing, htimer]
  · cases hf : d.freezeTimer timer now with
    | none => simp [freezeDebouncing, htimer, hf, stopTimer]
    | some d' => simpa [freezeDebouncing, htimer, hf] using d.freezeTimer_timer timer now hf

/-- The last statements of a report stop the timer of a report of another kind. -/
theorem finishReport_wellTimed (duration : Option uint32) (hd : d.WellTimed)
    (haction : duration = none ∨ action = .prefailed ∨ action = .prepassed) :
    (d.finishReport now action duration).WellTimed := by
  intro htimer
  cases duration with
  | some seconds => simpa [finishReport] using haction
  | none =>
    by_cases hlast : action = d.actionLast
    · have hrun : d.timer ≠ none := by simpa [finishReport, hlast] using htimer
      simpa [finishReport, hlast] using hd hrun
    · refine absurd ?_ htimer
      cases hrun : d.timer <;> simp [finishReport, hlast, hrun, stopTimer]

theorem prepare_wellTimed (threshold : uint32) (resumes : Bool) (hd : d.WellTimed) :
    (d.prepare threshold resumes).2.WellTimed := by
  unfold prepare
  split_ifs
  · exact hd
  · exact hd

theorem indicateReportedStatus_wellTimed (hd : d.WellTimed) :
    (d.indicateReportedStatus timer now action).1.WellTimed := by
  have hset : ∀ fdc, (d.setFDC timer now fdc).1.WellTimed := by
    intro fdc
    simpa [WellTimed] using hd
  cases action with
  | prefailed =>
    dsimp only [indicateReportedStatus]
    split_ifs
    · exact finishReport_wellTimed now _ _ _ (d.prepare_wellTimed _ _ hd) (inr (inl rfl))
    · exact finishReport_wellTimed now _ _ _ hd (inl rfl)
  | prepassed =>
    dsimp only [indicateReportedStatus]
    split_ifs
    · exact finishReport_wellTimed now _ _ _ (d.prepare_wellTimed _ _ hd) (inr (inr rfl))
    · exact finishReport_wellTimed now _ _ _ hd (inl rfl)
  | failed | passed => exact finishReport_wellTimed now _ _ _ (hset _) (inl rfl)
  | freezeDebouncing =>
    refine finishReport_wellTimed now _ _ _ ?_ (inl rfl)
    intro h
    exact absurd (d.freezeDebouncing_true_timer timer now) h
  | resetDebouncing =>
    refine finishReport_wellTimed now _ _ _ ?_ (inl rfl)
    intro h
    exact absurd (d.reset_timer timer now) h
  | fdcThresholdReached | resetTestFailed => exact hd

@[simp] theorem timeout_timer : (d.timeout timer now).1.timer = none := by
  unfold timeout
  dsimp only
  split <;> simp [stopTimer]

/-- A timer that runs out always qualifies a result. -/
theorem timeout_results (hd : d.WellTimed) (htimer : d.timer ≠ none) :
    (d.timeout timer now).2 ≠ [] := by
  rcases hd htimer with h | h
  · simp [timeout, stopTimer, h, setFDC, qualified]
  · simp [timeout, stopTimer, h, setFDC, qualified, fdcMin, fdcMax]

end DebounceTimeBase

namespace Debounce

variable (now : uint64) (d : Debounce) {d' : Debounce}

def running : Debounce → Prop
  | timeBase _ d => d.timer ≠ none
  | _ => False

def WellTimed : Debounce → Prop
  | timeBase params d => d.WellTimed ∧ (d.timer ≠ none → params ≠ none)
  | _ => True

/-- `d'` runs at most the timer that `d` runs. -/
structure Follows (d d' : Debounce) : Prop where
  running : d'.running → d.running
  wellTimed : d.WellTimed → d'.WellTimed

theorem Follows.refl : Follows d d := ⟨id, id⟩

theorem not_running_reset : ¬ (d.reset now).running := by cases d <;> simp [reset, running]

variable {d : Debounce}

theorem wellTimed_of_not_running (h : ¬ d.running) : d.WellTimed := by
  cases d with
  | counterBase params d | userDefined d => trivial
  | timeBase params d => exact ⟨fun hrun => absurd hrun h, fun hrun => absurd hrun h⟩

theorem follows_of_not_running (h : ¬ d'.running) : Follows d d' :=
  ⟨fun hrun => absurd hrun h, fun _ => wellTimed_of_not_running h⟩

theorem not_running_freeze (hd : d.WellTimed) : ¬ (d.freeze now true).running := by
  cases d with
  | counterBase params d | userDefined d => exact id
  | timeBase params d =>
    cases params with
    | none => exact fun hrun => hd.2 hrun rfl
    | some params => simp [freeze, running]

/-- Switching the setting off freezes time-based debouncing only. -/
theorem not_running_freeze_if (hd : d.WellTimed) :
    ¬ (if d.isTimeBase then d.freeze now true else d).running := by
  split_ifs with htime
  · exact not_running_freeze now hd
  · cases d with
    | counterBase params d | userDefined d => exact id
    | timeBase params d => exact absurd rfl htime

theorem follows_unfreeze : Follows d (d.freeze now false) := by
  cases d with
  | counterBase params d => exact .refl _
  | userDefined d => exact ⟨id, id⟩
  | timeBase params d =>
    cases params with
    | none => exact .refl _
    | some params => exact ⟨id, id⟩

theorem follows_setFDC (fdc : ℤ) : Follows d (d.setFDC now fdc).1 := by
  cases d with
  | counterBase params d | userDefined d => exact ⟨id, id⟩
  | timeBase params d =>
    constructor <;> simp [setFDC, running, WellTimed, DebounceTimeBase.WellTimed]

theorem follows_getFaultDetectionCounter : Follows d (d.getFaultDetectionCounter now).2 := by
  cases d with
  | counterBase params d | userDefined d => exact ⟨id, id⟩
  | timeBase params d =>
    cases params with
    | none => exact .refl _
    | some params =>
      constructor <;>
        simp [getFaultDetectionCounter, running, WellTimed, DebounceTimeBase.WellTimed]

theorem follows_setDebounceCounterParam (counter : CounterBased) :
    Follows d (d.setDebounceCounterParam counter) := by
  cases d with
  | counterBase params d => cases params <;> exact ⟨id, id⟩
  | userDefined d | timeBase params d => exact .refl _

theorem follows_setDebounceTimerParam (timer : TimeBased) :
    Follows d (d.setDebounceTimerParam timer) := by
  cases d with
  | counterBase params d | userDefined d => exact .refl _
  | timeBase params d =>
    cases params with
    | none => exact .refl _
    | some params => exact ⟨id, fun h => ⟨h.1, fun _ => some_ne_none _⟩⟩

theorem wellTimed_indicateReportedStatus (hd : d.WellTimed)
    (action : MonitorAction) : (d.indicateReportedStatus now action).1.WellTimed := by
  cases d with
  | counterBase params d => cases params <;> trivial
  | userDefined d => trivial
  | timeBase params d =>
    cases params with
    | none => exact hd
    | some params =>
      exact ⟨d.indicateReportedStatus_wellTimed params now action hd.1, fun _ => some_ne_none _⟩

/-- Only a running timer runs out; it then stops and qualifies a result. -/
theorem timeout_spec {results : List MonitorAction} (hd : d.WellTimed)
    (h : d.timeout now = some (d', results)) : d.running ∧ ¬ d'.running ∧ results ≠ [] := by
  cases d with
  | counterBase params d | userDefined d => cases h
  | timeBase params d =>
    simp only [timeout] at h
    split_ifs at h with htimer
    cases h
    exact ⟨htimer, by simp [running], d.timeout_results _ _ hd.1 htimer⟩

end Debounce

/-- The inputs through which a monitor acts, at once or by a timer it has started. -/
def EventInput.fromMonitor : EventInput → Bool
  | report _ => true
  | setFaultDetectionCounter _ => true
  | timeout => true
  | _ => false

namespace Event

variable (cfg : EventConfig)

/-- The operation cycle is started, the enable conditions are fulfilled and the DTC
setting is on. -/
def Enabled (event : Event) : Prop :=
  event.isOperationCycleStarted = true ∧ event.conditionsFulfilled = true ∧
    event.dtcSetting.state = true

/-- A step sets a qualified result only while the event is enabled, and no status
changes through the monitor while it is not. -/
def RespectsGuards (event : Event) (input : uint64 × EventInput) : Prop :=
  ∀ results event', event.react cfg input = some (results, event') →
    (results ≠ [] → event.Enabled) ∧
      (input.2.fromMonitor = true → ¬ event.Enabled →
        event'.status = event.status ∧ event'.dtc = event.dtc)

/-- A timer runs out only within the operation cycle, and the monitor supplies a
counter at one of its limits only to an enabled event or to one without debouncing. -/
def Sheltered (event : Event) (input : uint64 × EventInput) : Prop :=
  match input.2 with
  | .timeout => event.isOperationCycleStarted = true
  | .setFaultDetectionCounter fdc =>
    event.debounce = none ∨ qualified fdc.toInt = [] ∨ event.Enabled
  | _ => True

/-- After `Init` no timer is running, and the event follows the DTC setting. -/
structure Initial (event : Event) : Prop where
  setting : event.bFreezeUpdateDtc = !event.dtcSetting.state
  idle : ∀ d ∈ event.debounce, ¬ d.running

/-- A debounce timer runs only while the enable conditions are fulfilled and the DTC
setting is on. The operation cycle may have ended. -/
structure TimerGuarded (event : Event) : Prop where
  setting : event.bFreezeUpdateDtc = !event.dtcSetting.state
  wellTimed : ∀ d ∈ event.debounce, d.WellTimed
  fulfilled : ∀ d ∈ event.debounce, d.running → event.conditionsFulfilled = true
  settingOn : ∀ d ∈ event.debounce, d.running → event.dtcSetting.state = true

variable {cfg} {event event' : Event}

theorem Initial.timerGuarded {event : Event} (h : event.Initial) : event.TimerGuarded where
  setting := h.setting
  wellTimed d hd := Debounce.wellTimed_of_not_running (h.idle d hd)
  fulfilled d hd hrun := absurd hrun (h.idle d hd)
  settingOn d hd hrun := absurd hrun (h.idle d hd)

/-- The enable conditions and the DTC setting are the same in both events. -/
structure SameSetting (event event' : Event) : Prop where
  enableConditionGroup : event'.enableConditionGroup = event.enableConditionGroup
  dtcSetting : event'.dtcSetting = event.dtcSetting
  bFreezeUpdateDtc : event'.bFreezeUpdateDtc = event.bFreezeUpdateDtc

theorem SameSetting.refl (event : Event) : SameSetting event event := ⟨rfl, rfl, rfl⟩

/-- A step that leaves the conditions and the setting alone. -/
theorem TimerGuarded.same (h : event.TimerGuarded) (hsame : SameSetting event event')
    (hw : ∀ d ∈ event'.debounce, d.WellTimed)
    (hrun : ∀ d ∈ event'.debounce, d.running →
      event.conditionsFulfilled = true ∧ event.dtcSetting.state = true) : event'.TimerGuarded where
  setting := by rw [hsame.bFreezeUpdateDtc, hsame.dtcSetting, h.setting]
  wellTimed := hw
  fulfilled d hd hr := by
    simpa [conditionsFulfilled, hsame.enableConditionGroup] using (hrun d hd hr).1
  settingOn d hd hr := hsame.dtcSetting ▸ (hrun d hd hr).2

/-- The same for a step that starts no timer. -/
theorem TimerGuarded.follows (h : event.TimerGuarded) (hsame : SameSetting event event')
    (hf : ∀ d' ∈ event'.debounce, ∃ d ∈ event.debounce, Debounce.Follows d d') :
    event'.TimerGuarded := by
  refine h.same hsame (fun d' hd' => ?_) fun d' hd' hrun => ?_ <;>
    obtain ⟨d, hd, hf⟩ := hf d' hd'
  · exact hf.wellTimed (h.wellTimed d hd)
  · exact ⟨h.fulfilled d hd (hf.running hrun), h.settingOn d hd (hf.running hrun)⟩

/-- Results change the two statuses and nothing else of the event. -/
theorem debounced_frame (cfg : EventConfig) (event : Event) (d : Debounce)
    (results : List MonitorAction) :
    SameSetting event (debounced cfg event d results) ∧
      (debounced cfg event d results).debounce = some d := by
  induction results generalizing event with
  | nil => exact ⟨⟨rfl, rfl, rfl⟩, rfl⟩
  | cons r results ih =>
    obtain ⟨hsame, hd⟩ := ih (setDebouncedStatus cfg { event with debounce := some d } r)
    exact ⟨⟨hsame.1, hsame.2, hsame.3⟩, hd⟩

theorem accepts_iff (h : event.TimerGuarded) : event.accepts = true ↔ event.Enabled := by
  simp [accepts, Enabled, h.setting, and_assoc]

/-- A report that is let in may start a timer, in a well-formed way. -/
theorem handleMonitorAction_frame (event : Event) (now : uint64) (action : MonitorAction)
    (h : ∀ d ∈ event.debounce, d.WellTimed) :
    SameSetting event (event.handleMonitorAction cfg now action).2 ∧
      ∀ d ∈ (event.handleMonitorAction cfg now action).2.debounce, d.WellTimed := by
  have hindicate : ∀ d ∈ event.debounce, ∀ results,
      let event' := debounced cfg event (d.indicateReportedStatus now action).1 results
      SameSetting event event' ∧ ∀ d ∈ event'.debounce, d.WellTimed := by
    intro d hd results
    obtain ⟨hsame, hdebounce⟩ :=
      debounced_frame cfg event (d.indicateReportedStatus now action).1 results
    refine ⟨hsame, ?_⟩
    intro d' hd'
    cases hdebounce.symm.trans hd'
    exact Debounce.wellTimed_indicateReportedStatus now (h d hd) action
  have hid : SameSetting event event ∧ ∀ d ∈ event.debounce, d.WellTimed := ⟨.refl _, h⟩
  cases action
  case resetDebouncing =>
    refine ⟨⟨rfl, rfl, rfl⟩, forall_mem_map.mpr fun d _ => ?_⟩
    exact Debounce.wellTimed_of_not_running (d.not_running_reset now)
  case resetTestFailed => exact ⟨⟨rfl, rfl, rfl⟩, h⟩
  case fdcThresholdReached => exact hid
  case freezeDebouncing =>
    simp only [handleMonitorAction]
    split
    · exact hid
    · split_ifs
      · exact hindicate _ ‹_› _
      · exact hid
  all_goals
    simp only [handleMonitorAction]
    split
    · first
        | exact hid
        | exact ⟨⟨rfl, rfl, rfl⟩, h⟩
    · exact hindicate _ ‹_› _

/-- A report starts a timer only if it is let in. -/
theorem TimerGuarded.processMonitorActionEvent (h : event.TimerGuarded) (now : uint64)
    (action : MonitorAction) : (event.processMonitorActionEvent cfg now action).2.TimerGuarded := by
  unfold Event.processMonitorActionEvent
  split_ifs with haccepts
  · obtain ⟨hsame, hw⟩ := event.handleMonitorAction_frame now action h.wellTimed
    exact h.same hsame hw fun _ _ _ => ((accepts_iff h).mp haccepts).2
  · exact h

theorem TimerGuarded.setFaultDetectionCounter (h : event.TimerGuarded) (now : uint64) (fdc : int8) :
    (event.setFaultDetectionCounter cfg now fdc).2.TimerGuarded := by
  unfold Event.setFaultDetectionCounter
  split
  case h_1 => exact h
  case h_2 d hd =>
    obtain ⟨hsame, hdebounce⟩ := debounced_frame cfg event (d.setFDC now fdc.toInt).1
      (d.setFDC now fdc.toInt).2
    refine h.follows hsame fun _ hd' => ⟨d, hd, ?_⟩
    cases hdebounce.symm.trans hd'
    exact d.follows_setFDC now _

/-- When the group is lost, a running timer is stopped. -/
theorem TimerGuarded.conditionGroupStatusChanged (now : uint64) {fulfilled : Bool}
    (hsetting : event.bFreezeUpdateDtc = !event.dtcSetting.state)
    (hw : ∀ d ∈ event.debounce, d.WellTimed)
    (hon : ∀ d ∈ event.debounce, d.running → event.dtcSetting.state = true)
    (hfulfilled : event.conditionsFulfilled = fulfilled) :
    (event.conditionGroupStatusChanged cfg now fulfilled).TimerGuarded := by
  cases fulfilled with
  | true =>
    refine ⟨hsetting, forall_mem_map.mpr fun d hd => ?_, fun _ _ _ => hfulfilled,
      forall_mem_map.mpr fun d hd hrun => ?_⟩
    · exact (d.follows_unfreeze now).wellTimed (hw d hd)
    · exact hon d hd ((d.follows_unfreeze now).running hrun)
  | false =>
    -- no timer is left running, so the conditions may be any
    refine Initial.timerGuarded ⟨hsetting, forall_mem_map.mpr fun d hd => ?_⟩
    refine Debounce.not_running_freeze now ?_
    split_ifs
    · exact Debounce.wellTimed_of_not_running (d.not_running_reset now)
    · exact hw d hd

theorem TimerGuarded.setCondition (h : event.TimerGuarded) (now : uint64) (index : ℕ)
    (state : Bool) : (event.setCondition cfg now index state).TimerGuarded := by
  unfold Event.setCondition
  split
  case h_1 => exact h
  case h_2 g hg =>
    split_ifs with hchanged
    · dsimp only
      by_cases hsame : (g.conditions.set index state).all id = g.currentState
      · -- the group keeps its state
        simp only [ConditionGroup.setCondition, hsame, ↓reduceDIte]
        refine ⟨h.setting, h.wellTimed, fun d hd hrun => ?_, h.settingOn⟩
        have hbefore := h.fulfilled d hd hrun
        simp only [conditionsFulfilled, hg, all_some,
          ConditionGroup.checkConditionGroup_eq] at hbefore ⊢
        exact hbefore
      · simp only [ConditionGroup.setCondition, hsame]
        refine conditionGroupStatusChanged now h.setting h.wellTimed h.settingOn ?_
        simp [conditionsFulfilled, ConditionGroup.checkConditionGroup_eq]
    · exact h

/-- When the setting is switched off, a running timer is stopped. -/
theorem TimerGuarded.controlDtcSetting (h : event.TimerGuarded) (now : uint64) (on : Bool) :
    (event.controlDtcSetting cfg now on).TimerGuarded := by
  unfold Event.controlDtcSetting
  split_ifs with hsame
  · exact h
  · cases on with
    | true =>
      have hfollows : ∀ d : Debounce,
          Debounce.Follows d (if d.isTimeBase then d.freeze now false else d) := by
        intro d
        split_ifs
        · exact d.follows_unfreeze now
        · exact .refl d
      refine ⟨rfl, forall_mem_map.mpr fun d hd => ?_, forall_mem_map.mpr fun d hd hrun => ?_,
        fun _ _ _ => rfl⟩
      · exact (hfollows d).wellTimed (h.wellTimed d hd)
      · exact h.fulfilled d hd ((hfollows d).running hrun)
    | false =>
      refine Initial.timerGuarded ⟨rfl, forall_mem_map.mpr fun d hd => ?_⟩
      refine Debounce.not_running_freeze_if now ?_
      split_ifs
      · exact Debounce.wellTimed_of_not_running (d.not_running_reset now)
      · exact h.wellTimed d hd

/-- The start of a cycle and a clear reset the debouncing. -/
theorem idle_map_reset (debounce : Option Debounce) (now : uint64) (f : Debounce → Debounce) :
    ∀ d ∈ debounce.map fun d => (f d).reset now, ¬ d.running :=
  forall_mem_map.mpr fun d _ => (f d).not_running_reset now

theorem TimerGuarded.reportOperationCycleStateTransition (h : event.TimerGuarded) (now : uint64)
    (newState : OperationCycleType) :
    (event.reportOperationCycleStateTransition now newState).TimerGuarded := by
  cases newState with
  | start => exact Initial.timerGuarded ⟨h.setting, idle_map_reset _ now _⟩
  | stop => exact ⟨h.setting, h.wellTimed, h.fulfilled, h.settingOn⟩

theorem TimerGuarded.setLatchedWIRStatus (h : event.TimerGuarded) (state : Bool) :
    (event.setLatchedWIRStatus state).TimerGuarded := by
  unfold Event.setLatchedWIRStatus
  split_ifs
  · exact h
  · exact ⟨h.setting, h.wellTimed, h.fulfilled, h.settingOn⟩

/-- A debounce timer never outlives the enable conditions or the DTC setting. -/
theorem TimerGuarded.step (h : event.TimerGuarded) (input : uint64 × EventInput)
    (hstep : event.step cfg input = some event') : event'.TimerGuarded := by
  obtain ⟨now, input⟩ := input
  obtain ⟨⟨results, _⟩, hreact, rfl⟩ := map_eq_some_iff.mp hstep
  cases input
  case timeout =>
    obtain ⟨d, hd, d', htimeout, rfl⟩ := react_timeout hreact
    obtain ⟨_, hidle, _⟩ := Debounce.timeout_spec now (h.wellTimed d hd) htimeout
    obtain ⟨hsame, hdebounce⟩ := debounced_frame cfg event d' results
    refine h.follows hsame fun _ hd' => ⟨d, hd, ?_⟩
    cases hdebounce.symm.trans hd'
    exact Debounce.follows_of_not_running hidle
  all_goals obtain rfl := congrArg snd (some.inj hreact)
  case report action => exact h.processMonitorActionEvent now action
  case setFaultDetectionCounter fdc => exact h.setFaultDetectionCounter now fdc
  case operationCycle newState => exact h.reportOperationCycleStateTransition now newState
  case setCondition index state => exact h.setCondition now index state
  case controlDtcSetting on => exact h.controlDtcSetting now on
  case clear isForbidden => exact Initial.timerGuarded ⟨h.setting, idle_map_reset _ now _⟩
  case setLatchedWIRStatus state => exact h.setLatchedWIRStatus state
  case receiveCounter counter =>
    exact h.follows ⟨rfl, rfl, rfl⟩ (forall_mem_map.mpr fun d hd =>
      ⟨d, hd, d.follows_setDebounceCounterParam counter⟩)
  case receiveTimer timer =>
    exact h.follows ⟨rfl, rfl, rfl⟩ (forall_mem_map.mpr fun d hd =>
      ⟨d, hd, d.follows_setDebounceTimerParam timer⟩)
  case getFaultDetectionCounter =>
    exact h.follows ⟨rfl, rfl, rfl⟩ (forall_mem_map.mpr fun d hd =>
      ⟨d, hd, d.follows_getFaultDetectionCounter now⟩)

theorem setFDC_results (d : Debounce) (now : uint64) (fdc : ℤ) :
    (d.setFDC now fdc).2 = qualified fdc := by
  cases d <;> rfl

/-- One step respects the guards precisely if it is sheltered. -/
theorem respectsGuards_iff_sheltered (h : event.TimerGuarded) (input : uint64 × EventInput)
    (hstep : event.step cfg input = some event') :
    event.RespectsGuards cfg input ↔ event.Sheltered input := by
  obtain ⟨now, input⟩ := input
  obtain ⟨⟨results, t⟩, hreact, rfl⟩ := map_eq_some_iff.mp hstep
  have hquiet : ∀ t, event.react cfg (now, input) = some ([], t) →
      (input.fromMonitor = true → t.status = event.status ∧ t.dtc = event.dtc) →
        event.RespectsGuards cfg (now, input) := by
    intro t hreact hsame results' t' hreact'
    cases (hreact.symm.trans hreact')
    exact ⟨fun hne => absurd rfl hne, fun hmonitor _ => hsame hmonitor⟩
  have henabled : event.Enabled → event.RespectsGuards cfg (now, input) :=
    fun he _ _ _ => ⟨fun _ => he, fun _ hn => absurd he hn⟩
  cases input with
  | report action =>
    refine iff_of_true ?_ trivial
    by_cases haccepts : event.accepts = true
    · exact henabled ((accepts_iff h).mp haccepts)
    · have hignored : event.processMonitorActionEvent cfg now action = ([], event) := by
        simp [processMonitorActionEvent, haccepts]
      exact hquiet event (congrArg some hignored) fun _ => ⟨rfl, rfl⟩
  | setFaultDetectionCounter fdc =>
    cases hd : event.debounce with
    | none =>
      have hignored : event.setFaultDetectionCounter cfg now fdc = ([], event) := by
        simp [setFaultDetectionCounter, hd]
      exact iff_of_true (hquiet event (congrArg some hignored) fun _ => ⟨rfl, rfl⟩) (inl hd)
    | some d =>
      have hset : event.setFaultDetectionCounter cfg now fdc = (qualified fdc.toInt,
          debounced cfg event (d.setFDC now fdc.toInt).1 (qualified fdc.toInt)) := by
        simp [setFaultDetectionCounter, hd, setFDC_results]
      constructor
      · intro hrespects
        refine inr ?_
        by_cases hq : qualified fdc.toInt = []
        · exact inl hq
        · exact inr ((hrespects _ _ (congrArg some hset)).1 hq)
      · rintro (hnone | hq | he)
        · cases hd.symm.trans hnone
        · rw [hq] at hset
          exact hquiet _ (congrArg some hset) fun _ => ⟨rfl, rfl⟩
        · exact henabled he
  | timeout =>
    obtain ⟨d, hd, d', htimeout, rfl⟩ := react_timeout hreact
    obtain ⟨hrun, _, hresults⟩ := Debounce.timeout_spec now (h.wellTimed d hd) htimeout
    constructor
    · intro hrespects
      exact ((hrespects _ _ hreact).1 hresults).1
    · intro hstarted
      exact henabled ⟨hstarted, h.fulfilled d hd hrun, h.settingOn d hd hrun⟩
  | _ =>
    obtain rfl := congrArg fst (some.inj hreact)
    exact iff_of_true (hquiet t hreact fun hmonitor => nomatch hmonitor) trivial

/-- In every history that an event can go through, all qualified results and all status
changes by the monitor stay within the guards precisely if no debounce timer runs out
after the end of the operation cycle and the monitor supplies a counter at its limit
only within the guards. -/
theorem guards_respected_iff (cfg : EventConfig) {event event' : Event}
    (history : List (uint64 × EventInput)) (hinit : event.Initial)
    (hexec : exec (step cfg) event history = some event') :
    Along (step cfg) (RespectsGuards cfg) event history ↔
      Along (step cfg) Sheltered event history := by
  refine along_congr ?_ ?_ hinit.timerGuarded hexec
  · intro s input s' hs hstep
    exact hs.step input hstep
  · intro s input s' hs hstep
    exact respectsGuards_iff_sheltered hs input hstep

/-- An event with time-based debouncing that fails within its operation cycle. -/
theorem guards_respected_iff_timer :
    Along (step {}) (RespectsGuards {}) { debounce := some (.timeBase (some ⟨1, 1⟩) {}) }
        [(0, .operationCycle .start), (0, .report .prefailed), (1000, .timeout)] ↔
      Along (step {}) Sheltered { debounce := some (.timeBase (some ⟨1, 1⟩) {}) }
        [(0, .operationCycle .start), (0, .report .prefailed), (1000, .timeout)] := by
  refine guards_respected_iff {} _ ⟨rfl, ?_⟩ rfl
  rintro d ⟨⟩
  exact fun hrun => hrun rfl

/-- The timer that a report has started runs out after the end of the operation cycle:
the event and its trouble code fail while the cycle is not started. -/
theorem timer_outlives_operationCycle :
    ∃ s t, exec (step {}) { debounce := some (.timeBase (some ⟨1, 1⟩) {}) }
        [(0, .operationCycle .start), (0, .report .prefailed), (500, .operationCycle .stop)] =
          some s ∧
      s.isOperationCycleStarted = false ∧ s.react {} (1000, .timeout) = some ([.failed], t) ∧
      s.status.get .testFailed = false ∧ t.status.get .testFailed = true ∧
      s.dtc.status.get .testFailed = false ∧ t.dtc.status.get .testFailed = true :=
  ⟨_, _, rfl, rfl, rfl, rfl, rfl, rfl, rfl⟩

end Event

end AdaptivePlatform.Diag
