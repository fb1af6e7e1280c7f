import AdaptivePlatform.Diag.DebounceCounterBase

/-!
# The three kinds of debouncing

Time-based debouncing qualifies a result when a timer runs out after an
unqualified report; user-defined debouncing leaves the fault detection counter to
the monitor. Each operation returns the results that it notifies the event of;
the notification is a call of `SetDebouncedStatus`. `now` is what
`Helper::GetCurTime` returns, in milliseconds.
-/
namespace AdaptivePlatform.Diag

abbrev int8 := BitVec 8

def fdcMaxLess : ℤ := 126

def fdcMinMore : ℤ := -127

/-- The thresholds in seconds. -/
structure TimeBased where
  timeFailedThreshold : uint32 := 0
  timePassedThreshold : uint32 := 0
  deriving DecidableEq, Repr

/-- The results that `DebounceInterface::SetFDC` qualifies. -/
def qualified (fdc : ℤ) : List MonitorAction :=
  if fdc = fdcMax then [.failed] else if fdc = fdcMin then [.passed] else []

structure DebounceTimeBase where
  fdc : Fdc := {}
  freeze : Bool := false
  /-- The duration of a running timer, in milliseconds. -/
  timer : Option uint32 := none
  actionLast : MonitorAction := .resetDebouncing
  timeStartCount : uint64 := 0
  timeConsumed : uint64 := 0
  freezedFollowePrefailed : Bool := false
  deriving DecidableEq, Repr

namespace DebounceTimeBase

def stopTimer (d : DebounceTimeBase) : DebounceTimeBase := { d with timer := none }

/-- `_SetFDC` without notification. -/
def storeFDC (d : DebounceTimeBase) (fdc : ℤ) : DebounceTimeBase :=
  { d with fdc := d.fdc.setFDC fdc false }

section

variable (timer : TimeBased) (now : uint64) (d : DebounceTimeBase)

/-- The time that has passed against the threshold, scaled to the counter. The
division is one of 64 bits here and, for a failure, one of 32 bits in `Freeze`. -/
def scaledFailed (timeConsumed : uint64) : ℤ :=
  ((127 * timeConsumed / (timer.timeFailedThreshold * 1000).setWidth 64).setWidth 32 : uint32).toInt

def scaledPassed (timeConsumed : uint64) : ℤ :=
  (((-128 * timeConsumed).sdiv ((timer.timePassedThreshold * 1000).setWidth 64)).setWidth 32 :
    uint32).toInt

/-- `GetFaultDetectionCounter`, with the counter it leaves behind. -/
def getFaultDetectionCounter : ℤ × DebounceTimeBase :=
  let d :=
    if d.timer = none then d
    else
      let timeConsumed := d.timeConsumed + now - d.timeStartCount
      match d.actionLast with
      | .prefailed =>
        if timer.timeFailedThreshold = 0 then d
        else
          let fdc := scaledFailed timer timeConsumed
          d.storeFDC (if fdc ≥ fdcMax then fdcMax else if fdc < 0 then 0 else fdc)
      | .prepassed =>
        if timer.timePassedThreshold = 0 then d
        else
          let fdc := scaledPassed timer timeConsumed
          d.storeFDC (if fdc ≤ fdcMin then fdcMin else if fdc > 0 then 0 else fdc)
      | _ => d
  (d.fdc.debounceCounter, d)

def notifierFDCChanged : DebounceTimeBase :=
  let (fdc, d) := d.getFaultDetectionCounter timer now
  { d with fdc := d.fdc.recordMax fdc }

def setFDC (fdc : ℤ) : DebounceTimeBase × List MonitorAction :=
  ((d.storeFDC fdc).notifierFDCChanged timer now, qualified fdc)

def reset : DebounceTimeBase :=
  (setFDC timer now { d with actionLast := .resetDebouncing, timeConsumed := 0 } 0).1.stopTimer

/-- The part of `Freeze` that stops a running timer; `none` where the method
returns before its last statements. -/
def freezeTimer : Option DebounceTimeBase :=
  let d := d.stopTimer
  let d := { d with timeConsumed := d.timeConsumed + (now - d.timeStartCount) }
  match d.actionLast with
  | .prefailed =>
    if timer.timeFailedThreshold = 0 then none
    else
      let fdc := (127 * d.timeConsumed.setWidth 32 / (timer.timeFailedThreshold * 1000) :
        uint32).toInt
      let d := { d with freezedFollowePrefailed := true }
      some ((d.storeFDC (if fdc ≥ fdcMax then fdcMaxLess else if fdc < 0 then 0 else fdc))
        |>.notifierFDCChanged timer now)
  | .prepassed =>
    if timer.timePassedThreshold = 0 then none
    else
      let fdc := scaledPassed timer d.timeConsumed
      let d := { d with freezedFollowePrefailed := false }
      some ((d.storeFDC (if fdc ≤ fdcMin then fdcMinMore else if fdc > 0 then 0 else fdc))
        |>.notifierFDCChanged timer now)
  | _ => some d

def freezeDebouncing (b : Bool) : DebounceTimeBase :=
  let finish (d : DebounceTimeBase) : DebounceTimeBase :=
    { d with actionLast := if b then .freezeDebouncing else d.actionLast, freeze := b }
  if b ∧ d.timer ≠ none then
    match d.freezeTimer timer now with
    | none => { d.stopTimer with timeConsumed := d.timeConsumed + (now - d.timeStartCount) }
    | some d => finish d
  else finish d

/-- A report that may start the timer: the duration, if it does, and the state. -/
def prepare (threshold : uint32) (resumes : Bool) : Option uint32 × DebounceTimeBase :=
  if d.freeze ∧ resumes then
    (some (threshold - d.timeConsumed.setWidth 32 / 1000), { d with freeze := false })
  else (some threshold, { d with timeConsumed := 0 }.storeFDC 0)

/-- The end of `IndicateReportedStatus` -/
def finishReport (action : MonitorAction) (duration : Option uint32) : DebounceTimeBase :=
  let d := if d.timer ≠ none ∧ action ≠ d.actionLast then d.stopTimer else d
  let d :=
    match duration with
    | none => d
    | some seconds => { d with timeStartCount := now, timer := some (seconds * 1000) }
  { d with actionLast := action }

def indicateReportedStatus (action : MonitorAction) : DebounceTimeBase × List MonitorAction :=
  match action with
  | .prefailed =>
    let (duration, d) :=
      if d.fdc.debounceCounter ≠ fdcMax ∧ d.actionLast ≠ .prefailed ∧ d.actionLast ≠ .failed then
        d.prepare timer.timeFailedThreshold d.freezedFollowePrefailed
      else (none, d)
    (d.finishReport now action duration, [])
  | .prepassed =>
    let (duration, d) :=
      if d.fdc.debounceCounter ≠ fdcMin ∧ d.actionLast ≠ .prepassed ∧ d.actionLast ≠ .passed then
        d.prepare timer.timePassedThreshold (!d.freezedFollowePrefailed)
      else (none, d)
    (d.finishReport now action duration, [])
  | .failed =>
    let (d, results) := d.setFDC timer now fdcMax
    (d.finishReport now action none, results)
  | .passed =>
    let (d, results) := d.setFDC timer now fdcMin
    (d.finishReport now action none, results)
  | .freezeDebouncing => ((d.freezeDebouncing timer now true).finishReport now action none, [])
  | .resetDebouncing =>
    ({ d.reset timer now with freeze := false }.finishReport now action none, [])
  | .fdcThresholdReached | .resetTestFailed => (d, [])

def timeout : DebounceTimeBase × List MonitorAction :=
  let d := d.stopTimer
  let (d, results) :=
    match d.actionLast with
    | .prefailed => d.setFDC timer now fdcMax
    | .prepassed => d.setFDC timer now fdcMin
    | _ => (d, [])
  ({ d with actionLast := .resetDebouncing }, results)

end

end DebounceTimeBase

structure DebounceUserDefined where
  fdc : Fdc := {}
  freeze : Bool := false
  deriving DecidableEq, Repr

namespace DebounceUserDefined

def setFDC (d : DebounceUserDefined) (fdc : ℤ) : DebounceUserDefined × List MonitorAction :=
  ({ d with fdc := d.fdc.setFDC fdc true }, qualified fdc)

/-- `IndicateReportedStatus`. An unqualified report only asks the monitor for its
fault detection counter. -/
def indicateReportedStatus (d : DebounceUserDefined) (action : MonitorAction) :
    DebounceUserDefined × List MonitorAction :=
  if d.freeze then (d, [])
  else
    match action with
    | .failed => d.setFDC fdcMax
    | .passed => d.setFDC fdcMin
    | _ => (d, [])

def reset (d : DebounceUserDefined) : DebounceUserDefined := { d with fdc := d.fdc.setFDC 0 true }

end DebounceUserDefined

inductive DebounceBehavior
  | freeze
  | reset
  deriving DecidableEq, Repr

/-- The debouncing of an event. The parameters are behind pointers that may be
null. -/
inductive Debounce
  | counterBase (params : Option CounterBased) (d : DebounceCounterBase)
  | timeBase (params : Option TimeBased) (d : DebounceTimeBase)
  | userDefined (d : DebounceUserDefined)
  deriving DecidableEq, Repr

namespace Debounce

variable (now : uint64)

def isTimeBase : Debounce → Bool
  | timeBase _ _ => true
  | _ => false

def indicateReportedStatus (action : MonitorAction) : Debounce → Debounce × List MonitorAction
  | counterBase none d => (counterBase none d, [])
  | counterBase (some params) d =>
    (counterBase (some params) (d.indicateReportedStatus params action).1,
      (d.indicateReportedStatus params action).2.toList)
  | timeBase none d => (timeBase none d, [])
  | timeBase (some params) d =>
    (timeBase (some params) (d.indicateReportedStatus params now action).1,
      (d.indicateReportedStatus params now action).2)
  | userDefined d =>
    (userDefined (d.indicateReportedStatus action).1, (d.indicateReportedStatus action).2)

def reset : Debounce → Debounce
  | counterBase params d => counterBase params d.reset
  | timeBase params d => timeBase params (d.reset (params.getD {}) now)
  | userDefined d => userDefined d.reset

def freeze (b : Bool) : Debounce → Debounce
  | counterBase params d => counterBase params d
  | timeBase none d => timeBase none d
  | timeBase (some params) d => timeBase (some params) (d.freezeDebouncing params now b)
  | userDefined d => userDefined { d with freeze := b }

def setFDC (fdc : ℤ) : Debounce → Debounce × List MonitorAction
  | counterBase params d => (counterBase params (d.setFDC fdc true), qualified fdc)
  | timeBase params d =>
    (timeBase params (d.setFDC (params.getD {}) now fdc).1, (d.setFDC (params.getD {}) now fdc).2)
  | userDefined d => (userDefined (d.setFDC fdc).1, (d.setFDC fdc).2)

def timeout : Debounce → Option (Debounce × List MonitorAction)
  | timeBase params d =>
    if d.timer = none then none
    else
      some (timeBase params (d.timeout (params.getD {}) now).1, (d.timeout (params.getD {}) now).2)
  | _ => none

def getFaultDetectionCounter : Debounce → ℤ × Debounce
  | counterBase params d =>
    (d.fdc.getFaultDetectionCounter.1,
      counterBase params { d with fdc := d.fdc.getFaultDetectionCounter.2 })
  | timeBase none d => (d.fdc.debounceCounter, timeBase none d)
  | timeBase (some params) d =>
    ((d.getFaultDetectionCounter params now).1,
      timeBase (some params) (d.getFaultDetectionCounter params now).2)
  | userDefined d =>
    (d.fdc.getFaultDetectionCounter.1, userDefined { d with fdc := d.fdc.getFaultDetectionCounter.2 })

def setDebounceCounterParam (counter : CounterBased) : Debounce → Debounce
  | counterBase (some _) d => counterBase (some counter) d
  | d => d

def setDebounceTimerParam (timer : TimeBased) : Debounce → Debounce
  | timeBase (some _) d => timeBase (some timer) d
  | d => d

/-- A change of the maxima that the event keeps. -/
def mapFdc (f : Fdc → Fdc) : Debounce → Debounce
  | counterBase params d => counterBase params { d with fdc := f d.fdc }
  | timeBase params d => timeBase params { d with fdc := f d.fdc }
  | userDefined d => userDefined { d with fdc := f d.fdc }

end Debounce

end AdaptivePlatform.Diag
