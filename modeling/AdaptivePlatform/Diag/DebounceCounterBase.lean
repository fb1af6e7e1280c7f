import AdaptivePlatform.Foundations.Bytes

/-!
# Counter-based debouncing

A monitor reports unqualified results; the debounce counter qualifies an event
as failed or passed when it reaches a threshold. The event has installed a
notifier with the debouncing that is called after a change of the counter and
reads it as a fault detection counter of 8 bits; this read writes the clamped
value back.
-/
namespace AdaptivePlatform.Diag

abbrev int16 := BitVec 16

inductive MonitorAction
  | passed
  | failed
  | prepassed
  | prefailed
  | fdcThresholdReached
  | resetTestFailed
  | freezeDebouncing
  | resetDebouncing
  deriving DecidableEq, Repr

def fdcMax : ℤ := 127

def fdcMin : ℤ := -128

/-- The members of `DebounceInterface` that the three kinds of debouncing share,
and the maxima that the notifier of the event keeps. -/
structure Fdc where
  debounceCounter : ℤ := 0
  maxFdcDuringCurCycle : ℤ := 0
  maxFdcSinceLastClear : ℤ := 0
  deriving DecidableEq, Repr

namespace Fdc

variable (f : Fdc) (fdc : ℤ)

/-- The notifier that `Event::Init` installs. -/
def recordMax : Fdc :=
  { f with
    maxFdcDuringCurCycle := if f.maxFdcDuringCurCycle < fdc then fdc else f.maxFdcDuringCurCycle
    maxFdcSinceLastClear := if f.maxFdcSinceLastClear < fdc then fdc else f.maxFdcSinceLastClear }

/-- `DebounceInterface::GetFaultDetectionCounter`, with the counter it leaves behind. -/
def getFaultDetectionCounter : ℤ × Fdc :=
  let f := if f.debounceCounter > fdcMax then { f with debounceCounter := fdcMax } else f
  let f := if f.debounceCounter < fdcMin then { f with debounceCounter := fdcMin } else f
  (f.debounceCounter, f)

def notifierFDCChanged : Fdc := f.getFaultDetectionCounter.2.recordMax f.getFaultDetectionCounter.1

def setFDC (notify : Bool) : Fdc :=
  let f := { f with debounceCounter := fdc }
  if notify then f.notifierFDCChanged else f

end Fdc

/-- `CounterBased`. The thresholds and jump values are signed. -/
structure CounterBased where
  counterDecrementStepSize : uint16 := 0
  counterFailedThreshold : int16 := 0
  counterIncrementStepSize : uint16 := 0
  counterPassedThreshold : int16 := 0
  counterJumpDown : Bool := false
  counterJumpDownValue : int16 := 0
  counterJumpUp : Bool := false
  counterJumpUpValue : int16 := 0
  deriving DecidableEq, Repr

structure DebounceCounterBase where
  fdc : Fdc := {}
  testFailReached : Bool := false
  testPassedReached : Bool := false
  deriving DecidableEq, Repr

/-- The debouncing, with the result that the event is notified of. -/
abbrev Debounced := DebounceCounterBase × Option MonitorAction

namespace DebounceCounterBase

variable (cfg : CounterBased) (d : DebounceCounterBase)

def getFDC : ℤ := d.fdc.debounceCounter

def setFDC (fdc : ℤ) (notify : Bool) : DebounceCounterBase :=
  { d with fdc := d.fdc.setFDC fdc notify }

def checkJumpDown : DebounceCounterBase :=
  if cfg.counterJumpDown ∧ d.getFDC > cfg.counterJumpDownValue.toInt then
    d.setFDC cfg.counterJumpDownValue.toInt true
  else d

def checkJumpUp : DebounceCounterBase :=
  if cfg.counterJumpUp ∧ d.getFDC < cfg.counterJumpUpValue.toInt then
    d.setFDC cfg.counterJumpUpValue.toInt true
  else d

/-- `_CheckConditions` -/
def checkConditions : Debounced :=
  if d.getFDC ≥ cfg.counterFailedThreshold.toInt then
    let d := d.setFDC cfg.counterFailedThreshold.toInt false
    ({ d with testFailReached := true, fdc := d.fdc.notifierFDCChanged }, some .failed)
  else if d.getFDC ≤ cfg.counterPassedThreshold.toInt then
    let d := d.setFDC cfg.counterPassedThreshold.toInt false
    ({ d with testPassedReached := true, fdc := d.fdc.notifierFDCChanged }, some .passed)
  else ({ d with testPassedReached := false, testFailReached := false }, none)

def indicateReportedStatus (action : MonitorAction) : Debounced :=
  let d :=
    match action with
    | .prefailed =>
      let d := d.checkJumpUp cfg
      d.setFDC (d.getFDC + cfg.counterIncrementStepSize.toNat) true
    | .prepassed =>
      let d := d.checkJumpDown cfg
      d.setFDC (d.getFDC - cfg.counterDecrementStepSize.toNat) true
    | .failed => d.setFDC cfg.counterFailedThreshold.toInt true
    | .passed => d.setFDC cfg.counterPassedThreshold.toInt true
    | _ => d
  d.checkConditions cfg

def reset : DebounceCounterBase := d.setFDC 0 true

/-- What `_processMonitorActionEvent` passes on to counter-based debouncing. -/
def receive (action : MonitorAction) : Debounced :=
  match action with
  | .passed | .failed | .prepassed | .prefailed => d.indicateReportedStatus cfg action
  | .resetDebouncing => (d.reset, none)
  | .fdcThresholdReached | .resetTestFailed | .freezeDebouncing => (d, none)

def observations (cfg : CounterBased) :
    DebounceCounterBase → List MonitorAction → List (ℤ × Option MonitorAction)
  | _, [] => []
  | d, action :: actions =>
    ((d.receive cfg action).1.getFDC, (d.receive cfg action).2) ::
      observations cfg (d.receive cfg action).1 actions

end DebounceCounterBase

/-! ### The specified counter -/

namespace CounterBased

variable (cfg : CounterBased) (counter : ℤ)

def saturate : ℤ :=
  max cfg.counterPassedThreshold.toInt (min counter cfg.counterFailedThreshold.toInt)

/-- The counter after a report: first the jump, then the step, then saturation. -/
def specifiedCounter : MonitorAction → ℤ
  | .prefailed =>
    cfg.saturate ((if cfg.counterJumpUp then max counter cfg.counterJumpUpValue.toInt else counter) +
      cfg.counterIncrementStepSize.toNat)
  | .prepassed =>
    cfg.saturate
      ((if cfg.counterJumpDown then min counter cfg.counterJumpDownValue.toInt else counter) -
        cfg.counterDecrementStepSize.toNat)
  | .failed => cfg.counterFailedThreshold.toInt
  | .passed => cfg.counterPassedThreshold.toInt
  | .resetDebouncing => 0
  | .fdcThresholdReached | .resetTestFailed | .freezeDebouncing => counter

/-- A result is qualified when a test result takes the counter to its threshold. -/
def specifiedResult : MonitorAction → Option MonitorAction
  | .prefailed | .prepassed | .failed | .passed =>
    if counter = cfg.counterFailedThreshold.toInt then some .failed
    else if counter = cfg.counterPassedThreshold.toInt then some .passed
    else none
  | _ => none

def specification : ℤ → List MonitorAction → List (ℤ × Option MonitorAction)
  | _, [] => []
  | counter, action :: actions =>
    (cfg.specifiedCounter counter action,
        cfg.specifiedResult (cfg.specifiedCounter counter action) action) ::
      specification (cfg.specifiedCounter counter action) actions

/-- The thresholds as integers. -/
abbrev failed : ℤ := cfg.counterFailedThreshold.toInt

abbrev passed : ℤ := cfg.counterPassedThreshold.toInt

theorem saturate_eq : cfg.saturate counter = max cfg.passed (min counter cfg.failed) := rfl

theorem saturate_failed (h : cfg.passed < cfg.failed) : cfg.saturate cfg.failed = cfg.failed := by
  rw [saturate_eq]
  omega

theorem saturate_passed (h : cfg.passed < cfg.failed) : cfg.saturate cfg.passed = cfg.passed := by
  rw [saturate_eq]
  omega

theorem between_specification (hpassed : cfg.passed < 0) (hfailed : 0 < cfg.failed) {counter : ℤ}
    (hle : cfg.passed ≤ counter)
    (hge : counter ≤ cfg.failed) (actions : List MonitorAction) :
    ∀ p ∈ cfg.specification counter actions, cfg.passed ≤ p.1 ∧ p.1 ≤ cfg.failed := by
  induction actions generalizing counter with
  | nil => exact List.forall_mem_nil _
  | cons action actions ih =>
    have hnext : cfg.passed ≤ cfg.specifiedCounter counter action ∧
        cfg.specifiedCounter counter action ≤ cfg.failed := by
      simp only [failed, passed] at *
      cases action <;> simp only [specifiedCounter, saturate] <;> omega
    exact List.forall_mem_cons.mpr ⟨hnext, ih hnext.1 hnext.2⟩

end CounterBased

open CounterBased (saturate specifiedCounter specifiedResult)

def InFdcRange (counter : ℤ) : Prop := -128 ≤ counter ∧ counter ≤ 127

/-- What a read as fault detection counter leaves of the counter. -/
def clampFdc (counter : ℤ) : ℤ := max (-128) (min counter 127)

theorem inFdcRange_clampFdc (counter : ℤ) : InFdcRange (clampFdc counter) := by
  unfold InFdcRange clampFdc
  omega

theorem clampFdc_of_inFdcRange {counter : ℤ} (h : InFdcRange counter) :
    clampFdc counter = counter := by
  unfold InFdcRange at h
  unfold clampFdc
  omega

theorem Fdc.notifierFDCChanged_counter (f : Fdc) :
    f.notifierFDCChanged.debounceCounter = clampFdc f.debounceCounter := by
  unfold notifierFDCChanged getFaultDetectionCounter recordMax clampFdc fdcMax fdcMin
  dsimp only
  split_ifs <;> grind

namespace DebounceCounterBase

variable (cfg : CounterBased) (d : DebounceCounterBase)

@[simp] theorem getFDC_setFDC (fdc : ℤ) : (d.setFDC fdc true).getFDC = clampFdc fdc := by
  simp [setFDC, getFDC, Fdc.setFDC, Fdc.notifierFDCChanged_counter]

theorem getFDC_checkJumpUp :
    (d.checkJumpUp cfg).getFDC =
      if cfg.counterJumpUp ∧ d.getFDC < cfg.counterJumpUpValue.toInt then
        clampFdc cfg.counterJumpUpValue.toInt
      else d.getFDC := by
  unfold checkJumpUp
  split_ifs <;> simp

theorem getFDC_checkJumpDown :
    (d.checkJumpDown cfg).getFDC =
      if cfg.counterJumpDown ∧ d.getFDC > cfg.counterJumpDownValue.toInt then
        clampFdc cfg.counterJumpDownValue.toInt
      else d.getFDC := by
  unfold checkJumpDown
  split_ifs <;> simp

/-- A counter at or beyond a threshold is set to it and notified of. -/
theorem checkConditions_cases :
    (d.getFDC ≥ cfg.failed ∧ (d.checkConditions cfg).1.getFDC = clampFdc cfg.failed ∧
      (d.checkConditions cfg).2 = some .failed) ∨
    (¬ d.getFDC ≥ cfg.failed ∧ d.getFDC ≤ cfg.passed ∧
      (d.checkConditions cfg).1.getFDC = clampFdc cfg.passed ∧
      (d.checkConditions cfg).2 = some .passed) ∨
    (¬ d.getFDC ≥ cfg.failed ∧ ¬ d.getFDC ≤ cfg.passed ∧
      (d.checkConditions cfg).1.getFDC = d.getFDC ∧ (d.checkConditions cfg).2 = none) := by
  unfold checkConditions
  split_ifs with hfailed hpassed
  · exact .inl ⟨hfailed, Fdc.notifierFDCChanged_counter _, rfl⟩
  · exact .inr (.inl ⟨hfailed, hpassed, Fdc.notifierFDCChanged_counter _, rfl⟩)
  · exact .inr (.inr ⟨hfailed, hpassed, rfl, rfl⟩)

theorem inFdcRange_checkConditions (h : InFdcRange d.getFDC) :
    InFdcRange (d.checkConditions cfg).1.getFDC := by
  rcases d.checkConditions_cases cfg with ⟨-, hfdc, -⟩ | ⟨-, -, hfdc, -⟩ | ⟨-, -, hfdc, -⟩ <;>
    rw [hfdc]
  · exact inFdcRange_clampFdc _
  · exact inFdcRange_clampFdc _
  · exact h

/-- Between two reports the counter has 8 bits; so the 32-bit arithmetic of a step
does not overflow. -/
theorem inFdcRange_receive (h : InFdcRange d.getFDC) (action : MonitorAction) :
    InFdcRange (d.receive cfg action).1.getFDC := by
  cases action with
  | prefailed | prepassed | failed | passed =>
    refine inFdcRange_checkConditions cfg _ ?_
    simpa using inFdcRange_clampFdc _
  | resetDebouncing => simpa [receive, reset] using inFdcRange_clampFdc 0
  | fdcThresholdReached | resetTestFailed | freezeDebouncing => exact h

variable {cfg d}

/-- The end of a report: clamping the counter first does not change where the
specification saturates it, as long as the result is in the range. -/
theorem checkConditions_eq {counter : ℤ} (hcounter : d.getFDC = clampFdc counter)
    (hthresholds : cfg.passed < cfg.failed)
    (hspec : InFdcRange (cfg.saturate counter)) :
    (d.checkConditions cfg).1.getFDC = cfg.saturate counter ∧
      (d.checkConditions cfg).2 = if cfg.saturate counter = cfg.failed then some .failed
        else if cfg.saturate counter = cfg.passed then some .passed
        else none := by
  rw [CounterBased.saturate_eq] at hspec ⊢
  unfold InFdcRange at hspec
  unfold clampFdc at hcounter
  generalize hf : cfg.failed = failed at *
  generalize hp : cfg.passed = passed at *
  have hcases := d.checkConditions_cases cfg
  rw [hf, hp] at hcases
  rcases hcases with ⟨hfailed, hfdc, hresult⟩ | ⟨hfailed, hpassed, hfdc, hresult⟩ |
    ⟨hfailed, hpassed, hfdc, hresult⟩
  · have hsaturated : max passed (min counter failed) = failed := by omega
    have hrange : InFdcRange failed := hsaturated ▸ hspec
    rw [hfdc, hresult, hsaturated, clampFdc_of_inFdcRange hrange]
    simp
  · have hsaturated : max passed (min counter failed) = passed := by omega
    have hrange : InFdcRange passed := hsaturated ▸ hspec
    rw [hfdc, hresult, hsaturated, clampFdc_of_inFdcRange hrange]
    simp [hthresholds.ne]
  · have hsaturated : max passed (min counter failed) = d.getFDC := by omega
    rw [hfdc, hresult, hsaturated]
    exact ⟨rfl, by grind⟩

theorem receive_eq (hrange : InFdcRange d.getFDC) (hthresholds : cfg.passed < cfg.failed)
    {action : MonitorAction} (hspec : InFdcRange (cfg.specifiedCounter d.getFDC action)) :
    (d.receive cfg action).1.getFDC = cfg.specifiedCounter d.getFDC action ∧
      (d.receive cfg action).2 =
        cfg.specifiedResult (cfg.specifiedCounter d.getFDC action) action := by
  have hd := hrange
  unfold InFdcRange at hd
  cases action with
  | prefailed =>
    refine checkConditions_eq ?_ hthresholds hspec
    rw [getFDC_setFDC, getFDC_checkJumpUp]
    unfold clampFdc
    cases cfg.counterJumpUp with
    | false => simp
    | true => simp only [true_and]; split_ifs <;> omega
  | prepassed =>
    refine checkConditions_eq ?_ hthresholds hspec
    rw [getFDC_setFDC, getFDC_checkJumpDown]
    unfold clampFdc
    cases cfg.counterJumpDown with
    | false => simp
    | true => simp only [true_and]; split_ifs <;> omega
  | failed =>
    have hsaturate := cfg.saturate_failed hthresholds
    have hspec : InFdcRange (cfg.saturate cfg.failed) := hsaturate.symm ▸ hspec
    simpa [receive, indicateReportedStatus, hsaturate, specifiedCounter,
      specifiedResult] using checkConditions_eq (getFDC_setFDC d _) hthresholds hspec
  | passed =>
    have hsaturate := cfg.saturate_passed hthresholds
    have hspec : InFdcRange (cfg.saturate cfg.passed) := hsaturate.symm ▸ hspec
    simpa [receive, indicateReportedStatus, hsaturate, specifiedCounter,
      specifiedResult] using checkConditions_eq (getFDC_setFDC d _) hthresholds hspec
  | resetDebouncing => simp [receive, reset, specifiedCounter, specifiedResult, clampFdc]
  | fdcThresholdReached | resetTestFailed | freezeDebouncing => exact ⟨rfl, rfl⟩

theorem inFdcRange_observations (hrange : InFdcRange d.getFDC) (actions : List MonitorAction) :
    ∀ p ∈ observations cfg d actions, InFdcRange p.1 := by
  induction actions generalizing d with
  | nil => exact List.forall_mem_nil _
  | cons action actions ih =>
    have hnext := inFdcRange_receive cfg d hrange action
    exact List.forall_mem_cons.mpr ⟨hnext, ih hnext⟩

theorem inFdcRange_start : InFdcRange (getFDC {}) := by
  show -128 ≤ (0 : ℤ) ∧ (0 : ℤ) ≤ 127
  omega

/-- The induction carries the counter: as long as the specified one stays in the
range, the counters are equal and the next report starts from the same value. -/
theorem observations_eq_iff (hrange : InFdcRange d.getFDC) (hthresholds : cfg.passed < cfg.failed)
    (actions : List MonitorAction) :
    observations cfg d actions = cfg.specification d.getFDC actions ↔
      ∀ p ∈ cfg.specification d.getFDC actions, InFdcRange p.1 := by
  constructor
  · intro heq
    rw [← heq]
    exact inFdcRange_observations hrange actions
  · intro hspec
    induction actions generalizing d with
    | nil => rfl
    | cons action actions ih =>
      obtain ⟨hhead, htail⟩ := List.forall_mem_cons.mp hspec
      obtain ⟨hcounter, hresult⟩ := receive_eq hrange hthresholds hhead
      rw [← hcounter] at htail
      rw [observations, CounterBased.specification, hcounter, hresult, ← hcounter,
        ih (inFdcRange_receive cfg d hrange action) htail]

end DebounceCounterBase

open DebounceCounterBase

/-- Counter-based debouncing follows the specification along a sequence of reports
precisely when the specified counters are all fault detection counters. -/
theorem counterDebouncing_iff (cfg : CounterBased)
    (hpassed : cfg.counterPassedThreshold.toInt < 0) (hfailed : 0 < cfg.counterFailedThreshold.toInt)
    (actions : List MonitorAction) :
    observations cfg {} actions = cfg.specification 0 actions ↔
      ∀ p ∈ cfg.specification 0 actions, -128 ≤ p.1 ∧ p.1 ≤ 127 :=
  observations_eq_iff inFdcRange_start (hpassed.trans hfailed) actions

theorem counterDebouncing_iff_prefailed :
    let cfg : CounterBased :=
      { counterFailedThreshold := 100, counterPassedThreshold := -100,
        counterIncrementStepSize := 60 }
    observations cfg {} [.prefailed, .prefailed] = cfg.specification 0 [.prefailed, .prefailed] ↔
      ∀ p ∈ cfg.specification 0 [.prefailed, .prefailed], -128 ≤ p.1 ∧ p.1 ≤ 127 :=
  counterDebouncing_iff _ (by decide) (by decide) _

/-- With a threshold above 127 a report of a failure qualifies nothing. -/
theorem counterDebouncing_never_fails :
    let cfg : CounterBased := { counterFailedThreshold := 200, counterPassedThreshold := -100 }
    cfg.counterPassedThreshold.toInt < 0 ∧ 0 < cfg.counterFailedThreshold.toInt ∧
      observations cfg {} [.failed] = [(127, none)] ∧
      cfg.specification 0 [.failed] = [(200, some .failed)] := by
  decide

/-- A configuration is safe for every sequence of reports precisely when its
thresholds are fault detection counters themselves. -/
theorem counterDebouncing_all_iff (cfg : CounterBased) (hpassed : cfg.passed < 0)
    (hfailed : 0 < cfg.failed) :
    (∀ actions, observations cfg {} actions = cfg.specification 0 actions) ↔
      -128 ≤ cfg.passed ∧ cfg.failed ≤ 127 := by
  have hthresholds := hpassed.trans hfailed
  constructor
  · intro h
    have hlow := (observations_eq_iff inFdcRange_start hthresholds [.passed]).mp (h _) _
      List.mem_cons_self
    have hhigh := (observations_eq_iff inFdcRange_start hthresholds [.failed]).mp (h _) _
      List.mem_cons_self
    exact ⟨hlow.1, hhigh.2⟩
  · rintro ⟨hlow, hhigh⟩ actions
    refine (observations_eq_iff inFdcRange_start hthresholds actions).mpr fun p hp => ?_
    have hbetween := cfg.between_specification hpassed hfailed hpassed.le hfailed.le actions p hp
    exact ⟨hlow.trans hbetween.1, hbetween.2.trans hhigh⟩

theorem counterDebouncing_all_widest :
    let cfg : CounterBased := { counterFailedThreshold := 127, counterPassedThreshold := -128 }
    ∀ actions, observations cfg {} actions = cfg.specification 0 actions :=
  (counterDebouncing_all_iff _ (by decide) (by decide)).mpr (by decide)

/-! ### The presented counter -/

namespace DebounceCounterBase

variable (d : DebounceCounterBase)

/-- `Event::GetTestComplete`. -/
def getTestComplete : Bool :=
  let count := d.fdc.getFaultDetectionCounter.1
  fdcMin = count || fdcMax = count

/-- A report, with what the last one that reached the debouncing qualified. -/
def report (cfg : CounterBased) (s : Debounced) :
    MonitorAction → Debounced
  | .fdcThresholdReached | .resetTestFailed | .freezeDebouncing => s
  | action => s.1.receive cfg action

/-- The thresholds are presented as the ends of the range of a fault detection counter. -/
structure PresentsThresholds (cfg : CounterBased)
    (s : Debounced) : Prop where
  failed : s.1.fdc.getFaultDetectionCounter.1 = 127 ↔ s.1.getFDC = cfg.counterFailedThreshold.toInt
  passed : s.1.fdc.getFaultDetectionCounter.1 = -128 ↔ s.1.getFDC = cfg.counterPassedThreshold.toInt
  between : s.1.getFDC ≠ cfg.counterFailedThreshold.toInt →
    s.1.getFDC ≠ cfg.counterPassedThreshold.toInt →
    -128 < s.1.fdc.getFaultDetectionCounter.1 ∧ s.1.fdc.getFaultDetectionCounter.1 < 127
  complete : s.1.getTestComplete = true ↔ s.2.isSome

/-- With thresholds 127 and -128: a result is qualified at the ends of the range. -/
structure QualifiedAtEnds (s : Debounced) : Prop where
  inFdcRange : InFdcRange s.1.getFDC
  qualified : s.2.isSome ↔ s.1.getFDC = 127 ∨ s.1.getFDC = -128

variable {cfg : CounterBased} {d : DebounceCounterBase}
  {s : Debounced}

theorem getFaultDetectionCounter_eq : d.fdc.getFaultDetectionCounter.1 = clampFdc d.getFDC := by
  unfold Fdc.getFaultDetectionCounter clampFdc fdcMax fdcMin getFDC
  split_ifs <;> grind

theorem getTestComplete_iff :
    d.getTestComplete = true ↔ clampFdc d.getFDC = 127 ∨ clampFdc d.getFDC = -128 := by
  simp only [getTestComplete, getFaultDetectionCounter_eq, Bool.or_eq_true, decide_eq_true_eq]
  tauto

/-- A threshold to which the counter is set stays there as far as it is in the range. -/
theorem getFDC_checkConditions_clamped (hpassed : cfg.passed < 0) (hfailed : 0 < cfg.failed) {t : ℤ}
    (ht : t = cfg.failed ∨ t = cfg.passed)
    (hd : d.getFDC = clampFdc t) : (d.checkConditions cfg).1.getFDC = clampFdc t := by
  have hclamp := hd
  unfold clampFdc at hclamp
  rcases d.checkConditions_cases cfg with ⟨hf, hfdc, -⟩ | ⟨hf, hp, hfdc, -⟩ | ⟨-, -, hfdc, -⟩
  · rw [hfdc, show t = cfg.failed by omega]
  · rw [hfdc, show t = cfg.passed by omega]
  · rw [hfdc, hd]

section

variable (hfailed : cfg.failed = 127) (hpassed : cfg.passed = -128)
include hfailed hpassed

theorem qualifiedAtEnds_checkConditions (h : InFdcRange d.getFDC) :
    QualifiedAtEnds (d.checkConditions cfg) := by
  refine ⟨d.inFdcRange_checkConditions cfg h, ?_⟩
  rcases d.checkConditions_cases cfg with ⟨-, hfdc, hresult⟩ | ⟨-, -, hfdc, hresult⟩ |
    ⟨hf, hp, hfdc, hresult⟩
  · simp [hfdc, hresult, hfailed, clampFdc]
  · simp [hfdc, hresult, hpassed, clampFdc]
  · rw [hfdc, hresult, Option.isSome_none]
    simp only [Bool.false_eq_true, false_iff]
    omega

theorem QualifiedAtEnds.report (h : QualifiedAtEnds s) (action : MonitorAction) :
    QualifiedAtEnds (report cfg s action) := by
  cases action with
  | prefailed | prepassed | failed | passed =>
    refine qualifiedAtEnds_checkConditions hfailed hpassed ?_
    simpa using inFdcRange_clampFdc _
  | resetDebouncing =>
    refine ⟨inFdcRange_receive cfg s.1 h.inFdcRange _, ?_⟩
    simp [DebounceCounterBase.report, receive, reset, clampFdc]
  | fdcThresholdReached | resetTestFailed | freezeDebouncing => exact h

theorem QualifiedAtEnds.presentsThresholds (h : QualifiedAtEnds s) : PresentsThresholds cfg s := by
  have hclamp := clampFdc_of_inFdcRange h.inFdcRange
  obtain ⟨⟨hlow, hhigh⟩, hqualified⟩ := h
  constructor
  · simp only [getFaultDetectionCounter_eq, hclamp, hfailed]
  · simp only [getFaultDetectionCounter_eq, hclamp, hpassed]
  · simp only [getFaultDetectionCounter_eq, hclamp, hfailed, hpassed]
    omega
  · rw [getTestComplete_iff, hclamp, hqualified]

end

end DebounceCounterBase

/-- The thresholds are presented as the ends of the range only where they are these ends. -/
theorem presentsThresholds_iff (cfg : CounterBased)
    (hpassed : cfg.counterPassedThreshold.toInt < 0)
    (hfailed : 0 < cfg.counterFailedThreshold.toInt) :
    (∀ actions : List MonitorAction,
        PresentsThresholds cfg (actions.foldl (report cfg) ({}, none))) ↔
      cfg.counterFailedThreshold.toInt = 127 ∧ cfg.counterPassedThreshold.toInt = -128 := by
  constructor
  · intro h
    have hfailedFdc : (report cfg ({}, none) .failed).1.getFDC = _ :=
      getFDC_checkConditions_clamped hpassed hfailed (.inl rfl) (getFDC_setFDC _ _)
    have hpassedFdc : (report cfg ({}, none) .passed).1.getFDC = _ :=
      getFDC_checkConditions_clamped hpassed hfailed (.inr rfl) (getFDC_setFDC _ _)
    have hf := (h [.failed]).failed
    have hp := (h [.passed]).passed
    simp only [List.foldl_cons, List.foldl_nil, getFaultDetectionCounter_eq, hfailedFdc,
      hpassedFdc] at hf hp
    simp only [clampFdc, CounterBased.failed, CounterBased.passed] at hf hp
    omega
  · rintro ⟨hf, hp⟩ actions
    have hstart : QualifiedAtEnds ({}, none) := ⟨inFdcRange_start, by decide⟩
    have hend : QualifiedAtEnds (actions.foldl (report cfg) ({}, none)) := by
      generalize (({}, none) : Debounced) = s at hstart ⊢
      induction actions generalizing s with
      | nil => exact hstart
      | cons action actions ih => exact ih _ (hstart.report hf hp action)
    exact hend.presentsThresholds hf hp

theorem presentsThresholds_ends :
    let cfg : CounterBased := { counterFailedThreshold := 127, counterPassedThreshold := -128 }
    PresentsThresholds cfg (report cfg ({}, none) .failed) :=
  (presentsThresholds_iff _ (by decide) (by decide)).mpr (by decide) [.failed]

/-- A failure qualified at the threshold 10 is presented as 10 and not complete. -/
theorem not_presentsThresholds_ten :
    let cfg : CounterBased := { counterFailedThreshold := 10, counterPassedThreshold := -10 }
    ¬ PresentsThresholds cfg (report cfg ({}, none) .failed) := by
  intro cfg h
  exact absurd h.complete (by decide)

end AdaptivePlatform.Diag
