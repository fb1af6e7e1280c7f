import AdaptivePlatform.Diag.DebounceCounterBase

/-!
# The status of events and of trouble codes

An event has three status bits, its trouble code (DTC) a status byte with the same
three and five more. The two are kept by handlers of their own.
-/
namespace AdaptivePlatform.Diag

inductive EventStatusBit
  | testFailed
  | testFailedThisOperationCycle
  | testNotCompletedThisOperationCycle
  deriving DecidableEq, Repr

def EventStatusBit.position : EventStatusBit → ℕ
  | testFailed => 0
  | testFailedThisOperationCycle => 1
  | testNotCompletedThisOperationCycle => 6

inductive DTCStatusBit
  | testFailed
  | testFailedThisOperationCycle
  | pendingDTC
  | confirmedDTC
  | testNotCompletedSinceLastClear
  | testFailedSinceLastClear
  | testNotCompletedThisOperationCycle
  | warningIndicatorRequested
  deriving DecidableEq, Repr

def DTCStatusBit.position : DTCStatusBit → ℕ
  | testFailed => 0
  | testFailedThisOperationCycle => 1
  | pendingDTC => 2
  | confirmedDTC => 3
  | testNotCompletedSinceLastClear => 4
  | testFailedSinceLastClear => 5
  | testNotCompletedThisOperationCycle => 6
  | warningIndicatorRequested => 7

/-- The bitset of 7 bits in `EventStatus`. -/
structure EventStatus where
  eventStatus : BitVec 7

namespace EventStatus

variable (s : EventStatus) (bit : EventStatusBit)

def get : Bool := s.eventStatus.getLsbD bit.position

def set : EventStatus := ⟨s.eventStatus ||| BitVec.twoPow 7 bit.position⟩

def reset : EventStatus := ⟨s.eventStatus &&& ~~~ BitVec.twoPow 7 bit.position⟩

def create : EventStatus := set ⟨0⟩ .testNotCompletedThisOperationCycle

def clear : EventStatus :=
  ((s.reset .testFailed).reset .testFailedThisOperationCycle).set
    .testNotCompletedThisOperationCycle

def clearOnThisCycleAndReadiness : EventStatus :=
  (s.reset .testFailedThisOperationCycle).set .testNotCompletedThisOperationCycle

variable (b b' : EventStatusBit)

@[simp] theorem get_set : (s.set b).get b' = (s.get b' || decide (b = b')) := by
  cases b <;> cases b' <;> simp [get, set, EventStatusBit.position]

@[simp] theorem get_reset : (s.reset b).get b' = (s.get b' && !decide (b = b')) := by
  cases b <;> cases b' <;> simp [get, reset, EventStatusBit.position]

end EventStatus

/-- The bitset of 8 bits in `DTCStatus`. -/
structure DTCStatus where
  currentStatus : uint8
  deriving DecidableEq, Repr

namespace DTCStatus

variable (s : DTCStatus) (bitPosition : DTCStatusBit)

def get : Bool := s.currentStatus.getLsbD bitPosition.position

def set : DTCStatus := ⟨s.currentStatus ||| BitVec.twoPow 8 bitPosition.position⟩

def reset : DTCStatus := ⟨s.currentStatus &&& ~~~ BitVec.twoPow 8 bitPosition.position⟩

def create : DTCStatus :=
  (set ⟨0⟩ .testNotCompletedSinceLastClear).set .testNotCompletedThisOperationCycle

def clear (isWIRLock : Bool) : DTCStatus :=
  let s := (((s.reset .testFailed).reset .testFailedThisOperationCycle).reset .pendingDTC).reset
    .confirmedDTC
  let s := ((s.set .testNotCompletedSinceLastClear).reset .testFailedSinceLastClear).set
    .testNotCompletedThisOperationCycle
  if isWIRLock then s else s.reset .warningIndicatorRequested

def clearOnThisCycleAndReadiness : DTCStatus :=
  (((s.reset .testFailedThisOperationCycle).set .testNotCompletedSinceLastClear).reset
    .testFailedSinceLastClear).set .testNotCompletedThisOperationCycle

variable (b b' : DTCStatusBit)

@[simp] theorem get_set : (s.set b).get b' = (s.get b' || decide (b = b')) := by
  cases b <;> cases b' <;> simp [get, set, DTCStatusBit.position]

@[simp] theorem get_reset : (s.reset b).get b' = (s.get b' && !decide (b = b')) := by
  cases b <;> cases b' <;> simp [get, reset, DTCStatusBit.position]

theorem ext_get {s t : DTCStatus} (h : ∀ b, s.get b = t.get b) : s = t := by
  obtain ⟨s⟩ := s
  congr 1
  refine BitVec.eq_of_getLsbD_eq fun i hi => ?_
  obtain rfl | rfl | rfl | rfl | rfl | rfl | rfl | rfl :
      i = 0 ∨ i = 1 ∨ i = 2 ∨ i = 3 ∨ i = 4 ∨ i = 5 ∨ i = 6 ∨ i = 7 := by omega
  · exact h .testFailed
  · exact h .testFailedThisOperationCycle
  · exact h .pendingDTC
  · exact h .confirmedDTC
  · exact h .testNotCompletedSinceLastClear
  · exact h .testFailedSinceLastClear
  · exact h .testNotCompletedThisOperationCycle
  · exact h .warningIndicatorRequested

end DTCStatus

inductive ClearEventAllowedBehavior
  | noStatusByteChange
  | onlyThisCycleAndReadiness
  deriving DecidableEq, Repr

namespace EventStatusHandler

variable (status : EventStatus)

def setStatus (actionType : MonitorAction) (recoverableInSameOperationCycle : Bool) : EventStatus :=
  match actionType with
  | .failed =>
    ((status.set .testFailed).set .testFailedThisOperationCycle).reset
      .testNotCompletedThisOperationCycle
  | .passed =>
    let status :=
      if recoverableInSameOperationCycle ∧ status.get .testFailedThisOperationCycle then
        status.reset .testFailed
      else status
    (status.reset .testFailedThisOperationCycle).reset .testNotCompletedThisOperationCycle
  | _ => status

def reset (status : EventStatus) : EventStatus := status.reset .testFailed

def clearForbidden : ClearEventAllowedBehavior → EventStatus
  | .noStatusByteChange => status
  | .onlyThisCycleAndReadiness => status.clearOnThisCycleAndReadiness

def opCycleStartedStatusChange : EventStatus :=
  (status.reset .testFailedThisOperationCycle).set .testNotCompletedThisOperationCycle

end EventStatusHandler

namespace DTCStatusHandler

variable (status : DTCStatus)

def setStatus (actionType : MonitorAction) (failureCycleCountReached : Bool)
    (hasIndicator recoverableInSameOperationCycle : Bool) : DTCStatus :=
  match actionType with
  | .failed =>
    let status := ((status.set .testFailed).set .testFailedThisOperationCycle).set .pendingDTC
    let status := if failureCycleCountReached then status.set .confirmedDTC else status
    let status := ((status.set .testFailedSinceLastClear).reset
      .testNotCompletedSinceLastClear).reset .testNotCompletedThisOperationCycle
    if hasIndicator ∧ status.get .confirmedDTC then status.set .warningIndicatorRequested
    else status
  | .passed =>
    let status :=
      if recoverableInSameOperationCycle ∨ ¬ status.get .testFailedThisOperationCycle then
        status.reset .testFailed
      else status
    (status.reset .testNotCompletedSinceLastClear).reset .testNotCompletedThisOperationCycle
  | _ => status

def reset (status : DTCStatus) : DTCStatus := status.reset .testFailed

def clearForbidden : ClearEventAllowedBehavior → DTCStatus
  | .noStatusByteChange => status
  | .onlyThisCycleAndReadiness => status.clearOnThisCycleAndReadiness

def opCycleStartedStatusChange : DTCStatus :=
  (status.reset .testFailedThisOperationCycle).set .testNotCompletedThisOperationCycle

def opCycleStoppedStatusChange : DTCStatus :=
  if ¬ status.get .testFailedThisOperationCycle ∧
      ¬ status.get .testNotCompletedThisOperationCycle then
    status.reset .pendingDTC
  else status

/-- The end of a cycle changes nothing but pendingDTC. -/
theorem get_opCycleStoppedStatusChange {b : DTCStatusBit}
    (hb : b ≠ .pendingDTC) : (opCycleStoppedStatusChange status).get b = status.get b := by
  unfold opCycleStoppedStatusChange
  split_ifs
  · simp [hb.symm]
  · rfl

def setStatusWIR (b : Bool) : DTCStatus :=
  if b then status.set .warningIndicatorRequested else status.reset .warningIndicatorRequested

end DTCStatusHandler

/-- The members of `Dtc` that results and cycles change. -/
structure Dtc where
  status : DTCStatus := DTCStatus.create
  tripCounter : uint32 := 0

namespace Dtc

def setStatus (dtc : Dtc) (actionType : MonitorAction) (confirmThreshold : uint32)
    (hasIndicator recoverableInSameOperationCycle : Bool) : Dtc :=
  let tripCounter :=
    if actionType = .failed ∧ ¬ dtc.status.get .testFailedThisOperationCycle then
      dtc.tripCounter + 1
    else dtc.tripCounter
  { tripCounter := if tripCounter ≥ confirmThreshold then 0 else tripCounter
    status := DTCStatusHandler.setStatus dtc.status actionType (tripCounter ≥ confirmThreshold)
      hasIndicator recoverableInSameOperationCycle }

def resetStatus (dtc : Dtc) : Dtc := { dtc with status := DTCStatusHandler.reset dtc.status }

def setStatusWIR (dtc : Dtc) (b : Bool) : Dtc :=
  { dtc with status := DTCStatusHandler.setStatusWIR dtc.status b }

def opCycleStartedStatusChange (dtc : Dtc) : Dtc :=
  { dtc with status := DTCStatusHandler.opCycleStartedStatusChange dtc.status }

def opCycleStoppedStatusChange (dtc : Dtc) : Dtc where
  tripCounter :=
    if ¬ dtc.status.get .testFailedThisOperationCycle ∧
        ¬ dtc.status.get .testNotCompletedThisOperationCycle then 0
    else dtc.tripCounter
  status := DTCStatusHandler.opCycleStoppedStatusChange dtc.status

/-- `Clear`. `isForbidden` is the answer of the clear condition group. -/
def clear (dtc : Dtc) (isForbidden : Bool) (behavior : ClearEventAllowedBehavior)
    (isWIRLock : Bool) : Dtc where
  tripCounter := 0
  status :=
    if isForbidden then DTCStatusHandler.clearForbidden dtc.status behavior
    else dtc.status.clear isWIRLock

end Dtc

end AdaptivePlatform.Diag
