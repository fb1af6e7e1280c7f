import AdaptivePlatform.Diag.Status
import AdaptivePlatform.Diag.Debounce

/-!
# Fault memory

A memory destination stores an entry for each trouble code whose storage trigger
holds, up to a maximum; when it is full, a displacement strategy decides whether
an entry makes room for the new one. Clearing or aging a trouble code empties
its entry.
-/
namespace AdaptivePlatform.Diag

inductive OccurrenceCounterProcessing
  | confirmedDtcBit
  | testFailedBit
  deriving DecidableEq, Repr

inductive StatusBitHandlingTestFailedSinceLastClear
  | statusBitAgingAndDisplacement
  | statusBitNormal
  deriving DecidableEq, Repr

structure CommonProps where
  agingRequiresTestedCycle : Bool := false
  occurrenceCounterProcessing : OccurrenceCounterProcessing := .testFailedBit
  statusBitStorageTestFailed : Bool := false
  resetConfirmedBitOnOverflow : Bool := false
  statusBitHandlingTestFailedSinceLastClear : StatusBitHandlingTestFailedSinceLastClear :=
    .statusBitNormal

/-- What the entries ask of the context: the common properties, and the priority of
the trouble code with a given number, if there is one. -/
structure Context where
  props : CommonProps := {}
  getDtcByValue : uint32 → Option uint8

inductive DisplacementStrategy
  | full
  | none
  | prioOcc
  deriving DecidableEq, Repr

inductive MemoryEntryStorageTrigger
  | confirmed
  | fdcThreshold
  | pending
  | testFailed

structure DestinationConfig where
  maxNumberOfEventEntries : uint32 := 0
  displacementStrategy : DisplacementStrategy := .none
  memoryEntryStorageTrigger : MemoryEntryStorageTrigger := .confirmed
  isPrimary : Bool := true

structure MemoryEntry where
  dtcValue : uint32 := 0
  time : uint64 := 0
  occurrenceCounter : uint8 := 1
  fdc : int8 := 0
  /-- `kDefaultDtcStatus` -/
  dtcStatus : DTCStatus := ⟨0x80⟩
  agingCounter : uint32 := 0
  deriving DecidableEq, Repr

namespace MemoryEntry

variable (ctx : Context) (entry : MemoryEntry)

def setDtcStatus (status : DTCStatus) : MemoryEntry := { entry with dtcStatus := status }

/-- `Clear`. The number and the status of the trouble code stay. -/
def clear : MemoryEntry :=
  { entry with time := 0, occurrenceCounter := 0, fdc := 0, agingCounter := 0 }

def agingReset : MemoryEntry := { entry with agingCounter := 0 }

def agingIncrement : MemoryEntry := { entry with agingCounter := entry.agingCounter + 1 }

def occurrenceCounterIncrement : MemoryEntry :=
  if entry.occurrenceCounter = 0xFF then entry
  else { entry with occurrenceCounter := entry.occurrenceCounter + 1 }

def getPriority : uint8 := (ctx.getDtcByValue entry.dtcValue).getD 1

def isPassive : Bool := ctx.props.statusBitStorageTestFailed && !entry.dtcStatus.get .testFailed

end MemoryEntry

/-- The map `entries_`, by the number of the trouble code. -/
abbrev Entries := Std.TreeMap uint32 MemoryEntry

/-- `std::sort` with `CompareEntryByTimeUpOrder`. The order of entries with the same
time is not specified. -/
structure TimeSort where
  sort : List MemoryEntry → List MemoryEntry
  perm : ∀ entries, List.Perm (sort entries) entries
  sorted : ∀ entries, (sort entries).Pairwise fun e e' => e.time ≤ e'.time

namespace MemoryDestination

section

variable (ctx : Context) (entries : Entries) (sorting : TimeSort) (priorityNew : uint8)

/-- `_getLowestPriorityEntries`. A larger number is a lower priority. -/
def getLowestPriorityEntries : List MemoryEntry :=
  (entries.toList.foldl (fun (found : uint8 × List MemoryEntry) (item : uint32 × MemoryEntry) =>
    if found.1 < item.2.getPriority ctx then (item.2.getPriority ctx, [item.2]) else found)
    (priorityNew, [])).2

def getEqualPriorityEntries : List MemoryEntry :=
  (entries.toList.map (·.2)).filter (·.getPriority ctx = priorityNew)

def filterPassiveEntries (es : List MemoryEntry) : List MemoryEntry := es.filter (·.isPassive ctx)

def filterTestNotComplateEntries (es : List MemoryEntry) : List MemoryEntry :=
  es.filter (·.dtcStatus.get .testNotCompletedThisOperationCycle)

def getOldestEntry : List MemoryEntry → Option MemoryEntry
  | [] => none
  | [entry] => some entry
  | es => (sorting.sort es).head?

/-- The entry that `_DisplacementPrioOcc` removes. -/
def victimPrioOcc : Option MemoryEntry :=
  getOldestEntry sorting (getLowestPriorityEntries ctx entries priorityNew)

/-- The entry that `_DisplacementFull` removes. -/
def victimFull : Option MemoryEntry :=
  let lowest := getLowestPriorityEntries ctx entries priorityNew
  let found := if lowest.isEmpty then getEqualPriorityEntries ctx entries priorityNew else lowest
  if found.isEmpty then none
  else
    let passive := filterPassiveEntries ctx found
    let filtered :=
      if lowest.isEmpty && passive.isEmpty then filterTestNotComplateEntries found else passive
    if lowest.isEmpty && filtered.isEmpty then none
    else getOldestEntry sorting (if filtered.isEmpty then found else filtered)

end

variable (props : CommonProps) (entries : Entries) (now : uint64) (dtc : uint32)
  (status : DTCStatus)

def statusDuringDisplacement : DTCStatus :=
  if props.resetConfirmedBitOnOverflow then
    let status := status.reset .confirmedDTC
    if props.statusBitHandlingTestFailedSinceLastClear = .statusBitAgingAndDisplacement then
      status.reset .testFailedSinceLastClear
    else status
  else status

def isOverflow (cfg : DestinationConfig) (entries : Entries) : Bool :=
  entries.size = cfg.maxNumberOfEventEntries.toNat

def allocEntry : Option MemoryEntry × Entries :=
  let entry : MemoryEntry := { dtcValue := dtc, dtcStatus := status, time := now }
  (some entry, entries.insert dtc entry)

/-- The second half of `_DisplacementPrioOcc` and `_DisplacementFull`. -/
def displace : Option MemoryEntry → Option MemoryEntry × Entries
  | none => (none, entries)
  | some entry =>
    allocEntry (entries.erase entry.dtcValue) now dtc (statusDuringDisplacement props status)

/-- `TryAllocEntry`: the entry of the trouble code, if it is stored. -/
def tryAllocEntry (cfg : DestinationConfig) (ctx : Context) (sorting : TimeSort)
    (entries : Entries) (now : uint64) (dtc : uint32) (status : DTCStatus) (priority : uint8) :
    Option MemoryEntry × Entries :=
  match entries[dtc]? with
  | some entry => (some (entry.setDtcStatus status), entries.modify dtc (·.setDtcStatus status))
  | none =>
    if isOverflow cfg entries then
      match cfg.displacementStrategy with
      | .none => (none, entries)
      | .full => displace ctx.props entries now dtc status (victimFull ctx entries sorting priority)
      | .prioOcc =>
        displace ctx.props entries now dtc status (victimPrioOcc ctx entries sorting priority)
    else allocEntry entries now dtc status

/-! ### Clearing -/

/-- What `Clear` asks of a trouble code. -/
structure ClearTarget where
  value : uint32
  isForbiddenClear : Bool := false
  eventClearAllowedBehavior : ClearEventAllowedBehavior := .noStatusByteChange
  isDtcSuppressionOn : Bool := false
  deriving DecidableEq, Repr

/-- The codes that `Clear` returns; a diagnostic tester gets kRequestOutOfRange,
kConditionsNotCorrect, kConditionsNotCorrect and kGeneralProgrammingFailure for the
last four. -/
inductive ClearResult
  | ok
  | wrongDtc
  | busy
  | failed
  | memoryError
  deriving DecidableEq, Repr

def clearEntry (isResetStatus : Bool) : Bool × Entries :=
  (entries.contains dtc, entries.modify dtc fun entry =>
    (if isResetStatus then entry.setDtcStatus (entry.dtcStatus.clear false) else entry).clear)

def clearEntryForbiddenStatus :
    ClearEventAllowedBehavior → Entries
  | .noStatusByteChange => entries
  | .onlyThisCycleAndReadiness =>
    entries.modify dtc fun entry => entry.setDtcStatus entry.dtcStatus.clearOnThisCycleAndReadiness

/-- `Clear` of a single trouble code. `locked` says that another clear is running. -/
def clear (locked : Bool) (dtc : ClearTarget) : ClearResult × Entries :=
  if locked then (.busy, entries)
  else if dtc.isDtcSuppressionOn then (.wrongDtc, entries)
  else if dtc.isForbiddenClear then
    (.failed, clearEntryForbiddenStatus entries dtc.value dtc.eventClearAllowedBehavior)
  else
    let (found, entries) := clearEntry entries dtc.value true
    (if found then .ok else .memoryError, entries)

/-- One trouble code of a group that is not the group of all. -/
def clearGroupMember (dtc : ClearTarget) : Entries :=
  if dtc.isForbiddenClear then
    clearEntryForbiddenStatus entries dtc.value dtc.eventClearAllowedBehavior
  else (clearEntry entries dtc.value true).2

/-- `Clear` of a group. -/
def clearGroup (locked isAllGroup : Bool) (group : List ClearTarget) : ClearResult × Entries :=
  if locked then (.busy, entries)
  else if group.all (·.isForbiddenClear) then
    (.failed, group.foldl (fun entries dtc =>
      clearEntryForbiddenStatus entries dtc.value dtc.eventClearAllowedBehavior) entries)
  else if isAllGroup then (.ok, ∅)
  else (.ok, group.foldl clearGroupMember entries)

/-! ### Aging -/

/-- The status that `ClearFromAging` leaves. -/
def agedStatus : DTCStatus :=
  let status := ((status.reset .confirmedDTC).reset .testFailedThisOperationCycle).reset .pendingDTC
  if props.statusBitHandlingTestFailedSinceLastClear = .statusBitAgingAndDisplacement then
    status.reset .testFailedSinceLastClear
  else status

/-- `ClearFromAging` of the entry of `dtc`: the new status of the trouble code, and the
entries. -/
def clearFromAging (entry : MemoryEntry) : DTCStatus × Entries :=
  let status := agedStatus props entry.dtcStatus
  let entries := (clearEntry entries entry.dtcValue false).2
  (status, entries.modify dtc (·.setDtcStatus status))

/-- The turn of one destination in `Dtc::_processEndOfAgingCycle`. -/
def processEndOfAgingCycle (threshold : uint32) (dtc : uint32)
    (status : DTCStatus) (entries : Entries) : DTCStatus × Entries :=
  match entries[dtc]? with
  | none => (status, entries)
  | some entry =>
    if status.get .warningIndicatorRequested ∨ status.get .testFailed then
      (status, entries.modify dtc (·.agingReset))
    else if ¬ status.get .testFailedThisOperationCycle ∧
        (¬ props.agingRequiresTestedCycle ∨ ¬ status.get .testNotCompletedThisOperationCycle) then
      let entries := entries.modify dtc (·.agingIncrement)
      if entry.agingIncrement.agingCounter ≥ threshold then
        let entries := entries.modify dtc (·.agingReset)
        clearFromAging props entries dtc entry.agingIncrement.agingReset
      else (status, entries)
    else (status, entries)

/-- The end of this aging cycle completes the aging of the entry. -/
def agingCompletes (threshold : uint32) (status : DTCStatus) (entry : MemoryEntry) : Prop :=
  status.get .warningIndicatorRequested = false ∧ status.get .testFailed = false ∧
    status.get .testFailedThisOperationCycle = false ∧
    (props.agingRequiresTestedCycle = false ∨
      status.get .testNotCompletedThisOperationCycle = false) ∧
    threshold ≤ entry.agingIncrement.agingCounter

instance (props : CommonProps) (threshold : uint32) (status : DTCStatus) (entry : MemoryEntry) :
    Decidable (agingCompletes props threshold status entry) :=
  inferInstanceAs (Decidable (_ ∧ _))

/-! ### Start-up and status changes -/

/-- One turn of the loop in `_initLoadAllEntry`. `load` is what the persistency holds for
a trouble code, after deserialization. -/
def loadEntry (load : uint32 → Option MemoryEntry) (entries : Entries) (dtc : uint32) : Entries :=
  match load dtc with
  | none => entries
  | some entry => entries.insert dtc { entry with dtcValue := dtc }

def initLoadAllEntry (load : uint32 → Option MemoryEntry) (dtcList : List uint32) : Entries :=
  dtcList.foldl (loadEntry load) ∅

/-- The notifier for a changed status of a trouble code counts its occurrences. -/
def dtcStatusChanged (statusOld statusNew : DTCStatus) : Entries :=
  entries.modify dtc fun entry =>
    match props.occurrenceCounterProcessing with
    | .confirmedDtcBit =>
      if entry.dtcStatus.get .confirmedDTC ∧ ¬ statusOld.get .confirmedDTC ∧
          statusNew.get .confirmedDTC then entry.occurrenceCounterIncrement
      else entry
    | .testFailedBit =>
      if ¬ statusOld.get .testFailed ∧ statusNew.get .testFailed then
        entry.occurrenceCounterIncrement
      else entry

end MemoryDestination

end AdaptivePlatform.Diag
