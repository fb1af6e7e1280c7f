import AdaptivePlatform.Diag.MemoryCapacity
import AdaptivePlatform.Diag.StatusHistory

/-!
# Aging

A trouble code is stored in each of its memory destinations when the trigger of the
destination holds, and it ages there: an entry that has gone through enough aging
cycles without a failure is emptied, and its trouble code is no longer confirmed.
The status that the trouble code then gets is taken from the entry, which was written
by the last storage. The module determines when this differs from clearing bits of
the status the trouble code has.
-/
namespace AdaptivePlatform.Diag

open Runs
open MemoryDestination (agedStatus agingCompletes mergeSort react tryAllocEntry)

structure Destination where
  cfg : DestinationConfig := {}
  entries : Entries := ∅

structure DtcProps where
  dtcValue : uint32
  priority : uint8 := 1
  /-- The threshold of the aging, if there is one. -/
  aging : Option uint32 := none

namespace Dtc

/-- The storage triggers. -/
def allocates (actionType : MonitorAction) (isFilledFdcThresholdStorage : Bool)
    (status : DTCStatus) : MemoryEntryStorageTrigger → Bool
  | .confirmed => status.get .confirmedDTC
  | .fdcThreshold => actionType = .fdcThresholdReached && isFilledFdcThresholdStorage
  | .pending => status.get .pendingDTC
  | .testFailed => status.get .testFailed

def storedStatus (props : CommonProps) (status : DTCStatus) : DTCStatus :=
  if props.statusBitStorageTestFailed then status else status.reset .testFailed

section

variable (ctx : Context) (sorting : TimeSort) (dtc : DtcProps) (isEnableDtcControl : Bool)
  (now : uint64) (actionType : MonitorAction) (isFilledFdcThresholdStorage : Bool)
  (status : DTCStatus)

/-- The turn of one destination in `CheckAndHandleStorage`. -/
def storeIn (dest : Destination) :
    Destination :=
  if dest.cfg.isPrimary && !isEnableDtcControl then dest
  else if allocates actionType isFilledFdcThresholdStorage status
      dest.cfg.memoryEntryStorageTrigger then
    { dest with
      entries := (tryAllocEntry dest.cfg ctx sorting dest.entries now
        dtc.dtcValue (storedStatus ctx.props status) dtc.priority).2 }
  else dest

def checkAndHandleStorage (dests : List Destination) : List Destination :=
  dests.map (storeIn ctx sorting dtc isEnableDtcControl now actionType
    isFilledFdcThresholdStorage status)

end

/-- The loop of `_processEndOfAgingCycle` over the destinations. Each reads the status of the
trouble code that the one before has left. -/
def ageIn (props : CommonProps) (threshold dtcValue : uint32) :
    DTCStatus → List Destination → DTCStatus × List Destination
  | status, [] => (status, [])
  | status, dest :: dests =>
    let turn :=
      MemoryDestination.processEndOfAgingCycle props threshold dtcValue status dest.entries
    let rest := ageIn props threshold dtcValue turn.1 dests
    (rest.1, { dest with entries := turn.2 } :: rest.2)

def processEndOfAgingCycle (props : CommonProps) (dtc : DtcProps) (status : DTCStatus)
    (dests : List Destination) : DTCStatus × List Destination :=
  match dtc.aging with
  | none => (status, dests)
  | some threshold => ageIn props threshold dtc.dtcValue status dests

end Dtc

/-- A trouble code with its event, its memory destinations and the DTC setting. -/
structure StoredDtc extends EventStatuses where
  dtcSetting : Bool := true
  destinations : List Destination := []

inductive StoredDtcInput
  /-- What happens to the status; a result is followed by `CheckAndHandleStorage`. -/
  | status (now : uint64) (input : StatusInput)
  /-- The report `kFdcThresholdReached`, and the answer of `IsFilledFdcThresholdStorage`. -/
  | fdcThresholdReached (now : uint64) (isFilledFdcThresholdStorage : Bool)
  | controlDtcSetting (on : Bool)
  /-- What clears and other trouble codes do in a destination. -/
  | memory (index : ℕ) (input : MemoryInput)
  | endOfAgingCycle
  deriving DecidableEq, Repr

def StatusInput.result : StatusInput → Option MonitorAction
  | .failed => some .failed
  | .passed => some .passed
  | _ => none

namespace StoredDtc

section

variable (cfg : EventConfig) (ctx : Context) (sorting : TimeSort) (dtc : DtcProps)
  (props : CommonProps) (s : StoredDtc)

def store (now : uint64) (actionType : MonitorAction)
    (isFilledFdcThresholdStorage : Bool) : StoredDtc :=
  { s with
    destinations := Dtc.checkAndHandleStorage ctx sorting dtc s.dtcSetting now actionType
      isFilledFdcThresholdStorage s.dtc.status s.destinations }

def setStatus (now : uint64) (input : StatusInput) : StoredDtc :=
  let s := { s with toEventStatuses := s.toEventStatuses.react cfg input }
  match input.result with
  | none => s
  | some actionType => s.store ctx sorting dtc now actionType false

def endOfAgingCycle : StoredDtc :=
  let aged := Dtc.processEndOfAgingCycle props dtc s.dtc.status s.destinations
  { s with
    toEventStatuses := { s.toEventStatuses with dtc := { s.dtc with status := aged.1 } }
    destinations := aged.2 }

def step : StoredDtcInput → Option StoredDtc
  | .status now input => some (s.setStatus cfg ctx sorting dtc now input)
  | .fdcThresholdReached now isFilled =>
    some (s.store ctx sorting dtc now .fdcThresholdReached isFilled)
  | .controlDtcSetting on => some { s with dtcSetting := on }
  | .memory index input =>
    some { s with
      destinations := s.destinations.modify index fun dest =>
        { dest with
          entries := react dest.cfg ctx sorting dest.entries input } }
  | .endOfAgingCycle => some (s.endOfAgingCycle dtc ctx.props)

end

end StoredDtc

/-! ### A status handed from one destination to the next -/

section

variable {σ α : Type*} {ready : σ → Prop} [DecidablePred ready] {f : α → σ}

theorem foldl_ready_of_not {s : σ} (hs : ¬ ready s) (es : List α) :
    es.foldl (fun s e => if ready s then f e else s) s = s := by
  induction es with
  | nil => rfl
  | cons e es ih => rw [List.foldl_cons, if_neg hs, ih]

/-- A state that is not ready is kept to the end, so a ready target is reached only through
ready states, and it is the last of them. -/
theorem foldl_ready_eq_iff {t : σ} (ht : ready t) {s : σ} (hs : ready s) (es : List α) :
    es.foldl (fun s e => if ready s then f e else s) s = t ↔
      (∀ e ∈ es, ready (f e)) ∧ (es.getLast?.map f).getD s = t := by
  induction es generalizing s with
  | nil => simp
  | cons e es ih =>
    rw [List.foldl_cons, if_pos hs, List.forall_mem_cons, List.getLast?_cons]
    by_cases he : ready (f e)
    · rw [ih he]
      cases es.getLast? <;> simp [he]
    · rw [foldl_ready_of_not he]
      have hne : f e ≠ t := by
        rintro rfl
        exact he ht
      simp [he, hne]

end

namespace Dtc

section

variable (props : CommonProps)

/-- The bits that the completion of an aging is to clear. -/
def agingClears : DTCStatusBit → Bool
  | .confirmedDTC | .pendingDTC | .testFailedThisOperationCycle => true
  | .testFailedSinceLastClear =>
    props.statusBitHandlingTestFailedSinceLastClear = .statusBitAgingAndDisplacement
  | _ => false

/-- The part of `agingCompletes` that asks the status. -/
def Ages (status : DTCStatus) : Prop :=
  status.get .warningIndicatorRequested = false ∧ status.get .testFailed = false ∧
    status.get .testFailedThisOperationCycle = false ∧
    (props.agingRequiresTestedCycle = false ∨
      status.get .testNotCompletedThisOperationCycle = false)

instance : DecidablePred (Ages props) := fun _ => inferInstanceAs (Decidable (_ ∧ _))

variable (threshold dtcValue : uint32)

/-- The entry of the trouble code, if one more cycle takes it to the threshold. -/
def dueEntry (entries : Entries) : Option MemoryEntry :=
  entries[dtcValue]?.filter fun entry => threshold ≤ entry.agingIncrement.agingCounter

def dueEntries (dests : List Destination) : List MemoryEntry :=
  dests.filterMap fun dest => dueEntry threshold dtcValue dest.entries

/-- The entries whose aging is completed at the end of this aging cycle, in the order of
the destinations. -/
def completedEntries (status : DTCStatus) (dests : List Destination) : List MemoryEntry :=
  dests.filterMap fun dest =>
    dest.entries[dtcValue]?.filter fun entry =>
      agingCompletes props threshold status entry

/-- What the entries whose aging is completed have to agree on with the status: none may hold
a bit that stops the aging in the destinations after it, and the last must hold the status
itself, as far as it is not cleared. -/
structure EntriesAgree (status : DTCStatus) (completed : List MemoryEntry) : Prop where
  ages : ∀ entry ∈ completed, entry.dtcStatus.get .warningIndicatorRequested = false ∧
    entry.dtcStatus.get .testFailed = false ∧ (props.agingRequiresTestedCycle = false ∨
      entry.dtcStatus.get .testNotCompletedThisOperationCycle = false)
  last : ∀ entry ∈ completed.getLast?,
    ∀ b, agingClears props b = false → entry.dtcStatus.get b = status.get b

theorem entriesAgree_nil (status : DTCStatus) : EntriesAgree props status [] where
  ages := List.forall_mem_nil _
  last := by simp

end

variable {props : CommonProps} {threshold dtcValue : uint32} {status : DTCStatus}
  {entry : MemoryEntry}

theorem get_agedStatus (props : CommonProps) (status : DTCStatus) (b : DTCStatusBit) :
    (agedStatus props status).get b = (status.get b && !agingClears props b) := by
  unfold agedStatus
  split_ifs with h <;> cases b <;> simp [agingClears, h]

theorem agedStatus_eq_iff {status' : DTCStatus} :
    agedStatus props status = agedStatus props status' ↔
      ∀ b, agingClears props b = false → status.get b = status'.get b := by
  constructor
  · intro h b hb
    have := congrArg (DTCStatus.get · b) h
    simpa [get_agedStatus, hb] using this
  · intro h
    refine DTCStatus.ext_get fun b => ?_
    rw [get_agedStatus, get_agedStatus]
    cases hb : agingClears props b with
    | true => simp
    | false => rw [h b hb]

theorem ages_agedStatus_iff :
    Ages props (agedStatus props status) ↔
      status.get .warningIndicatorRequested = false ∧ status.get .testFailed = false ∧
        (props.agingRequiresTestedCycle = false ∨
          status.get .testNotCompletedThisOperationCycle = false) := by
  simp [Ages, get_agedStatus, agingClears]

theorem Ages.agedStatus (h : Ages props status) : Ages props (agedStatus props status) :=
  ages_agedStatus_iff.mpr ⟨h.1, h.2.1, h.2.2.2⟩

theorem agingCompletes_iff :
    agingCompletes props threshold status entry ↔
      Ages props status ∧ threshold ≤ entry.agingIncrement.agingCounter := by
  simp [agingCompletes, Ages, and_assoc]

/-- The two tests of the source. -/
theorem ages_iff : Ages props status ↔
    ¬ (status.get .warningIndicatorRequested ∨ status.get .testFailed) ∧
      ¬ status.get .testFailedThisOperationCycle ∧
      (¬ props.agingRequiresTestedCycle ∨ ¬ status.get .testNotCompletedThisOperationCycle) := by
  simp [Ages, and_assoc]

/-- One destination's turn, as far as the status goes. -/
theorem processEndOfAgingCycle_status (status : DTCStatus) (entries : Entries) :
    (MemoryDestination.processEndOfAgingCycle props threshold dtcValue status entries).1 =
      match dueEntry threshold dtcValue entries with
      | none => status
      | some entry =>
        if Ages props status then agedStatus props entry.dtcStatus
        else status := by
  unfold MemoryDestination.processEndOfAgingCycle dueEntry
  cases entries[dtcValue]? with
  | none => rfl
  | some entry =>
    dsimp only
    by_cases hages : Ages props status
    · obtain ⟨hstop, htested⟩ := ages_iff.mp hages
      rw [if_neg hstop, if_pos htested, Option.filter_some]
      by_cases hdue : threshold ≤ entry.agingIncrement.agingCounter
      · simp only [ge_iff_le, hdue, hages]
        rfl
      · simp [hdue]
    · have hkeep : ∀ due : Option MemoryEntry, (match due with
          | none => status
          | some entry =>
            if Ages props status then agedStatus props entry.dtcStatus
            else status) = status := by
        intro due
        cases due with
        | none => rfl
        | some entry => exact if_neg hages
      rw [hkeep]
      split_ifs with hstop htested
      · rfl
      · exact absurd (ages_iff.mpr ⟨hstop, htested⟩) hages
      · exact absurd (ages_iff.mpr ⟨hstop, htested⟩) hages
      · rfl

theorem ageIn_status (status : DTCStatus) (dests : List Destination) :
    (ageIn props threshold dtcValue status dests).1 =
      (dueEntries threshold dtcValue dests).foldl (fun status entry =>
        if Ages props status then agedStatus props entry.dtcStatus else status)
        status := by
  induction dests generalizing status with
  | nil => rfl
  | cons dest dests ih =>
    rw [ageIn, ih, processEndOfAgingCycle_status]
    simp only [dueEntries, List.filterMap_cons]
    cases dueEntry threshold dtcValue dest.entries with
    | none | some entry => rfl

theorem completedEntries_of_ages (h : Ages props status) (dests : List Destination) :
    completedEntries props threshold dtcValue status dests =
      dueEntries threshold dtcValue dests := by
  simp [completedEntries, dueEntries, dueEntry, agingCompletes_iff, h]

theorem completedEntries_of_not_ages (h : ¬ Ages props status) (dests : List Destination) :
    completedEntries props threshold dtcValue status dests = [] := by
  simp [completedEntries, agingCompletes_iff, h]

/-- If nothing is completed, the status stays. -/
theorem ageIn_status_of_nil {dests : List Destination}
    (hnone : completedEntries props threshold dtcValue status dests = []) :
    (ageIn props threshold dtcValue status dests).1 = status := by
  rw [ageIn_status]
  by_cases hages : Ages props status
  · rw [← completedEntries_of_ages hages dests, hnone]
    rfl
  · exact foldl_ready_of_not hages _

/-- Only the first aged status that the loop meets counts if it stops the aging, and the
last one otherwise. -/
theorem ageIn_status_eq_iff {dests : List Destination}
    (hlast : (completedEntries props threshold dtcValue status dests).getLast? = some entry) :
    (ageIn props threshold dtcValue status dests).1 = agedStatus props status ↔
      EntriesAgree props status (completedEntries props threshold dtcValue status dests) := by
  have hages : Ages props status := by
    by_contra hages
    rw [completedEntries_of_not_ages hages] at hlast
    cases hlast
  have hfold := foldl_ready_eq_iff (f := fun entry : MemoryEntry =>
    agedStatus props entry.dtcStatus) hages.agedStatus hages
    (dueEntries threshold dtcValue dests)
  rw [← ageIn_status, ← completedEntries_of_ages hages dests, hlast] at hfold
  rw [hfold, Option.map_some, Option.getD_some, agedStatus_eq_iff]
  constructor
  · rintro ⟨hready, hagree⟩
    refine ⟨fun e he => ages_agedStatus_iff.mp (hready e he), fun e he => ?_⟩
    obtain rfl : entry = e := Option.some.inj (hlast.symm.trans he)
    exact hagree
  · intro h
    exact ⟨fun e he => ages_agedStatus_iff.mpr (h.ages e he), h.last entry hlast⟩

theorem get_ageIn_iff (status : DTCStatus) (dests : List Destination) :
    (∀ b, (ageIn props threshold dtcValue status dests).1.get b = (status.get b &&
        !(agingClears props b &&
          !(completedEntries props threshold dtcValue status dests).isEmpty))) ↔
      EntriesAgree props status (completedEntries props threshold dtcValue status dests) := by
  cases hlast : (completedEntries props threshold dtcValue status dests).getLast? with
  | none =>
    have hnone := List.getLast?_eq_none_iff.mp hlast
    rw [hnone]
    refine iff_of_true (fun b => ?_) (entriesAgree_nil props status)
    simp [ageIn_status_of_nil hnone]
  | some entry =>
    have hsome : (completedEntries props threshold dtcValue status dests).isEmpty = false := by
      cases hnil : completedEntries props threshold dtcValue status dests with
      | nil => simp [hnil] at hlast
      | cons e es => rfl
    rw [← ageIn_status_eq_iff hlast]
    simp only [hsome, Bool.not_false, Bool.and_true, ← get_agedStatus]
    exact ⟨DTCStatus.ext_get, fun h b => by rw [h]⟩

end Dtc

namespace StoredDtc

section

variable (props : CommonProps) (dtc : DtcProps)

/-- The entries whose aging is completed if the aging cycle ends here. -/
def completedEntries (s : StoredDtc) : List MemoryEntry :=
  match dtc.aging with
  | none => []
  | some threshold => Dtc.completedEntries props threshold dtc.dtcValue s.dtc.status s.destinations

/-- The end of an aging cycle changes the status only if an aging is completed, and then
clears the bits it is to clear and no other bit changes. -/
def AgingOnlyClears (s : StoredDtc) : Prop :=
  ∀ b, (s.endOfAgingCycle dtc props).dtc.status.get b =
    (s.dtc.status.get b && !(Dtc.agingClears props b && !(s.completedEntries props dtc).isEmpty))

def CompletedAgree (s : StoredDtc) : Prop :=
  Dtc.EntriesAgree props s.dtc.status (s.completedEntries props dtc)

theorem agingOnlyClears_iff (s : StoredDtc) :
    s.AgingOnlyClears props dtc ↔ s.CompletedAgree props dtc := by
  unfold AgingOnlyClears CompletedAgree completedEntries endOfAgingCycle Dtc.processEndOfAgingCycle
  cases dtc.aging with
  | none =>
    refine iff_of_true (fun b => ?_) (Dtc.entriesAgree_nil props _)
    simp
  | some threshold => exact Dtc.get_ageIn_iff s.dtc.status s.destinations

end

/-- Over every history of results, storages, cycles, clears and aging cycles, from whatever
the memories hold at its start: each end of an aging cycle only clears what it is to clear
precisely if at each of them the entries whose aging is completed agree with the status of the
trouble code. -/
theorem aging_only_clears_iff (cfg : EventConfig) (ctx : Context) (sorting : TimeSort)
    (dtc : DtcProps) (start : StoredDtc) (history : List StoredDtcInput) :
    Along (step cfg ctx sorting dtc)
        (fun s input => input = .endOfAgingCycle → s.AgingOnlyClears ctx.props dtc) start history ↔
      Along (step cfg ctx sorting dtc)
        (fun s input => input = .endOfAgingCycle → s.CompletedAgree ctx.props dtc)
        start history := by
  constructor
  · intro h
    exact h.mono fun s _ hclears hinput => (agingOnlyClears_iff _ _ s).mp (hclears hinput)
  · intro h
    exact h.mono fun s _ hagree hinput => (agingOnlyClears_iff _ _ s).mpr (hagree hinput)

/-- A failure is stored with testFailed, because the failure is the trigger and the bit is
stored; the fault then heals. At the end of the aging cycle the trouble code has testFailed
again. -/
theorem aging_restores_testFailed :
    let ctx : Context :=
      { props := { statusBitStorageTestFailed := true }, getDtcByValue := fun _ => some 1 }
    let dtc : DtcProps := { dtcValue := 8, aging := some 1 }
    let start : StoredDtc := { destinations := [⟨⟨4, .none, .testFailed, true⟩, ∅⟩] }
    let healed := exec (step {} ctx mergeSort dtc) start
      [.status 1 (.operationCycle .start), .status 2 .failed, .endOfAgingCycle,
        .status 3 (.operationCycle .start), .status 4 .passed]
    healed.map (·.dtc.status.get .testFailed) = some false ∧
      healed.map (fun s => (s.endOfAgingCycle dtc ctx.props).dtc.status.get .testFailed) =
        some true := by
  decide

end StoredDtc

end AdaptivePlatform.Diag
