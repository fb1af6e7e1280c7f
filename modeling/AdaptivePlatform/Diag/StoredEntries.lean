import AdaptivePlatform.Diag.ReadDtcInformation

/-!
# The number of stored entries

A memory destination reports how many of its entries belong to a pending or
confirmed trouble code. The mask for this is put together from the positions of
the two bits instead of the bits.
-/
namespace AdaptivePlatform.Diag

namespace FaultMemory

variable (m : FaultMemory) (dest : ReadDestination)

/-- `GetCountForNumberOfEntries`, and in a loop of its own
`GetCountForNumberOfEntriesFilterSuppression`. -/
def getCountForNumberOfEntries : uint32 :=
  m.getEntrySize dest (BitVec.ofNat 8 DTCStatusBit.pendingDTC.position |||
    BitVec.ofNat 8 DTCStatusBit.confirmedDTC.position)

/-- One of the bits is available and set in the status of the entry. -/
def hasAvailable (bits : List DTCStatusBit) (entry : RecordedEntry) : Bool :=
  bits.any fun b =>
    entry.dtcStatus.get b && dest.dtcStatusAvailabilityMask.getLsbD b.position

def reportedEntries : List RecordedEntry :=
  (dest.entries.toList.map (·.2)).filter (m.isReported ·.dtcValue)

/-- The entries that the number is about. -/
def numberOfStoredEntries : ℕ :=
  (m.reportedEntries dest).countP (hasAvailable dest [.pendingDTC, .confirmedDTC])

end FaultMemory

open FaultMemory

variable {m : FaultMemory} {dest : ReadDestination}

/-- The positions 2 and 3 together are the mask of the bits 0 and 1. -/
theorem and_positions_eq_zero_iff (x a : uint8) : x &&& 3 &&& a = 0 ↔
    (x.getLsbD 0 && a.getLsbD 0) = false ∧ (x.getLsbD 1 && a.getLsbD 1) = false := by
  have hthree : ∀ i < 8, (3 : uint8).getLsbD i = decide (i < 2) := by decide
  have hbit : ∀ i < 8,
      (x &&& 3 &&& a).getLsbD i = (decide (i < 2) && (x.getLsbD i && a.getLsbD i)) := by
    intro i hi
    rw [BitVec.getLsbD_and, BitVec.getLsbD_and, hthree i hi, Bool.and_comm (x.getLsbD i),
      Bool.and_assoc]
  constructor
  · intro h
    exact ⟨(hbit 0 (by decide)).symm.trans (by rw [h]; rfl),
      (hbit 1 (by decide)).symm.trans (by rw [h]; rfl)⟩
  · rintro ⟨h0, h1⟩
    refine BitVec.eq_of_getLsbD_eq fun i hi => ?_
    rw [hbit i hi]
    rcases i with _ | _ | i
    · exact h0
    · exact h1
    · simp

theorem matches_positions (entry : RecordedEntry) :
    (entry.dtcStatus.currentStatus &&& 3 &&& dest.dtcStatusAvailabilityMask != 0) =
      hasAvailable dest [.testFailed, .testFailedThisOperationCycle] entry := by
  rw [Bool.eq_iff_iff, bne_iff_ne, ne_eq, and_positions_eq_zero_iff, ← Bool.or_eq_false_iff,
    Bool.not_eq_false]
  simp [hasAvailable, DTCStatus.get, DTCStatusBit.position]

theorem getCountForNumberOfEntries_eq :
    m.getCountForNumberOfEntries dest = BitVec.ofNat 32 ((m.reportedEntries dest).countP
      (hasAvailable dest [.testFailed, .testFailedThisOperationCycle])) := by
  have hmask : BitVec.ofNat 8 DTCStatusBit.pendingDTC.position |||
    BitVec.ofNat 8 DTCStatusBit.confirmedDTC.position = 3 := by decide
  rw [getCountForNumberOfEntries, hmask, getEntrySize, matchingEntries, reportedEntries,
    List.countP_eq_length_filter, List.filter_filter]
  simp only [matches_positions, Bool.and_comm]

theorem countP_add_countP {α : Type*} (l : List α) (p q : α → Bool) :
    l.countP p + l.countP (fun a => q a && !p a) = l.countP q + l.countP fun a => p a && !q a := by
  induction l with
  | nil => rfl
  | cons a l ih =>
    simp only [List.countP_cons]
    cases p a <;> cases q a <;> simp <;> omega

/-- The reported number is right only where as many entries are counted for a failed test alone
as are left out although they are pending or confirmed. -/
theorem getCountForNumberOfEntries_iff
    (hsize : dest.entries.size ≤ dest.maxNumberOfEventEntries.toNat) :
    (m.getCountForNumberOfEntries dest).toNat = m.numberOfStoredEntries dest ↔
      (m.reportedEntries dest).countP (fun entry =>
          hasAvailable dest [.testFailed, .testFailedThisOperationCycle] entry &&
            !hasAvailable dest [.pendingDTC, .confirmedDTC] entry) =
        (m.reportedEntries dest).countP fun entry =>
          hasAvailable dest [.pendingDTC, .confirmedDTC] entry &&
            !hasAvailable dest [.testFailed, .testFailedThisOperationCycle] entry := by
  have hbalance := countP_add_countP (m.reportedEntries dest)
    (hasAvailable dest [.testFailed, .testFailedThisOperationCycle])
    (hasAvailable dest [.pendingDTC, .confirmedDTC])
  have hlt : (m.reportedEntries dest).countP
      (hasAvailable dest [.testFailed, .testFailedThisOperationCycle]) < 2 ^ 32 := by
    calc (m.reportedEntries dest).countP _
      _ ≤ (m.reportedEntries dest).length := List.countP_le_length
      _ ≤ (dest.entries.toList.map (·.2)).length := List.length_filter_le _ _
      _ = dest.entries.size := by simp [Std.TreeMap.length_toList]
      _ < 2 ^ 32 := hsize.trans_lt dest.maxNumberOfEventEntries.isLt
  rw [getCountForNumberOfEntries_eq, BitVec.toNat_ofNat, Nat.mod_eq_of_lt hlt,
    numberOfStoredEntries]
  omega

/-- A destination with one entry. -/
def oneEntry (status : uint8) : ReadDestination where
  maxNumberOfEventEntries := 1
  dtcStatusAvailabilityMask := 0xFF
  entries := Std.TreeMap.insert ∅ 7 { dtcValue := 7, dtcStatus := ⟨status⟩ }
  ownKeys item hitem := by
    obtain rfl : item = (7, _) := List.mem_singleton.mp hitem
    rfl

def oneDtc : FaultMemory where
  dtcs := [{ value := 7 }]
  inPrimaryDtcList := [7]
  getDestination _ := none
  distinct := by decide

theorem getCountForNumberOfEntries_failedPending :
    (oneDtc.getCountForNumberOfEntries (oneEntry 0x0F)).toNat =
      oneDtc.numberOfStoredEntries (oneEntry 0x0F) :=
  (getCountForNumberOfEntries_iff (by decide)).mpr (by decide)

/-- A confirmed trouble code whose test passes now is stored but not counted. -/
theorem getCountForNumberOfEntries_confirmed :
    (oneDtc.getCountForNumberOfEntries (oneEntry 0x08)).toNat = 0 ∧
      oneDtc.numberOfStoredEntries (oneEntry 0x08) = 1 := by
  decide

end AdaptivePlatform.Diag
