import Mathlib.Data.Finset.Card
import AdaptivePlatform.Diag.Displacement

/-!
# Capacity of the fault memory

The histories of a memory destination: storages with their displacements, clears
and agings. The number of entries stays within the configured maximum, and a
storage touches at most one other entry. A clear or an aging empties an entry but
leaves it in the map, so that the memory can be full without a trouble code in it.
-/
namespace AdaptivePlatform.Diag

open Option Finset
open MemoryDestination (ClearTarget clear clearGroup)
open Std.TreeMap (getElem?_erase mem_insert mem_keys mem_modify nodup_keys size_modify)
open Or (inl inr)
open List (foldlRecOn)

inductive MemoryInput
  /-- `TryAllocEntry`, with the time of the call. -/
  | store (now : uint64) (dtc : uint32) (status : DTCStatus) (priority : uint8)
  | clear (locked : Bool) (dtc : ClearTarget)
  | clearGroup (locked isAllGroup : Bool) (group : List ClearTarget)
  /-- The end of an aging cycle, with the threshold and the status of the trouble code. -/
  | endOfAgingCycle (threshold : uint32) (dtc : uint32) (status : DTCStatus)
  | dtcStatusChanged (dtc : uint32) (statusOld statusNew : DTCStatus)
  deriving DecidableEq, Repr

namespace MemoryDestination

section

variable (cfg : DestinationConfig) (ctx : Context) (sorting : TimeSort)

def react (entries : Entries) : MemoryInput → Entries
  | .store now dtc status priority =>
    (tryAllocEntry cfg ctx sorting entries now dtc status priority).2
  | .clear locked dtc => (clear entries locked dtc).2
  | .clearGroup locked isAllGroup group => (clearGroup entries locked isAllGroup group).2
  | .endOfAgingCycle threshold dtc status =>
    (processEndOfAgingCycle ctx.props threshold dtc status entries).2
  | .dtcStatusChanged dtc statusOld statusNew =>
    dtcStatusChanged ctx.props entries dtc statusOld statusNew

def run (entries : Entries) (history : List MemoryInput) : Entries :=
  history.foldl (react cfg ctx sorting) entries

end

/-- The entries fit, and each is stored under the number of its trouble code. -/
structure WellFormed (cfg : DestinationConfig) (entries : Entries) : Prop where
  size_le : entries.size ≤ cfg.maxNumberOfEventEntries.toNat
  ownKeys : OwnKeys entries

section

variable {cfg : DestinationConfig} {ctx : Context} {sorting : TimeSort} {entries : Entries}
  {now : uint64} {dtc : uint32} {status : DTCStatus} {priority : uint8}

theorem OwnKeys.insert (h : OwnKeys entries) {e : MemoryEntry} (he : e.dtcValue = dtc) :
    OwnKeys (entries.insert dtc e) := by
  intro k e' he'
  rw [Std.TreeMap.getElem?_insert] at he'
  split_ifs at he' with hk
  · cases he'
    exact he.trans (Std.LawfulEqCmp.compare_eq_iff_eq.mp hk)
  · exact h k e' he'

theorem OwnKeys.erase (h : OwnKeys entries) (dtc : uint32) : OwnKeys (entries.erase dtc) := by
  intro k e he
  rw [getElem?_erase] at he
  split_ifs at he
  exact h k e he

theorem tryAllocEntry_of_room (hnew : entries[dtc]? = none)
    (hroom : ¬ isOverflow cfg entries = true) :
    tryAllocEntry cfg ctx sorting entries now dtc status priority =
      allocEntry entries now dtc status := by
  unfold MemoryDestination.tryAllocEntry
  rw [hnew]
  exact if_neg hroom

theorem size_allocEntry (hnew : entries[dtc]? = none) :
    (allocEntry entries now dtc status).2.size = entries.size + 1 := by
  have hcontains : entries.contains dtc = false := by
    rw [Std.TreeMap.contains_eq_isSome_getElem?, hnew]
    rfl
  simp [allocEntry, Std.TreeMap.size_insert, hcontains]

theorem size_erase {k : uint32} {e : MemoryEntry} (h : entries[k]? = some e) :
    (entries.erase k).size + 1 = entries.size := by
  have hcontains : entries.contains k = true := by
    rw [Std.TreeMap.contains_eq_isSome_getElem?, h]
    rfl
  have hpos : entries.size ≠ 0 := by
    intro hzero
    have hempty : entries.isEmpty = true := by simp [Std.TreeMap.isEmpty_eq_size_eq_zero, hzero]
    have := Std.TreeMap.isEmpty_iff_forall_contains.mp hempty k
    cases this.symm.trans hcontains
  rw [Std.TreeMap.size_erase, if_pos hcontains]
  omega

theorem ownKeys_empty : OwnKeys ∅ := by
  intro k e he
  simp at he

theorem wellFormed_empty : WellFormed cfg ∅ := ⟨Nat.zero_le _, ownKeys_empty⟩

/-! ### Rewritten entries -/

/-- What clears and agings make of a status that has `P` has it too. -/
structure Keeps (props : CommonProps) (P : DTCStatus → Prop) : Prop where
  clear : ∀ s, P s → P (s.clear false)
  cycle : ∀ s, P s → P s.clearOnThisCycleAndReadiness
  aged : ∀ s, P s → P (agedStatus props s)

/-- Entries of the same trouble codes: each keeps its number, and its status has `P` if it
had it before. -/
structure Rewritten (P : DTCStatus → Prop) (entries entries' : Entries) : Prop where
  size : entries'.size = entries.size
  mem : ∀ k ∈ entries, k ∈ entries'
  entry : ∀ (k : uint32) (e' : MemoryEntry), entries'[k]? = some e' →
    ∃ e : MemoryEntry, entries[k]? = some e ∧ e'.dtcValue = e.dtcValue ∧
      (P e.dtcStatus → P e'.dtcStatus)

section

variable {props : CommonProps} {P : DTCStatus → Prop} {entries' : Entries}

theorem rewritten_refl : Rewritten P entries entries :=
  ⟨rfl, fun _ => id, fun _ e he => ⟨e, he, rfl, id⟩⟩

section

variable (h : Rewritten P entries entries')

include h

theorem Rewritten.modify (dtc : uint32)
    {f : MemoryEntry → MemoryEntry} (hvalue : ∀ e, (f e).dtcValue = e.dtcValue)
    (hstatus : ∀ e₀ e : MemoryEntry, entries[dtc]? = some e₀ → P e₀.dtcStatus → P e.dtcStatus →
      P (f e).dtcStatus) : Rewritten P entries (entries'.modify dtc f) where
  size := size_modify.trans h.size
  mem k hk := mem_modify.mpr (h.mem k hk)
  entry := by
    intro k e' he
    simp only [Std.TreeMap.getElem?_modify, Std.LawfulEqCmp.compare_eq_iff_eq] at he
    split_ifs at he with hk
    · obtain ⟨e, hmodified, rfl⟩ := map_eq_some_iff.mp he
      obtain ⟨e₀, he₀, hkeep, hP⟩ := h.entry dtc e hmodified
      exact ⟨e₀, hk ▸ he₀, (hvalue e).trans hkeep, fun h => hstatus e₀ e he₀ h (hP h)⟩
    · exact h.entry k e' he

theorem Rewritten.clearEntryForbiddenStatus
    (hP : Keeps props P) (dtc : uint32) (behavior : ClearEventAllowedBehavior) :
    Rewritten P entries (clearEntryForbiddenStatus entries' dtc behavior) := by
  cases behavior with
  | noStatusByteChange => exact h
  | onlyThisCycleAndReadiness =>
    exact h.modify dtc (fun e => rfl) fun e₀ e _ _ => hP.cycle e.dtcStatus

theorem Rewritten.clearEntry (hP : Keeps props P) (dtc : uint32) (isResetStatus : Bool) :
    Rewritten P entries (clearEntry entries' dtc isResetStatus).2 := by
  cases isResetStatus with
  | false => exact h.modify dtc (fun e => rfl) fun e₀ e _ _ => id
  | true => exact h.modify dtc (fun e => rfl) fun e₀ e _ _ => hP.clear e.dtcStatus

end

theorem rewritten_clear (hP : Keeps props P) (locked : Bool) (dtc : ClearTarget) :
    Rewritten P entries (clear entries locked dtc).2 := by
  unfold clear
  split_ifs
  · exact rewritten_refl
  · exact rewritten_refl
  · exact rewritten_refl.clearEntryForbiddenStatus hP _ _
  · exact rewritten_refl.clearEntry hP _ _

/-- A group clear removes entries only if it is the clear of all. -/
theorem clearGroup_empty_or_rewritten (hP : Keeps props P) (locked isAllGroup : Bool)
    (group : List ClearTarget) : let result := clearGroup entries locked isAllGroup group
    result = (.ok, ∅) ∧ isAllGroup = true ∨ Rewritten P entries result.2 := by
  unfold clearGroup
  dsimp only
  split_ifs with _ _ hall
  · exact inr rewritten_refl
  · exact inr (foldlRecOn group _ rewritten_refl fun _ h dtc _ =>
      h.clearEntryForbiddenStatus hP _ _)
  · exact inl ⟨rfl, hall⟩
  · refine inr (foldlRecOn group _ rewritten_refl fun _ h dtc _ => ?_)
    unfold clearGroupMember
    split_ifs
    · exact h.clearEntryForbiddenStatus hP _ _
    · exact h.clearEntry hP _ _

theorem rewritten_processEndOfAgingCycle (hP : Keeps props P) (threshold : uint32)
    (dtc : uint32) (status : DTCStatus) :
    Rewritten P entries (processEndOfAgingCycle props threshold dtc status entries).2 := by
  have hincrement : Rewritten P entries (entries.modify dtc MemoryEntry.agingIncrement) :=
    rewritten_refl.modify dtc (fun e => rfl) fun e₀ e _ _ => id
  have hreset := hincrement.modify dtc (f := MemoryEntry.agingReset) (fun e => rfl)
    fun e₀ e _ _ => id
  unfold MemoryDestination.processEndOfAgingCycle
  split
  · exact rewritten_refl
  case h_2 entry hentry =>
    split_ifs
    · exact rewritten_refl.modify dtc (fun e => rfl) fun e₀ e _ _ => id
    · refine (hreset.clearEntry hP _ false).modify dtc (fun e => rfl) fun e₀ e he₀ hP₀ _ => ?_
      cases hentry.symm.trans he₀
      exact hP.aged entry.dtcStatus hP₀
    · exact hincrement
    · exact rewritten_refl

theorem rewritten_dtcStatusChanged (P : DTCStatus → Prop) (props : CommonProps) (dtc : uint32)
    (statusOld statusNew : DTCStatus) :
    Rewritten P entries (dtcStatusChanged props entries dtc statusOld statusNew) := by
  have hincrement : ∀ e : MemoryEntry, e.occurrenceCounterIncrement.dtcValue = e.dtcValue ∧
      e.occurrenceCounterIncrement.dtcStatus = e.dtcStatus := by
    intro e
    unfold MemoryEntry.occurrenceCounterIncrement
    split_ifs <;> exact ⟨rfl, rfl⟩
  refine rewritten_refl.modify dtc (fun e => ?_) fun e₀ e _ _ => ?_
  all_goals split <;> split_ifs <;> simp [hincrement]

/-- All that is not a storage rewrites the entries or removes them all. -/
theorem react_empty_or_rewritten (hP : Keeps ctx.props P) {input : MemoryInput}
    (hinput : ∀ now dtc status priority, input ≠ .store now dtc status priority) :
    react cfg ctx sorting entries input = ∅ ∨
      Rewritten P entries (react cfg ctx sorting entries input) := by
  cases input with
  | store now dtc status priority => exact absurd rfl (hinput now dtc status priority)
  | clear locked dtc => exact inr (rewritten_clear hP locked dtc)
  | clearGroup locked isAllGroup group =>
    rcases clearGroup_empty_or_rewritten hP locked isAllGroup group with h | h
    · exact inl (congrArg Prod.snd h.1)
    · exact inr h
  | endOfAgingCycle threshold dtc status =>
    exact inr (rewritten_processEndOfAgingCycle hP threshold dtc status)
  | dtcStatusChanged dtc statusOld statusNew =>
    exact inr (rewritten_dtcStatusChanged P ctx.props dtc statusOld statusNew)

end

theorem keeps_true (props : CommonProps) : Keeps props fun _ => True :=
  ⟨fun _ => id, fun _ => id, fun _ => id⟩

theorem WellFormed.rewritten {P : DTCStatus → Prop} {entries' : Entries}
    (h : WellFormed cfg entries) (hrewritten : Rewritten P entries entries') :
    WellFormed cfg entries' := by
  refine ⟨hrewritten.size.trans_le h.size_le, fun k e he => ?_⟩
  obtain ⟨e₀, he₀, hvalue, _⟩ := hrewritten.entry k e he
  exact hvalue.trans (h.ownKeys k e₀ he₀)

/-- A storage never takes the memory beyond its maximum: an entry is added where there is
room, or in the place of another one. -/
theorem WellFormed.tryAllocEntry (h : WellFormed cfg entries) :
    WellFormed cfg (tryAllocEntry cfg ctx sorting entries now dtc status priority).2 := by
  cases hdtc : entries[dtc]? with
  | some entry =>
    simp only [MemoryDestination.tryAllocEntry, hdtc]
    exact h.rewritten (P := fun _ => True)
      (rewritten_refl.modify dtc (fun _ => rfl) fun _ _ _ _ => id)
  | none =>
    by_cases hfull : isOverflow cfg entries = true
    · rw [tryAllocEntry_of_overflow hdtc hfull]
      cases hvictim : victim ctx entries sorting priority cfg.displacementStrategy with
      | none => exact h
      | some e =>
        have he := h.ownKeys.getElem?_victim hvictim
        have hdtc' : (entries.erase e.dtcValue)[dtc]? = none := by
          rw [getElem?_erase, hdtc, ite_self]
        refine ⟨?_, (h.ownKeys.erase _).insert rfl⟩
        rw [displace, size_allocEntry hdtc', size_erase he]
        exact h.size_le
    · have hlt : entries.size < cfg.maxNumberOfEventEntries.toNat := by
        have hne : entries.size ≠ cfg.maxNumberOfEventEntries.toNat := by
          simpa [isOverflow] using hfull
        have := h.size_le
        omega
      rw [tryAllocEntry_of_room hdtc hfull]
      refine ⟨?_, h.ownKeys.insert rfl⟩
      rw [size_allocEntry hdtc]
      exact hlt

theorem WellFormed.react (h : WellFormed cfg entries) (input : MemoryInput) :
    WellFormed cfg (react cfg ctx sorting entries input) := by
  by_cases hstore : ∃ now dtc status priority, input = .store now dtc status priority
  · obtain ⟨now, dtc, status, priority, rfl⟩ := hstore
    exact h.tryAllocEntry
  · push Not at hstore
    rcases react_empty_or_rewritten (keeps_true ctx.props) hstore with hempty | hrewritten
    · rw [hempty]
      exact wellFormed_empty
    · exact h.rewritten hrewritten

theorem WellFormed.run (h : WellFormed cfg entries) (history : List MemoryInput) :
    WellFormed cfg (run cfg ctx sorting entries history) :=
  foldlRecOn history _ h fun _ h input _ => h.react input

theorem OwnKeys.loadEntry (h : OwnKeys entries) (load : uint32 → Option MemoryEntry)
    (dtc : uint32) : OwnKeys (loadEntry load entries dtc) := by
  unfold MemoryDestination.loadEntry
  split
  · exact h
  · exact h.insert rfl

theorem ownKeys_initLoadAllEntry (load : uint32 → Option MemoryEntry) (dtcList : List uint32) :
    OwnKeys (initLoadAllEntry load dtcList) :=
  foldlRecOn dtcList _ ownKeys_empty fun _ h dtc _ => h.loadEntry load dtc

/-- A storage of a new trouble code leaves every other entry alone but a displaced one. -/
theorem tryAllocEntry_frame (hnew : entries[dtc]? = none) :
    ∃ displaced : Option uint32, ∀ k : uint32, k ≠ dtc →
      (tryAllocEntry cfg ctx sorting entries now dtc status priority).2[k]? =
        if displaced = some k then none else entries[k]? := by
  by_cases hfull : isOverflow cfg entries = true
  · rw [tryAllocEntry_of_overflow hnew hfull]
    cases victim ctx entries sorting priority cfg.displacementStrategy with
    | none => exact ⟨none, fun k _ => rfl⟩
    | some e =>
      refine ⟨some e.dtcValue, fun k hk => ?_⟩
      rw [getElem?_displace _ _ _ _ _ _ hk]
      simp [@eq_comm _ k]
  · rw [tryAllocEntry_of_room hnew hfull]
    refine ⟨none, fun k hk => ?_⟩
    rw [getElem?_allocEntry, if_neg hk]
    rfl

end

/-- From whatever at most `maxNumberOfEventEntries` entries are restored at start-up, in
every history the number of entries stays within the maximum and each is stored under its
own number; and the storage of a new trouble code then removes at most one other entry and
changes no other. -/
theorem entries_within_capacity (cfg : DestinationConfig) (ctx : Context) (sorting : TimeSort)
    (load : uint32 → Option MemoryEntry) (dtcList : List uint32) (history : List MemoryInput)
    (hload : (initLoadAllEntry load dtcList).size ≤ cfg.maxNumberOfEventEntries.toNat) :
    let entries := run cfg ctx sorting (initLoadAllEntry load dtcList) history
    entries.size ≤ cfg.maxNumberOfEventEntries.toNat ∧ OwnKeys entries ∧
      ∀ (now : uint64) (dtc : uint32) (status : DTCStatus) (priority : uint8),
        entries[dtc]? = none → ∃ displaced : Option uint32, ∀ k : uint32, k ≠ dtc →
          (tryAllocEntry cfg ctx sorting entries now dtc status priority).2[k]? =
            if displaced = some k then none else entries[k]? := by
  have hstart : WellFormed cfg (initLoadAllEntry load dtcList) :=
    ⟨hload, ownKeys_initLoadAllEntry load dtcList⟩
  have hrun : WellFormed cfg (run cfg ctx sorting (initLoadAllEntry load dtcList) history) :=
    hstart.run history
  exact ⟨hrun.size_le, hrun.ownKeys, fun now dtc status priority hnew =>
    tryAllocEntry_frame hnew⟩

/-- A restored entry, then two storages into a memory for two. -/
theorem entries_within_capacity_two :
    let load : uint32 → Option MemoryEntry := fun dtc => if dtc = 7 then some {} else none
    let entries := run ⟨2, .prioOcc, .confirmed, true⟩ { getDtcByValue := fun _ => some 5 } mergeSort
      (initLoadAllEntry load [7, 8]) [.store 1 8 ⟨0x2F⟩ 1, .store 2 9 ⟨0x2F⟩ 1]
    entries.size ≤ 2 ∧ OwnKeys entries :=
  have h := entries_within_capacity ⟨2, .prioOcc, .confirmed, true⟩
    { getDtcByValue := fun _ => some 5 } mergeSort (fun dtc => if dtc = 7 then some {} else none)
    [7, 8] [.store 1 8 ⟨0x2F⟩ 1, .store 2 9 ⟨0x2F⟩ 1] (by decide)
  ⟨h.1, h.2.1⟩

/-! ### Regained capacity -/

/-- The entries, and the trouble codes that are stored: a code that was cleared or aged
and not stored again is none of them. -/
structure Storage where
  entries : Entries := ∅
  stored : Finset uint32 := ∅

section

variable (cfg : DestinationConfig) (ctx : Context) (sorting : TimeSort)

def nextStored (s : Storage) : MemoryInput → Finset uint32
  | .store now dtc status priority =>
    if (tryAllocEntry cfg ctx sorting s.entries now dtc status priority).1.isSome then
      insert dtc s.stored
    else s.stored
  | .clear locked dtc =>
    if (clear s.entries locked dtc).1 = .ok then s.stored.erase dtc.value else s.stored
  | .clearGroup locked isAllGroup group =>
    if (clearGroup s.entries locked isAllGroup group).1 = .ok then
      if isAllGroup then ∅
      else s.stored.filter fun k => ∀ dtc ∈ group, dtc.isForbiddenClear = false → dtc.value ≠ k
    else s.stored
  | .endOfAgingCycle threshold dtc status =>
    if ∃ entry ∈ s.entries[dtc]?, agingCompletes ctx.props threshold status entry then
      s.stored.erase dtc
    else s.stored
  | .dtcStatusChanged _ _ _ => s.stored

def track (s : Storage) (input : MemoryInput) : Storage where
  entries := react cfg ctx sorting s.entries input
  stored := nextStored cfg ctx sorting s input

/-- A trouble code is stored whenever fewer than the maximum are, and the memory is not
reported full when none is. -/
structure AcceptsNew (s : Storage) : Prop where
  stores : ∀ now dtc status priority, s.stored.card < cfg.maxNumberOfEventEntries.toNat →
    (tryAllocEntry cfg ctx sorting s.entries now dtc status priority).1.isSome = true
  freed : s.stored = ∅ → isOverflow cfg s.entries = false

end

section

variable {cfg : DestinationConfig} {ctx : Context} {sorting : TimeSort} {entries : Entries}
  {now : uint64} {dtc : uint32} {status : DTCStatus} {priority : uint8} {k : uint32} {s : Storage}

/-- Without displacement a storage removes nothing. -/
theorem mem_tryAllocEntry (hstrategy : cfg.displacementStrategy = .none) (hk : k ∈ entries) :
    k ∈ (tryAllocEntry cfg ctx sorting entries now dtc status priority).2 := by
  unfold tryAllocEntry
  split
  · exact mem_modify.mpr hk
  · split_ifs
    · simpa [hstrategy] using hk
    · exact mem_insert.mpr (inr hk)

theorem mem_of_stored
    (h : (tryAllocEntry cfg ctx sorting entries now dtc status priority).1.isSome = true)
    (hstrategy : cfg.displacementStrategy = .none) :
    dtc ∈ (tryAllocEntry cfg ctx sorting entries now dtc status priority).2 := by
  unfold tryAllocEntry at h ⊢
  split at h
  case h_1 entry hdtc =>
    exact mem_modify.mpr (Std.TreeMap.mem_iff_isSome_getElem?.mpr (by simp [hdtc]))
  case h_2 hdtc =>
    split_ifs at h ⊢ with hfull
    · simp [hstrategy] at h
    · exact Std.TreeMap.mem_insert_self

structure Tracked (cfg : DestinationConfig) (s : Storage) : Prop where
  wellFormed : WellFormed cfg s.entries
  stored_mem : ∀ k ∈ s.stored, k ∈ s.entries

/-- A code that is still stored where one may have been taken out was stored before. -/
theorem mem_of_mem_ite_erase {stored : Finset uint32} {p : Prop} [Decidable p]
    (h : k ∈ if p then stored.erase dtc else stored) : k ∈ stored := by
  split_ifs at h
  · exact mem_of_mem_erase h
  · exact h

theorem Tracked.track (h : Tracked cfg s) (hstrategy : cfg.displacementStrategy = .none)
    (input : MemoryInput) : Tracked cfg (track cfg ctx sorting s input) := by
  refine ⟨h.wellFormed.react input, ?_⟩
  intro k hk
  cases input with
  | store now dtc status priority =>
    simp only [MemoryDestination.track, nextStored] at hk
    split_ifs at hk with hstored
    · rcases mem_insert.mp hk with rfl | hk
      · exact mem_of_stored hstored hstrategy
      · exact mem_tryAllocEntry hstrategy (h.stored_mem k hk)
    · exact mem_tryAllocEntry hstrategy (h.stored_mem k hk)
  | clear locked dtc =>
    have hmem : k ∈ s.stored := mem_of_mem_ite_erase hk
    exact (rewritten_clear (keeps_true {}) locked dtc).mem k (h.stored_mem k hmem)
  | clearGroup locked isAllGroup group =>
    have hgroup : _ ∨ Rewritten (fun _ => True) s.entries _ :=
      clearGroup_empty_or_rewritten (keeps_true {}) locked isAllGroup group
    simp only [MemoryDestination.track, nextStored] at hk
    split_ifs at hk with hok hall
    · exact absurd hk (notMem_empty k)
    · have hkept := hgroup.resolve_left fun h => hall h.2
      exact hkept.mem k (h.stored_mem k (mem_filter.mp hk).1)
    · have hkept := hgroup.resolve_left fun h => hok (congrArg Prod.fst h.1)
      exact hkept.mem k (h.stored_mem k hk)
  | endOfAgingCycle threshold dtc status =>
    have hmem : k ∈ s.stored := mem_of_mem_ite_erase hk
    exact (rewritten_processEndOfAgingCycle (keeps_true ctx.props) threshold dtc status).mem k
      (h.stored_mem k hmem)
  | dtcStatusChanged dtc statusOld statusNew => exact mem_modify.mpr (h.stored_mem k hk)

theorem Tracked.history (h : Tracked cfg s) (hstrategy : cfg.displacementStrategy = .none)
    (history : List MemoryInput) :
    Tracked cfg (history.foldl (MemoryDestination.track cfg ctx sorting) s) :=
  foldlRecOn history _ h fun _ h input _ => h.track hstrategy input

def keySet (entries : Entries) : Finset uint32 := ⟨entries.keys, nodup_keys⟩

theorem mem_keySet : k ∈ keySet entries ↔ k ∈ entries := mem_keys

theorem card_keySet (entries : Entries) : (keySet entries).card = entries.size :=
  Std.TreeMap.length_keys

/-- The memory never holds every number there is. -/
theorem exists_not_mem (h : entries.size < 2 ^ 32) : ∃ k : uint32, k ∉ entries := by
  have hcard : ((Finset.range (entries.size + 1)).image (BitVec.ofNat 32)).card =
      entries.size + 1 := by
    rw [card_image_of_injOn, card_range]
    intro a ha b hb hab
    have ha' : a < entries.size + 1 := mem_range.mp ha
    have hb' : b < entries.size + 1 := mem_range.mp hb
    have := congrArg BitVec.toNat hab
    rwa [BitVec.toNat_ofNat, BitVec.toNat_ofNat, Nat.mod_eq_of_lt (by omega),
      Nat.mod_eq_of_lt (by omega)] at this
  have hlt : (keySet entries).card <
      ((Finset.range (entries.size + 1)).image (BitVec.ofNat 32)).card := by
    rw [hcard, card_keySet]
    omega
  obtain ⟨k, _, hk⟩ := exists_mem_notMem_of_card_lt_card hlt
  exact ⟨k, fun hmem => hk (mem_keySet.mpr hmem)⟩

theorem Tracked.stored_subset (h : Tracked cfg s) : s.stored ⊆ keySet s.entries :=
  fun k hk => mem_keySet.mpr (h.stored_mem k hk)

/-- Where every entry of a full memory is a stored trouble code, a refused one is too
many. -/
theorem Tracked.acceptsNew (h : Tracked cfg s) (hpos : 0 < cfg.maxNumberOfEventEntries)
    (hfull : isOverflow cfg s.entries = true → ∀ k ∈ s.entries, k ∈ s.stored) :
    AcceptsNew cfg ctx sorting s := by
  have hcard : isOverflow cfg s.entries = true →
      s.stored.card = cfg.maxNumberOfEventEntries.toNat := by
    intro hover
    have heq : s.stored = keySet s.entries :=
      h.stored_subset.antisymm fun k hk => hfull hover k (mem_keySet.mp hk)
    rw [heq, card_keySet]
    exact of_decide_eq_true hover
  constructor
  · intro now dtc status priority hlt
    cases hdtc : s.entries[dtc]? with
    | some entry => simp [tryAllocEntry, hdtc]
    | none =>
      have hroom : ¬ isOverflow cfg s.entries = true := fun hover => hlt.ne (hcard hover)
      rw [tryAllocEntry_of_room hdtc hroom]
      rfl
  · intro hnone
    by_contra hover
    have hzero := hcard (eq_true_of_ne_false hover)
    rw [hnone, card_empty] at hzero
    have : 0 < cfg.maxNumberOfEventEntries.toNat := hpos
    omega

/-- A full memory with an emptied entry refuses a new trouble code. -/
theorem Tracked.stored_of_acceptsNew (h : Tracked cfg s)
    (hstrategy : cfg.displacementStrategy = .none) (hnew : AcceptsNew cfg ctx sorting s)
    (hover : isOverflow cfg s.entries = true) (hk : k ∈ s.entries) : k ∈ s.stored := by
  by_contra hk'
  have hsize : s.entries.size = cfg.maxNumberOfEventEntries.toNat := of_decide_eq_true hover
  have hlt : s.stored.card < cfg.maxNumberOfEventEntries.toNat := by
    rw [← hsize, ← card_keySet]
    refine card_lt_card ⟨h.stored_subset, fun hsub => hk' (hsub (mem_keySet.mpr hk))⟩
  have hroom : s.entries.size < 2 ^ 32 := hsize ▸ cfg.maxNumberOfEventEntries.isLt
  obtain ⟨dtc, hdtc⟩ := exists_not_mem hroom
  have hnone : s.entries[dtc]? = none := by
    rwa [Std.TreeMap.mem_iff_isSome_getElem?, Bool.not_eq_true, isSome_eq_false_iff,
      isNone_iff_eq_none] at hdtc
  have hrefused := hnew.stores 0 dtc DTCStatus.create 0 hlt
  rw [tryAllocEntry_of_overflow hnone hover, hstrategy] at hrefused
  cases hrefused

end

/-- Without displacement, at every point of every history: a trouble code is stored
whenever fewer than the maximum are, and the memory is not full once none is, precisely
if the maximum is not zero and a full memory holds no entry of a code that was cleared or
aged and not stored again. -/
theorem capacity_regained_iff (cfg : DestinationConfig) (ctx : Context) (sorting : TimeSort)
    (hstrategy : cfg.displacementStrategy = .none) (history : List MemoryInput) :
    let s := history.foldl (track cfg ctx sorting) {}
    AcceptsNew cfg ctx sorting s ↔ 0 < cfg.maxNumberOfEventEntries ∧
      (isOverflow cfg s.entries = true → ∀ k ∈ s.entries, k ∈ s.stored) := by
  intro s
  have hempty : Tracked cfg {} := ⟨wellFormed_empty, fun k hk => absurd hk (notMem_empty k)⟩
  have h : Tracked cfg s := hempty.history hstrategy history
  constructor
  · intro hnew
    refine ⟨?_, fun hover k hk => h.stored_of_acceptsNew hstrategy hnew hover hk⟩
    by_contra hpos
    have hzero : cfg.maxNumberOfEventEntries.toNat = 0 := by
      have : ¬ 0 < cfg.maxNumberOfEventEntries.toNat := hpos
      omega
    have hsize : s.entries.size = 0 := by
      have := h.wellFormed.size_le
      omega
    have hnone : s.stored = ∅ := by
      have := card_le_card h.stored_subset
      rw [card_keySet, hsize] at this
      exact card_eq_zero.mp (by omega)
    have hover : isOverflow cfg s.entries = true := decide_eq_true (hsize.trans hzero.symm)
    cases hover.symm.trans (hnew.freed hnone)
  · rintro ⟨hpos, hfull⟩
    exact h.acceptsNew hpos hfull

theorem capacity_regained_iff_one :
    let s := [MemoryInput.store 1 8 ⟨0x2F⟩ 1].foldl
      (track ⟨2, .none, .confirmed, true⟩ { getDtcByValue := fun _ => some 5 } mergeSort) {}
    AcceptsNew ⟨2, .none, .confirmed, true⟩ { getDtcByValue := fun _ => some 5 } mergeSort s :=
  (capacity_regained_iff ⟨2, .none, .confirmed, true⟩ _ mergeSort rfl _).mpr
    ⟨by decide, fun hover => absurd hover (by decide)⟩

/-- The only stored trouble code is cleared; its emptied entry still fills the memory, and
the next trouble code is refused. -/
theorem cleared_entry_keeps_place :
    let cfg : DestinationConfig := ⟨1, .none, .confirmed, true⟩
    let ctx : Context := { getDtcByValue := fun _ => some 5 }
    let s := [MemoryInput.store 1 8 ⟨0x2F⟩ 1, .clear false { value := 8 }].foldl
      (track cfg ctx mergeSort) {}
    s.stored = ∅ ∧ isOverflow cfg s.entries = true ∧
      (tryAllocEntry cfg ctx mergeSort s.entries 2 9 ⟨0x2F⟩ 1).1 = none := by
  decide

end MemoryDestination

end AdaptivePlatform.Diag
