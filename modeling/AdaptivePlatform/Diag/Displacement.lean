import AdaptivePlatform.Foundations.RunningMaximum
import AdaptivePlatform.Diag.MemoryDestination

/-!
# Displacement of entries

Which entry makes room when the memory is full. The specified candidates are all
entries of the least important priority present; the scan of the code keeps the
first of them in the order of the trouble codes.
-/
namespace AdaptivePlatform.Diag.MemoryDestination

open RunningMaximum List Option

/-- Every entry is stored under the number of its trouble code. -/
def OwnKeys (entries : Entries) : Prop :=
  ∀ (k : uint32) (e : MemoryEntry), entries[k]? = some e → e.dtcValue = k

/-! ### The specified victims -/

section

variable (ctx : Context) (entries : Entries) (priorityNew : uint8)

def storedEntries : List MemoryEntry := entries.toList.map (·.2)

/-- The entries of the least important priority present, if it is less important than
the new one. -/
def leastImportantEntries : List MemoryEntry :=
  (storedEntries entries).filter fun e => priorityNew < e.getPriority ctx ∧
    ∀ e' ∈ storedEntries entries, e'.getPriority ctx ≤ e.getPriority ctx

def orElse (es es' : List MemoryEntry) : List MemoryEntry := if es.isEmpty then es' else es

/-- The entries of which the oldest is to make room. -/
def candidates : DisplacementStrategy → List MemoryEntry
  | .none => []
  | .prioOcc => leastImportantEntries ctx entries priorityNew
  | .full =>
    let least := leastImportantEntries ctx entries priorityNew
    let equal := (storedEntries entries).filter (·.getPriority ctx = priorityNew)
    if least.isEmpty then
      orElse (equal.filter (·.isPassive ctx))
        (equal.filter (·.dtcStatus.get .testNotCompletedThisOperationCycle))
    else orElse (least.filter (·.isPassive ctx)) least

end

def IsOldest (es : List MemoryEntry) (e : MemoryEntry) : Prop := e ∈ es ∧ ∀ x ∈ es, e.time ≤ x.time

instance (es : List MemoryEntry) (e : MemoryEntry) : Decidable (IsOldest es e) :=
  inferInstanceAs (Decidable (_ ∧ _))

def Displaced (before after : Entries) (k : uint32) (e : MemoryEntry) : Prop :=
  before[k]? = some e ∧ after[k]? = none

/-- One entry is displaced and it is the oldest candidate, or there is no candidate and
none is. -/
def DisplacesOldest (es : List MemoryEntry) (before after : Entries) : Prop :=
  (es = [] ∧ ∀ k e, ¬ Displaced before after k e) ∨
    ∃ k e, Displaced before after k e ∧ IsOldest es e ∧
      ∀ k' e', Displaced before after k' e' → k' = k

/-! ### The victims of the code -/

variable {e : MemoryEntry} (ctx : Context) (entries : Entries) (priorityNew : uint8)
  (sorting : TimeSort) {es : List MemoryEntry} {priority : uint8} {strategy : DisplacementStrategy}

theorem mem_storedEntries {entries : Entries} :
    e ∈ storedEntries entries ↔ ∃ k : uint32, entries[k]? = some e := by
  simp [storedEntries]

theorem leastImportantEntries_eq :
    leastImportantEntries ctx entries priorityNew =
      best (fun e => (e.getPriority ctx).toNat) priorityNew.toNat (storedEntries entries) := by
  refine filter_congr fun e _ => decide_eq_decide.mpr ?_
  simp [BitVec.lt_def, BitVec.le_def]

theorem getLowestPriorityEntries_eq :
    getLowestPriorityEntries ctx entries priorityNew =
      (leastImportantEntries ctx entries priorityNew).take 1 := by
  have hscan : ∀ (items : List (uint32 × MemoryEntry)) (p : uint8) (found : List MemoryEntry),
      (items.foldl (fun (found : uint8 × List MemoryEntry) (item : uint32 × MemoryEntry) =>
        if found.1 < item.2.getPriority ctx then (item.2.getPriority ctx, [item.2]) else found)
        (p, found)).2 =
      ((items.map (·.2)).foldl (improve fun e => (e.getPriority ctx).toNat) (p.toNat, found)).2 := by
    intro items
    induction items with
    | nil => exact fun _ _ => rfl
    | cons item items ih =>
      intro p found
      by_cases h : p < item.2.getPriority ctx
      · have h' : p.toNat < (item.2.getPriority ctx).toNat := h
        simp only [foldl_cons, map_cons, improve, h, h']
        exact ih _ _
      · have h' : ¬ p.toNat < (item.2.getPriority ctx).toNat := h
        simp only [foldl_cons, map_cons, improve, h, h']
        exact ih _ _
  rw [leastImportantEntries_eq, ← scan_items]
  exact hscan _ _ _

theorem getOldestEntry_spec (hes : es ≠ []) :
    ∃ e, getOldestEntry sorting es = some e ∧ IsOldest es e := by
  cases es with
  | nil => exact absurd rfl hes
  | cons a es =>
    cases es with
    | nil => exact ⟨a, rfl, by simp, by simp⟩
    | cons b es =>
      have hperm := sorting.perm (a :: b :: es)
      have hsorted := sorting.sorted (a :: b :: es)
      cases hsort : sorting.sort (a :: b :: es) with
      | nil => rw [hsort] at hperm; simpa using hperm.length_eq
      | cons e rest =>
        rw [hsort] at hperm hsorted
        refine ⟨e, by simp [getOldestEntry, hsort], hperm.mem_iff.mp (by simp), ?_⟩
        intro x hx
        rcases mem_cons.mp (hperm.mem_iff.mpr hx) with rfl | hx
        · exact BitVec.le_refl _
        · exact (pairwise_cons.mp hsorted).1 x hx

theorem getElem?_allocEntry (now : uint64) (dtc : uint32) (status : DTCStatus) (k : uint32) :
    (allocEntry entries now dtc status).2[k]? =
      if k = dtc then some { dtcValue := dtc, dtcStatus := status, time := now }
      else entries[k]? := by
  simp [allocEntry, Std.TreeMap.getElem?_insert, @eq_comm _ k]

/-- The new entry takes the place of the victim; nothing else changes. -/
theorem getElem?_displace (props : CommonProps) (entries : Entries) (now : uint64) (dtc : uint32)
    (status : DTCStatus) (e : MemoryEntry) {k : uint32} (hk : k ≠ dtc) :
    (displace props entries now dtc status (some e)).2[k]? =
      if k = e.dtcValue then none else entries[k]? := by
  rw [displace, getElem?_allocEntry, if_neg hk, Std.TreeMap.getElem?_erase]
  simp [@eq_comm _ k]

/-- What is displaced by the second half of the two strategies. -/
theorem displacesOldest_iff {props : CommonProps} {entries : Entries} {now : uint64}
    {dtc : uint32} {status : DTCStatus} {victim : Option MemoryEntry}
    (hnew : entries[dtc]? = none) (hvictim : ∀ e ∈ victim, entries[e.dtcValue]? = some e) :
    DisplacesOldest es entries (displace props entries now dtc status victim).2 ↔
      (victim = none → es = []) ∧ ∀ e ∈ victim, IsOldest es e := by
  cases victim with
  | none =>
    have hsame : ∀ k e, ¬ Displaced entries (displace props entries now dtc status none).2 k e :=
      fun k e h => some_ne_none e (h.1.symm.trans h.2)
    constructor
    · rintro (⟨hes, _⟩ | ⟨k, e, h, _⟩)
      · simp [hes]
      · exact absurd h (hsame k e)
    · rintro ⟨hes, _⟩
      exact Or.inl ⟨hes rfl, hsame⟩
  | some e =>
    have he : entries[e.dtcValue]? = some e := hvictim e rfl
    -- exactly the key of the victim disappears
    have honly : ∀ k e', Displaced entries (displace props entries now dtc status (some e)).2 k e' ↔
        k = e.dtcValue ∧ e' = e := by
      intro k e'
      constructor
      · rintro ⟨hbefore, hafter⟩
        have hk : k ≠ dtc := by
          rintro rfl
          exact some_ne_none e' (hbefore.symm.trans hnew)
        rw [getElem?_displace _ _ _ _ _ _ hk] at hafter
        split_ifs at hafter with hkey
        · subst hkey
          exact ⟨rfl, some.inj (hbefore.symm.trans he)⟩
        · exact absurd (hbefore.symm.trans hafter) (some_ne_none e')
      · rintro ⟨rfl, rfl⟩
        have hk : e'.dtcValue ≠ dtc := by
          intro hk
          rw [hk, hnew] at he
          exact absurd he.symm (some_ne_none e')
        refine ⟨he, ?_⟩
        rw [getElem?_displace _ _ _ _ _ _ hk, if_pos rfl]
    constructor
    · rintro (⟨_, hnone⟩ | ⟨k, e', h, hold, _⟩)
      · exact absurd ((honly _ _).mpr ⟨rfl, rfl⟩) (hnone e.dtcValue e)
      · obtain ⟨rfl, rfl⟩ := (honly k e').mp h
        simpa using hold
    · rintro ⟨_, hold⟩
      refine Or.inr ⟨e.dtcValue, e, (honly _ _).mpr ⟨rfl, rfl⟩, hold e rfl, ?_⟩
      intro k' e' h
      exact ((honly k' e').mp h).1

/-- The code takes the first of the least important entries. -/
theorem victimPrioOcc_eq (priority : uint8) : victimPrioOcc ctx entries sorting priority =
      (leastImportantEntries ctx entries priority).head? := by
  rw [victimPrioOcc, getLowestPriorityEntries_eq]
  cases leastImportantEntries ctx entries priority <;> rfl

theorem victimFull_of_least (priority : uint8)
    (hleast : leastImportantEntries ctx entries priority = e :: es) :
    victimFull ctx entries sorting priority = some e := by
  simp only [victimFull, getLowestPriorityEntries_eq, hleast]
  cases hp : e.isPassive ctx <;> simp [filterPassiveEntries, hp, getOldestEntry]

/-- Where nothing is less important, the code chooses as specified. -/
theorem victimFull_of_equal (priority : uint8)
    (hleast : leastImportantEntries ctx entries priority = []) :
    victimFull ctx entries sorting priority =
      getOldestEntry sorting (candidates ctx entries priority .full) := by
  have hequal : getEqualPriorityEntries ctx entries priority =
      (storedEntries entries).filter (·.getPriority ctx = priority) := rfl
  simp only [victimFull, getLowestPriorityEntries_eq, hleast, candidates, take_nil, isEmpty_nil,
    ↓reduceIte, filterPassiveEntries, filterTestNotComplateEntries, ← hequal]
  cases getEqualPriorityEntries ctx entries priority with
  | nil => rfl
  | cons e es =>
    generalize List.filter (·.isPassive ctx) (e :: es) = passive
    generalize List.filter (·.dtcStatus.get .testNotCompletedThisOperationCycle) (e :: es) =
      notCompleted
    cases passive with
    | nil => cases notCompleted <;> rfl
    | cons p passive => rfl

theorem stored_of_victimPrioOcc {ctx : Context} {entries : Entries} {sorting : TimeSort}
    (h : victimPrioOcc ctx entries sorting priority = some e) : e ∈ storedEntries entries := by
  rw [victimPrioOcc_eq] at h
  exact (mem_filter.mp (mem_of_mem_head? h)).1

theorem stored_of_victimFull {ctx : Context} {entries : Entries} {sorting : TimeSort}
    (h : victimFull ctx entries sorting priority = some e) : e ∈ storedEntries entries := by
  cases hleast : leastImportantEntries ctx entries priority with
  | cons c cs =>
    rw [victimFull_of_least ctx entries sorting priority hleast] at h
    obtain rfl := some.inj h
    have hmem : c ∈ leastImportantEntries ctx entries priority := by simp [hleast]
    exact (mem_filter.mp hmem).1
  | nil =>
    rw [victimFull_of_equal ctx entries sorting priority hleast] at h
    have hne : candidates ctx entries priority .full ≠ [] := by
      intro hnil
      rw [hnil] at h
      cases h.symm
    obtain ⟨e', he', hold, _⟩ := getOldestEntry_spec sorting hne
    cases h.symm.trans he'
    simp only [candidates, hleast, isEmpty_nil, ↓reduceIte, orElse] at hold
    split_ifs at hold
    all_goals exact (mem_filter.mp (mem_filter.mp hold).1).1

def victim (ctx : Context) (entries : Entries) (sorting : TimeSort) (priority : uint8) :
    DisplacementStrategy → Option MemoryEntry
  | .none => none
  | .full => victimFull ctx entries sorting priority
  | .prioOcc => victimPrioOcc ctx entries sorting priority

theorem stored_of_victim {ctx : Context} {entries : Entries} {sorting : TimeSort}
    (h : victim ctx entries sorting priority strategy = some e) : e ∈ storedEntries entries := by
  cases strategy with
  | none => cases h.symm
  | full => exact stored_of_victimFull h
  | prioOcc => exact stored_of_victimPrioOcc h

theorem OwnKeys.getElem?_victim {ctx : Context} {entries : Entries} {sorting : TimeSort}
    (hkeys : OwnKeys entries) (h : victim ctx entries sorting priority strategy = some e) :
    entries[e.dtcValue]? = some e := by
  obtain ⟨k, hk⟩ := mem_storedEntries.mp (stored_of_victim h)
  rw [hkeys k e hk]
  exact hk

theorem tryAllocEntry_of_overflow {cfg : DestinationConfig} {ctx : Context} {sorting : TimeSort}
    {entries : Entries} {now : uint64} {dtc : uint32} {status : DTCStatus}
    (hnew : entries[dtc]? = none) (hfull : isOverflow cfg entries = true) :
    tryAllocEntry cfg ctx sorting entries now dtc status priority =
      displace ctx.props entries now dtc status
        (victim ctx entries sorting priority cfg.displacementStrategy) := by
  simp only [tryAllocEntry, hnew, hfull]
  cases cfg.displacementStrategy <;> rfl

/-- The victim is the oldest candidate precisely if the first of the least important
entries is. -/
theorem victim_oldest_iff (priority : uint8) (hstrategy : strategy ≠ .none) :
    ((victim ctx entries sorting priority strategy = none →
        candidates ctx entries priority strategy = []) ∧
      ∀ e ∈ victim ctx entries sorting priority strategy,
        IsOldest (candidates ctx entries priority strategy) e) ↔
    ∀ e ∈ (leastImportantEntries ctx entries priority).head?,
      IsOldest (candidates ctx entries priority strategy) e := by
  cases hleast : leastImportantEntries ctx entries priority with
  | cons e es =>
    have hvictim : victim ctx entries sorting priority strategy = some e := by
      cases strategy with
      | none => exact absurd rfl hstrategy
      | full => exact victimFull_of_least ctx entries sorting priority hleast
      | prioOcc => simp [victim, victimPrioOcc_eq, hleast]
    simp [hvictim]
  | nil =>
    refine iff_of_true ?_ (by simp)
    cases strategy with
    | none => exact absurd rfl hstrategy
    | prioOcc => simp [victim, victimPrioOcc_eq, hleast, candidates]
    | full =>
      have hvictim : victim ctx entries sorting priority .full =
          getOldestEntry sorting (candidates ctx entries priority .full) :=
        victimFull_of_equal ctx entries sorting priority hleast
      rw [hvictim]
      by_cases hnone : candidates ctx entries priority .full = []
      · simp [hnone, getOldestEntry]
      · obtain ⟨e, he, hold⟩ := getOldestEntry_spec sorting hnone
        simp [he, hold]

/-- Storing a new trouble code in a full memory displaces the oldest candidate of the
strategy, and nothing if there is none, precisely if the least important entry with the
smallest number is an oldest candidate (or nothing is less important). -/
theorem displacement_oldest_iff (cfg : DestinationConfig) (ctx : Context) (sorting : TimeSort)
    {entries : Entries} (now : uint64) {dtc : uint32} (status : DTCStatus) (priority : uint8)
    (hstrategy : cfg.displacementStrategy ≠ .none) (hkeys : OwnKeys entries)
    (hfull : isOverflow cfg entries = true) (hnew : entries[dtc]? = none) :
    DisplacesOldest (candidates ctx entries priority cfg.displacementStrategy) entries
        (tryAllocEntry cfg ctx sorting entries now dtc status priority).2 ↔
      ∀ e ∈ (leastImportantEntries ctx entries priority).head?,
        IsOldest (candidates ctx entries priority cfg.displacementStrategy) e := by
  rw [tryAllocEntry_of_overflow hnew hfull, ← victim_oldest_iff ctx entries sorting priority hstrategy]
  exact displacesOldest_iff hnew fun e he => hkeys.getElem?_victim he

/-- A sort that `std::sort` may be. -/
def mergeSort : TimeSort where
  sort es := es.mergeSort fun e e' => e.time ≤ e'.time
  perm es := List.mergeSort_perm es _
  sorted es := by
    have htrans : ∀ a b c : MemoryEntry, decide (a.time ≤ b.time) = true →
        decide (b.time ≤ c.time) = true → decide (a.time ≤ c.time) = true := by
      intro a b c hab hbc
      exact decide_eq_true (BitVec.le_trans (of_decide_eq_true hab) (of_decide_eq_true hbc))
    have htotal : ∀ a b : MemoryEntry,
        (decide (a.time ≤ b.time) || decide (b.time ≤ a.time)) = true := by
      intro a b
      simpa using BitVec.le_total a.time b.time
    simpa using List.pairwise_mergeSort htrans htotal es

/-- Two entries of the same priority, the older one under the larger number. -/
def olderSecond : Entries :=
  ((∅ : Entries).insert 1 { dtcValue := 1, time := 20 }).insert 2 { dtcValue := 2, time := 10 }

/-- Two entries of the same priority, the older one under the smaller number. -/
def olderFirst : Entries :=
  ((∅ : Entries).insert 1 { dtcValue := 1, time := 10 }).insert 2 { dtcValue := 2, time := 20 }

theorem ownKeys_olderFirst : OwnKeys olderFirst := by
  intro k e h
  have hmem : (k, e) ∈ olderFirst.toList := Std.TreeMap.mem_toList_iff_getElem?_eq_some.mpr h
  have hall : ∀ p ∈ olderFirst.toList, p.2.dtcValue = p.1 := by decide
  exact hall (k, e) hmem

/-- The older of two entries makes room where it has the smaller number. -/
theorem displacement_oldest_olderFirst :
    DisplacesOldest (candidates { getDtcByValue := fun _ => some 5 } olderFirst 1 .prioOcc)
      olderFirst (tryAllocEntry ⟨2, .prioOcc, .confirmed, true⟩ { getDtcByValue := fun _ => some 5 }
        mergeSort olderFirst 30 3 ⟨0x2F⟩ 1).2 := by
  refine (displacement_oldest_iff ⟨2, .prioOcc, .confirmed, true⟩ _ mergeSort 30 _ 1 (by decide)
    ownKeys_olderFirst (by decide) (by decide)).mpr ?_
  intro e he
  obtain rfl : e = { dtcValue := 1, time := 10 } := by
    have : some e = some { dtcValue := 1, time := 10 } := he.symm.trans (by decide)
    exact some.inj this
  decide

/-- Both entries are less important than the new trouble code, and the younger one is
displaced: its number is smaller. -/
theorem displacement_takes_younger :
    candidates { getDtcByValue := fun _ => some 5 } olderSecond 1 .prioOcc =
      [{ dtcValue := 1, time := 20 }, { dtcValue := 2, time := 10 }] ∧
    let after := (tryAllocEntry ⟨2, .prioOcc, .confirmed, true⟩ { getDtcByValue := fun _ => some 5 }
      mergeSort olderSecond 30 3 ⟨0x2F⟩ 1).2
    after[1#32]? = none ∧ after[2#32]? = some { dtcValue := 2, time := 10 } := by
  decide

end AdaptivePlatform.Diag.MemoryDestination
