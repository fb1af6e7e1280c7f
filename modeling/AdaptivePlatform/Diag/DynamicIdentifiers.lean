import AdaptivePlatform.Foundations.Runs
import AdaptivePlatform.Diag.DiagnosticDataManager

/-!
# Dynamically defined data identifiers

Service 0x2C defines data identifiers from parts of others, over as many requests as
the tester likes, and clears them. A change of the session clears those that are no
longer readable.
-/
namespace AdaptivePlatform.Diag

open Runs Option

/-- `diagnosticDynamicDataModelTable_` -/
abbrev DynamicTable := Std.TreeMap uint16 (List SourceData)

/-- The answers of `CheckDataIdentifierSession` and `CheckDataIdentifierSecurityLevel`. -/
structure ReadChecks where
  session : uint16 → Bool
  securityLevel : uint16 → Bool

namespace ReadChecks

variable (checks : ReadChecks)

def readable (record : List SourceData) : Bool :=
  record.all fun source => checks.session source.id && checks.securityLevel source.id

/-- `_clearWhenSessionChange`: the loops are left with the first identifier that is cleared. -/
def clearWhenSessionChange (table : DynamicTable) : DynamicTable :=
  match table.toList.find? fun item => !checks.readable item.2 with
  | none => table
  | some item => table.erase item.1

/-- What is still defined is readable, and what is readable is still defined. -/
structure CleanedUp (table table' : DynamicTable) : Prop where
  readable : ∀ id : uint16, ∀ record ∈ table'[id]?, checks.readable record = true
  kept : ∀ id : uint16, ∀ record ∈ table[id]?, checks.readable record = true →
    table'[id]? = some record

def Affected (table : DynamicTable) (id : uint16) : Prop :=
  ∃ record ∈ table[id]?, checks.readable record = false

variable {checks} {table : DynamicTable}

/-- Erasing one affected identifier is enough precisely if there is no other. -/
theorem cleanedUp_erase_iff {k : uint16} (hk : checks.Affected table k) :
    checks.CleanedUp table (table.erase k) ↔ ∀ id, checks.Affected table id → id = k := by
  have herase : ∀ id, (table.erase k)[id]? = if k = id then none else table[id]? := by
    intro id
    simp [Std.TreeMap.getElem?_erase]
  constructor
  · rintro h id ⟨record, hrecord, hnot⟩
    by_contra hne
    have := h.readable id record (by rwa [herase, if_neg (Ne.symm hne)])
    simp [this] at hnot
  · intro h
    constructor
    · intro id record hrecord
      rw [herase] at hrecord
      split_ifs at hrecord with hid
      · simp at hrecord
      · by_contra hnot
        exact hid (h id ⟨record, hrecord, by simpa using hnot⟩).symm
    · intro id record hrecord hreadable
      rw [herase, if_neg, hrecord]
      rintro rfl
      obtain ⟨record', hrecord', hnot⟩ := hk
      cases hrecord.symm.trans hrecord'
      simp [hreadable] at hnot

end ReadChecks

/-- A change of the session leaves what it should precisely if at most one dynamic identifier
has a source that is no longer readable. -/
theorem clearWhenSessionChange_iff (checks : ReadChecks) (table : DynamicTable) :
    checks.CleanedUp table (checks.clearWhenSessionChange table) ↔
      ∀ id id', checks.Affected table id → checks.Affected table id' → id = id' := by
  unfold ReadChecks.clearWhenSessionChange
  cases hfind : table.toList.find? fun item => !checks.readable item.2 with
  | none =>
    have hreadable : ∀ id : uint16, ∀ record ∈ table[id]?, checks.readable record = true := by
      intro id record hrecord
      have hmem := Std.TreeMap.mem_toList_iff_getElem?_eq_some.mpr hrecord
      simpa using List.find?_eq_none.mp hfind _ hmem
    refine iff_of_true ⟨hreadable, fun _ _ hrecord _ => hrecord⟩ ?_
    rintro id _ ⟨record, hrecord, hnot⟩
    simp [hreadable id record hrecord] at hnot
  | some item =>
    have hmem := Std.TreeMap.mem_toList_iff_getElem?_eq_some.mp (List.mem_of_find?_eq_some hfind)
    have hitem : checks.Affected table item.1 :=
      ⟨item.2, hmem, by simpa using List.find?_some hfind⟩
    rw [ReadChecks.cleanedUp_erase_iff hitem]
    constructor
    · intro h id id' hid hid'
      rw [h id hid, h id' hid']
    · intro h id hid
      exact h id item.1 hid hitem

/-- Two identifiers with the same source: the second stays defined. -/
theorem clearWhenSessionChange_two :
    let checks : ReadChecks := ⟨fun id => id ≠ 0xF190, fun _ => true⟩
    let table := ((∅ : DynamicTable).insert 0xF300 [⟨0xF190, 0, 1⟩]).insert 0xF301 [⟨0xF190, 1, 1⟩]
    ¬ checks.CleanedUp table (checks.clearWhenSessionChange table) := by
  intro checks table h
  cases h.readable 0xF301 [⟨0xF190, 1, 1⟩] (by decide)

/-! ### Defining and clearing -/

structure DefineConfig where
  /-- `maxSourceElement` of the identifiers that can be defined. -/
  instanceTable : uint16 → Option ℕ
  /-- The sizes of the identifiers that are not dynamic. -/
  nSize : uint16 → Option ℕ
  dynamicAvailableIdentifier : List uint16
  maxPayloadLength : ℕ

inductive DefineRequest
  | define (id : uint16) (record : List SourceData)
  | clear (ids : List uint16)
  | clearAll
  deriving DecidableEq, Repr

def dataSize (record : List SourceData) : ℕ := (record.map (·.nSize.toNat)).sum

namespace DefineConfig

variable (cfg : DefineConfig) (table : DynamicTable)

def getDataSize (did : uint16) : ℕ := (cfg.nSize did).getD (dataSize (table.getD did []))

def isInside (source : SourceData) : Bool :=
  (cfg.nSize source.id).any fun size => source.nPos.toNat + source.nSize.toNat ≤ size

/-- The checks of `_defindAndResponse` and of `Defined`. The size to which that of the request
is added is asked for with the wrong identifier: 0, the value the size has before. -/
def accepts (id : uint16) (record : List SourceData) : Bool :=
  (cfg.instanceTable id).any (fun max => (table.getD id []).length + record.length ≤ max) &&
    cfg.getDataSize table 0 + dataSize record ≤ cfg.maxPayloadLength &&
    record.all cfg.isInside && cfg.dynamicAvailableIdentifier.contains id

def process : DefineRequest → Option DynamicTable
  | .define id record =>
    some (if cfg.accepts table id record then table.insert id (table.getD id [] ++ record)
      else table)
  | .clear ids => some (ids.foldl .erase table)
  | .clearAll => some ∅

/-- What is required of a definition. -/
structure Allowed (id : uint16) (record : List SourceData) : Prop where
  elements : ∃ max ∈ cfg.instanceTable id, record.length ≤ max
  inside : record.all cfg.isInside = true
  size : dataSize record ≤ cfg.maxPayloadLength

def Within : Prop := ∀ id : uint16, ∀ record ∈ table[id]?, cfg.Allowed id record

/-- A request that is accepted does not take the whole definition beyond the payload. -/
def Fits : DefineRequest → Prop
  | .define id record => cfg.accepts table id record = true →
    dataSize (table.getD id []) + dataSize record ≤ cfg.maxPayloadLength
  | _ => True

variable {cfg} {table : DynamicTable}

theorem Within.erase (h : cfg.Within table) (id : uint16) : cfg.Within (table.erase id) := by
  intro k record hrecord
  rw [Std.TreeMap.getElem?_erase] at hrecord
  split_ifs at hrecord
  · simp at hrecord
  · exact h k record hrecord

theorem within_empty : cfg.Within ∅ := by
  intro k record hrecord
  simp at hrecord

theorem dataSize_append (record record' : List SourceData) :
    dataSize (record ++ record') = dataSize record + dataSize record' := by
  simp [dataSize]

theorem Within.define_iff (h : cfg.Within table) {id : uint16} {record : List SourceData}
    (haccepts : cfg.accepts table id record = true) :
    cfg.Within (table.insert id (table.getD id [] ++ record)) ↔
      dataSize (table.getD id []) + dataSize record ≤ cfg.maxPayloadLength := by
  simp only [accepts, Bool.and_eq_true, any_eq_true, decide_eq_true_eq] at haccepts
  obtain ⟨⟨⟨⟨max, hmax, helements⟩, -⟩, hinside⟩, -⟩ := haccepts
  rw [← dataSize_append]
  constructor
  · intro h'
    exact (h' id _ (by simp)).size
  · intro hsize k r hr
    rw [Std.TreeMap.getElem?_insert] at hr
    split_ifs at hr with hk
    · obtain rfl := Std.LawfulEqCmp.compare_eq_iff_eq.mp hk
      cases hr
      have hold : (table.getD id []).all cfg.isInside = true := by
        rw [Std.TreeMap.getD_eq_getD_getElem?]
        cases hid : table[id]? with
        | none => rfl
        | some record => exact (h id record hid).inside
      refine ⟨⟨max, hmax, by simpa using helements⟩, ?_, hsize⟩
      rw [List.all_append, hold, hinside]
      rfl
    · exact h k r hr

theorem Within.process_iff (h : cfg.Within table) (request : DefineRequest) :
    (∃ table', cfg.process table request = some table' ∧ cfg.Within table') ↔
      cfg.Fits table request := by
  cases request with
  | define id record =>
    simp only [process, some.injEq, exists_eq_left', Fits]
    split_ifs with haccepts
    · rw [h.define_iff haccepts]
      simp [haccepts]
    · simp [haccepts, h]
  | clear ids =>
    refine iff_of_true ⟨_, rfl, ?_⟩ trivial
    exact List.foldlRecOn ids _ h fun _ h id _ => h.erase id
  | clearAll => exact iff_of_true ⟨_, rfl, within_empty⟩ trivial

end DefineConfig

/-- Over every history of requests: the definitions stay within the limits precisely if no
accepted request takes the size of the whole definition beyond the payload of the channel. -/
theorem definitions_within_iff (cfg : DefineConfig) (history : List DefineRequest) :
    Always cfg.process cfg.Within ∅ history ↔ Along cfg.process cfg.Fits ∅ history :=
  always_iff_along (fun _ _ _ _ _ _ => trivial) (fun _ request _ h => h.process_iff request)
    (trivial : (fun _ : DynamicTable => True) ∅) DefineConfig.within_empty

/-- Two requests of 5 bytes each for a channel of 8. -/
theorem definitions_exceed :
    let cfg : DefineConfig := ⟨fun _ => some 4, fun id => if id = 0xF190 then some 20 else none,
      [0xF300], 8⟩
    ¬ Always cfg.process cfg.Within ∅
      [.define 0xF300 [⟨0xF190, 0, 5⟩], .define 0xF300 [⟨0xF190, 5, 5⟩]] := by
  rintro cfg ⟨-, _, hfirst, -, _, hsecond, h⟩
  cases hfirst
  cases hsecond
  exact absurd (h 0xF300 [⟨0xF190, 0, 5⟩, ⟨0xF190, 5, 5⟩] (by decide)).size (by decide)

end AdaptivePlatform.Diag
