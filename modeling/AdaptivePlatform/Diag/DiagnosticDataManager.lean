import AdaptivePlatform.Foundations.Bytes
import AdaptivePlatform.Foundations.PartialLists

/-!
# Reading diagnostic data

The data of an identifier is read in one of three ways: the data interface is
asked for it, it is put together from data elements, or it is a dynamic
identifier whose definition says from which other identifiers its bytes come.
The data manager sorts the identifiers it is given by these ways and
concatenates what each of them reads.
-/
namespace AdaptivePlatform.Diag

open Bytes PartialLists List Option

abbrev int32 := BitVec 32

/-- An identifier with its data: `DiagnosticData` and `DiagnosticDataElement`. -/
structure DataRecord (w : ℕ) where
  id : BitVec w
  record : List uint8

abbrev DiagnosticData := DataRecord 16

abbrev DiagnosticDataElement := DataRecord 32

/-- `Read` of `GenericDataIdentifierInterface` and of `GenericDataElementInterface` -/
abbrev DataInterface (w : ℕ) := List (BitVec w) → Except int32 (List (DataRecord w))

/-- The interface returns one record for each identifier it is asked for. -/
def DataInterface.AnswersEach {w : ℕ} (read : DataInterface w) : Prop :=
  ∀ ids, ∃ data, read ids = .ok data ∧ data.map (·.id) = ids ∧ ∀ d ∈ data, d.record ≠ []

inductive DiagnosticDataElementProvider
  | unused
  | external
  | dcmSession
  | dcmSecurityLevel
  deriving DecidableEq, Repr

structure DiagnosticDataParamterModel where
  offset : uint32
  provider : DiagnosticDataElementProvider
  elementId : uint32

inductive DiagnosticDataReadMethod
  | useReadMothod
  | useReadElementMothod
  deriving DecidableEq, Repr

structure DiagnosticDataModel where
  details : List DiagnosticDataParamterModel := []
  readType : DiagnosticDataReadMethod := .useReadMothod

structure SourceData where
  id : uint16
  nPos : uint8
  nSize : uint8
  deriving DecidableEq, Repr

/-- `record.insert(record.cbegin() + offset, …)`, which is not defined beyond the end. -/
def insertAt (record : List uint8) (offset : ℕ) (data : List uint8) : Option (List uint8) :=
  if offset ≤ record.length then some (record.take offset ++ data ++ record.drop offset) else none

abbrev DataResult := Except int32 (List DiagnosticData)

structure DiagnosticDataManager where
  diagnosticDataModelTable : uint16 → Option DiagnosticDataModel
  dynamicAvailableIdentifier : List uint16 := []
  diagnosticDynamicDataModelTable : uint16 → Option (List SourceData) := fun _ => none
  dataInterface : DataInterface 16
  dataElementInterface : DataInterface 32
  currentSessionId : uint8 := 0
  currentSecurityLevelId : uint8 := 0

namespace DiagnosticDataManager

variable (m : DiagnosticDataManager) (elements : List DiagnosticDataElement) (id : uint16)

def isDynamic : Bool := m.dynamicAvailableIdentifier.contains id

def readType : Option DiagnosticDataReadMethod := (m.diagnosticDataModelTable id).map (·.readType)

def details : List DiagnosticDataParamterModel :=
  ((m.diagnosticDataModelTable id).map (·.details)).getD []

/-- The sources of a dynamic identifier; one that is not defined has none. -/
def sources : List SourceData := (m.diagnosticDynamicDataModelTable id).getD []

/-! ### Data elements -/

variable (ids : List uint16)

/-- The identifiers of a list for which `_readByElement` makes a record. -/
def readByElementTable : List uint16 :=
  ids.filter fun id => m.readType id = some .useReadElementMothod

def externalElementTable : List uint32 :=
  (m.readByElementTable ids).flatMap fun id =>
    ((m.details id).filter (·.provider = .external)).map (·.elementId)

def insertParamter (record : List uint8) (p : DiagnosticDataParamterModel) : Option (List uint8) :=
  match p.provider with
  | .unused => some record
  | .external =>
    (elements.filter (·.id = p.elementId)).foldlM
      (fun record element => insertAt record p.offset.toNat element.record) record
  | .dcmSession => insertAt record p.offset.toNat [m.currentSessionId]
  | .dcmSecurityLevel => insertAt record p.offset.toNat [m.currentSecurityLevelId]

def elementRecord : Option (List uint8) := (m.details id).foldlM (m.insertParamter elements) []

def readByElement : Option DataResult :=
  match m.dataElementInterface (m.externalElementTable ids) with
  | .error error => some (.error error)
  | .ok elements =>
    ((m.readByElementTable ids).mapM fun id =>
      (m.elementRecord elements id).map (DataRecord.mk id)).map fun data =>
        if data.isEmpty then .error (-1) else .ok data

/-! ### Dynamic identifiers -/

section

variable (readSource : uint16 → Option DataResult)

/-- The bytes of one source are appended. A source that cannot be read is passed over; taking the
first of no records, or bytes beyond the end of the record, is not defined. -/
def appendSource (record : List uint8) (s : SourceData) : Option (List uint8) :=
  match readSource s.id with
  | none => none
  | some (.error _) => some record
  | some (.ok data) =>
    data.head?.bind fun sourceData =>
      (segment sourceData.record s.nPos.toNat s.nSize.toNat).map (record ++ ·)

def dynamicRecord (id : uint16) : Option (List uint8) :=
  (m.sources id).foldlM (appendSource readSource) []

def readDynamic (ids : List uint16) : Option (List DiagnosticData) :=
  ids.mapM fun id => (m.dynamicRecord readSource id).map (DataRecord.mk id)

end

/-! ### `Read` -/

variable (ids : List uint16)

def supportDataIdentifierTable : List uint16 :=
  ids.filter fun id => !m.isDynamic id && m.readType id = some .useReadMothod

def supportDynamicDataIdentifierTable : List uint16 := ids.filter m.isDynamic

def supportDataElementTable : List uint16 :=
  ids.filter fun id => !m.isDynamic id && m.readType id = some .useReadElementMothod

/-- The result of `Read` from those of its three parts; the last error counts. -/
def joinParts : DataResult → List DiagnosticData → DataResult → DataResult
  | _, _, .error err => .error err
  | .error err, _, .ok _ => .error err
  | .ok direct, dynamic, .ok element => .ok (direct ++ dynamic ++ element)

/-- `Read` with a bound on the depth to which dynamic identifiers refer to dynamic identifiers.
The data interface and `_readByElement` are given the whole list, whichever identifiers in it
have to be read that way. -/
def read : ℕ → List uint16 → Option DataResult
  | 0, _ => none
  | depth + 1, ids =>
    (m.readDynamic (fun id => read depth [id]) (m.supportDynamicDataIdentifierTable ids)).bind
      fun dynamic =>
    (if (m.supportDataElementTable ids).isEmpty then some (.ok []) else m.readByElement ids).map
      fun element =>
    joinParts
      (if (m.supportDataIdentifierTable ids).isEmpty then .ok [] else m.dataInterface ids)
      dynamic element

/-! ### Which identifiers have a record in the result -/

/-- The definition of the dynamic identifier takes at least one byte. -/
def readsDynamic (id : uint16) : Bool := m.isDynamic id && (m.sources id).any (·.nSize ≠ 0)

/-- The identifier is read by element and at least one parameter has a provider. -/
def readsElement (id : uint16) : Bool :=
  m.readType id = some .useReadElementMothod && (m.details id).any (·.provider ≠ .unused)

/-- The identifiers of the records that are not empty, in the order of the result. -/
def answered : List uint16 :=
  (if (m.supportDataIdentifierTable ids).isEmpty then [] else ids) ++
    ids.filter m.readsDynamic ++
    (if (m.supportDataElementTable ids).isEmpty then [] else ids.filter m.readsElement)

end DiagnosticDataManager

theorem insertAt_ne_nil_iff {record data record' : List uint8} {offset : ℕ}
    (h : insertAt record offset data = some record') : record' ≠ [] ↔ record ≠ [] ∨ data ≠ [] := by
  unfold insertAt at h
  split_ifs at h
  cases h
  have hlen : (record.take offset ++ data ++ record.drop offset).length =
      record.length + data.length := by
    simp only [length_append, length_take, length_drop]
    omega
  simp only [← length_pos_iff]
  omega

def DataRecord.isSent {w : ℕ} (d : DataRecord w) : Bool := !d.record.isEmpty

theorem DataRecord.map_id_filter_isSent {w : ℕ} {record : BitVec w → Option (List uint8)}
    {ids : List (BitVec w)} {data : List (DataRecord w)} {p : BitVec w → Bool}
    (h : ids.mapM (fun id => (record id).map (DataRecord.mk id)) = some data)
    (hp : ∀ id ∈ ids, ∀ r, record id = some r → (r ≠ [] ↔ p id = true)) :
    (data.filter isSent).map (·.id) = ids.filter p := by
  refine map_filter_of_mapM h fun id hid d hd => ?_
  obtain ⟨r, hr, rfl⟩ := map_eq_some_iff.mp hd
  refine ⟨rfl, Bool.eq_iff_iff.mpr ?_⟩
  rw [← hp id hid r hr, isSent, Bool.not_eq_true', isEmpty_eq_false_iff]

open DataRecord (isSent map_id_filter_isSent)

namespace DiagnosticDataManager

variable {m : DiagnosticDataManager}

/-! Data elements -/

variable {elements : List DiagnosticDataElement} {p : DiagnosticDataParamterModel}
  {record : List uint8} {ids : List uint16} {id : uint16}

theorem insertParamter_ne_nil_iff
    (hexternal : p.provider = .external → ∃ e ∈ elements, e.id = p.elementId)
    (hrecord : ∀ e ∈ elements, e.record ≠ []) {record' : List uint8}
    (h : m.insertParamter elements record p = some record') :
    record' ≠ [] ↔ record ≠ [] ∨ p.provider ≠ .unused := by
  unfold insertParamter at h
  cases hp : p.provider with
  | unused =>
    rw [hp] at h
    obtain rfl : record = record' := some.inj h
    simp
  | external =>
    rw [hp] at h
    obtain ⟨e, he, hid⟩ := hexternal hp
    rw [foldlM_ne_nil_iff (fun e : DiagnosticDataElement => e.record ≠ [])
      (fun e _ r r' => insertAt_ne_nil_iff) h]
    exact or_congr_right (iff_of_true ⟨e, mem_filter.mpr ⟨he, decide_eq_true hid⟩,
      hrecord e he⟩ (by simp))
  | dcmSession | dcmSecurityLevel =>
    rw [hp] at h
    rw [insertAt_ne_nil_iff h]
    simp

theorem mem_externalElementTable (hid : id ∈ m.readByElementTable ids) (hp : p ∈ m.details id)
    (hexternal : p.provider = .external) : p.elementId ∈ m.externalElementTable ids :=
  mem_flatMap.mpr ⟨id, hid, List.mem_map.mpr
    ⟨p, mem_filter.mpr ⟨hp, decide_eq_true hexternal⟩, rfl⟩⟩

theorem elementRecord_ne_nil_iff (hmap : elements.map (·.id) = m.externalElementTable ids)
    (hrecord : ∀ e ∈ elements, e.record ≠ []) (hid : id ∈ m.readByElementTable ids)
    (h : m.elementRecord elements id = some record) :
    record ≠ [] ↔ (m.details id).any (·.provider ≠ .unused) = true := by
  have hstep : ∀ p ∈ m.details id, ∀ r r', m.insertParamter elements r p = some r' →
      (r' ≠ [] ↔ r ≠ [] ∨ p.provider ≠ .unused) := by
    intro p hp r r' hr
    refine insertParamter_ne_nil_iff (fun hexternal => ?_) hrecord hr
    have hmem := mem_externalElementTable hid hp hexternal
    rwa [← hmap, List.mem_map] at hmem
  rw [foldlM_ne_nil_iff _ hstep h]
  simp

theorem exists_readByElement (helem : m.dataElementInterface.AnswersEach)
    (hids : (m.supportDataElementTable ids).isEmpty = false)
    {result : DataResult} (h : m.readByElement ids = some result) :
    ∃ data, result = .ok data ∧ (data.filter isSent).map (·.id) = ids.filter m.readsElement := by
  obtain ⟨elements, hread, hmap, hrecord⟩ := helem (m.externalElementTable ids)
  rw [readByElement, hread] at h
  obtain ⟨data, hdata, rfl⟩ := map_eq_some_iff.mp h
  have hne : data.isEmpty = false := by
    rw [isEmpty_eq_false_iff] at hids ⊢
    rintro rfl
    refine hids (filter_eq_nil_iff.mpr fun id hid => ?_)
    have hnil := filter_eq_nil_iff.mp (eq_nil_of_mapM_eq_nil hdata) id hid
    simp only [Bool.and_eq_true, not_and]
    exact fun _ => hnil
  refine ⟨data, by rw [hne]; rfl, ?_⟩
  rw [map_id_filter_isSent hdata fun id hid r hr =>
    elementRecord_ne_nil_iff hmap hrecord hid hr, readByElementTable, List.filter_filter]
  exact filter_congr fun id _ => Bool.and_comm _ _

/-! Dynamic identifiers -/

variable {readSource : uint16 → Option DataResult}

theorem appendSource_ne_nil_iff {s : SourceData}
    (hsource : ∀ result, readSource s.id = some result → ∃ data, result = .ok data)
    {record' : List uint8} (h : appendSource readSource record s = some record') :
    record' ≠ [] ↔ record ≠ [] ∨ s.nSize ≠ 0 := by
  unfold appendSource at h
  cases hread : readSource s.id with
  | none => simp [hread] at h
  | some result =>
    obtain ⟨data, rfl⟩ := hsource result hread
    rw [hread] at h
    obtain ⟨sourceData, -, h⟩ := bind_eq_some_iff.mp h
    obtain ⟨part, hpart, rfl⟩ := map_eq_some_iff.mp h
    have hlen : part.length = s.nSize.toNat := by
      unfold Bytes.segment at hpart
      split_ifs at hpart with hle
      cases hpart
      rw [length_take, length_drop]
      omega
    rw [ne_eq, append_eq_nil_iff, not_and_or, ← ne_eq, ← length_eq_zero_iff.not, hlen]
    simp [BitVec.toNat_eq]

section

variable (hsource : ∀ id result, readSource id = some result → ∃ data, result = .ok data)

include hsource

theorem dynamicRecord_ne_nil_iff (h : m.dynamicRecord readSource id = some record) :
    record ≠ [] ↔ (m.sources id).any (·.nSize ≠ 0) = true := by
  have hstep : ∀ s ∈ m.sources id, ∀ r r', appendSource readSource r s = some r' →
      (r' ≠ [] ↔ r ≠ [] ∨ s.nSize ≠ 0) :=
    fun s _ r r' hr => appendSource_ne_nil_iff (hsource s.id) hr
  rw [foldlM_ne_nil_iff _ hstep h]
  simp

theorem map_id_readDynamic {data : List DiagnosticData}
    (h : m.readDynamic readSource (m.supportDynamicDataIdentifierTable ids) = some data) :
    (data.filter isSent).map (·.id) = ids.filter m.readsDynamic := by
  rw [map_id_filter_isSent h fun id _ r hr => dynamicRecord_ne_nil_iff hsource hr,
    supportDynamicDataIdentifierTable, List.filter_filter]
  exact filter_congr fun id _ => Bool.and_comm _ _

end

/-! `Read` -/

section

variable (hdata : m.dataInterface.AnswersEach) (helem : m.dataElementInterface.AnswersEach)

include hdata helem

/-- What `Read` returns if the interfaces do as they are asked. -/
theorem exists_read {depth : ℕ} {result : DataResult}
    (h : m.read depth ids = some result) :
    ∃ data, result = .ok data ∧ (data.filter isSent).map (·.id) = m.answered ids := by
  induction depth generalizing ids result with
  | zero => cases h
  | succ depth ih =>
    obtain ⟨dynamic, hdynamic, h⟩ := bind_eq_some_iff.mp h
    obtain ⟨element, helement, rfl⟩ := map_eq_some_iff.mp h
    have hsource : ∀ id result, m.read depth [id] = some result → ∃ data, result = .ok data := by
      intro id result hresult
      obtain ⟨data, hdata, -⟩ := ih hresult
      exact ⟨data, hdata⟩
    have hdirect : ∃ data, (if (m.supportDataIdentifierTable ids).isEmpty then .ok []
        else m.dataInterface ids) = Except.ok data ∧
          (data.filter isSent).map (·.id) =
            if (m.supportDataIdentifierTable ids).isEmpty then [] else ids := by
      split_ifs
      · exact ⟨[], rfl, rfl⟩
      · obtain ⟨data, hread, hmap, hrecord⟩ := hdata ids
        refine ⟨data, hread, ?_⟩
        rw [filter_eq_self.mpr, hmap]
        intro d hd
        rw [isSent, Bool.not_eq_true', isEmpty_eq_false_iff]
        exact hrecord d hd
    have helement' : ∃ data, element = .ok data ∧
        (data.filter isSent).map (·.id) =
          if (m.supportDataElementTable ids).isEmpty then [] else ids.filter m.readsElement := by
      split_ifs at helement ⊢ with hempty
      · exact ⟨[], (some.inj helement).symm, rfl⟩
      · exact exists_readByElement helem (Bool.eq_false_iff.mpr hempty) helement
    obtain ⟨direct, hdirect, hdirectIds⟩ := hdirect
    obtain ⟨elementData, rfl, helementIds⟩ := helement'
    refine ⟨direct ++ dynamic ++ elementData, by rw [hdirect]; rfl, ?_⟩
    rw [filter_append, filter_append, map_append, map_append, hdirectIds,
      map_id_readDynamic hsource hdynamic, helementIds, answered]

end

end DiagnosticDataManager

end AdaptivePlatform.Diag
