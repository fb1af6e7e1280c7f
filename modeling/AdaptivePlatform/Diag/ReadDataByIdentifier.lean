import AdaptivePlatform.Diag.DiagnosticDataManager
import AdaptivePlatform.Diag.RequestContext
import AdaptivePlatform.Foundations.OrderedSets

/-!
# Reading data by identifier

Service 0x22 reads the data of up to `maxDidToRead` identifiers with one
request. The identifiers of the request go through a set, those that are not
supported in the current session are left out, and what the data manager reads
for the others is the response.

The set brings the identifiers into ascending order, and the data manager may
read one of them twice. The response has one record for each identifier, in
the order of the request, exactly if each of them is answered by one of the
three ways to read and the request already has the order of the result.
-/
namespace AdaptivePlatform.Diag

open Bytes OrderedSets List

/-- What is checked for one identifier. A condition is given by its number. -/
structure ReadInstance where
  sessionValidator : Option Validator
  authValidator : Option Validator := none
  securityLevelValidator : Option Validator := none
  envCondition : Option ℕ := none

/-- The state of the server that a request is checked against, with the result of each
environmental condition. -/
structure ReadContext extends AccessContext where
  checkCondition : ℕ → uint8 := fun _ => 0

variable (ctx : ReadContext) (inst : ReadInstance)

def ReadInstance.isSupported : Bool := inst.sessionValidator.any (·.validate ctx.toAccessContext)

/-- The code with which the whole request is refused; 0x34 is `kAuthenticationRequired`. -/
def ReadInstance.refusal : Option NrcErrc :=
  if inst.authValidator.all (·.validate ctx.toAccessContext) then
    if inst.securityLevelValidator.all (·.validate ctx.toAccessContext) then
      (inst.envCondition.map ctx.checkCondition).bind fun nrc =>
        if nrc = 0 then none else some (.other nrc)
    else some .securityAccessDenied
  else some (.other 0x34)

structure ServiceX22 where
  maxDidToRead : uint16
  instanceTable : uint16 → Option ReadInstance
  dataIdentifierManager : DiagnosticDataManager

namespace ServiceX22

/-- The identifiers of a request, without its first byte. -/
def dataIdentifiers : List uint8 → List uint16
  | high :: low :: body => beWord 16 [high, low] :: dataIdentifiers body
  | _ => []

variable (svc : ServiceX22) (depth : ℕ) (ctx : ReadContext) (body : List uint8)

/-- The identifier is configured for the service, and for the current session. -/
def isSupported (id : uint16) : Bool := (svc.instanceTable id).any (·.isSupported ctx)

def filterLoop (ctx : ReadContext) : List uint16 → Except NrcErrc (List uint16)
  | [] => .ok []
  | id :: ids =>
    match svc.instanceTable id with
    | none => filterLoop ctx ids
    | some inst =>
      if inst.isSupported ctx then
        match inst.refusal ctx with
        | some nrc => .error nrc
        | none => (filterLoop ctx ids).map (id :: ·)
      else filterLoop ctx ids

def filter (ids : List uint16) : Except NrcErrc (List uint16) :=
  (svc.filterLoop ctx ids).bind fun valid =>
    if valid.isEmpty then .error .requestOutOfRange else .ok valid

/-- The records that are written; empty ones are left out. -/
def sentRecords : DataResult → Except NrcErrc (List DiagnosticData)
  | .error error => .error (.other (error.setWidth 8))
  | .ok data =>
    if data.isEmpty then .error .requestOutOfRange
    else if (data.filter DataRecord.isSent).isEmpty then .error .requestOutOfRange
    else .ok (data.filter DataRecord.isSent)

/-- `Process` up to the response: the records that the positive response is written from, or the
negative response code. It has no result if reading has none. -/
def process : Option (Except NrcErrc (List DiagnosticData)) :=
  if body.length < 3 then some (.error .incorrectMessageLengthOrInvalidFormat)
  else if (body.length - 1) % 2 ≠ 0 then some (.error .incorrectMessageLengthOrInvalidFormat)
  else if svc.maxDidToRead.toNat < body.length / 2 then some (.error .requestOutOfRange)
  else
    match svc.filter ctx (ofList (dataIdentifiers body.tail)) with
    | .error nrc => some (.error nrc)
    | .ok valid => (svc.dataIdentifierManager.read depth valid).map sentRecords

/-- The requested identifiers that are supported, each once, in the order of the request. -/
def requested : List uint16 :=
  firstOccurrences ((dataIdentifiers body.tail).filter (svc.isSupported ctx))

end ServiceX22

namespace DiagnosticDataManager

variable (m : DiagnosticDataManager)

/-- How many of the three reads of `Read` return data for an identifier of the list. -/
def answers (ids : List uint16) (id : uint16) : ℕ :=
  (if (m.supportDataIdentifierTable ids).isEmpty then 0 else 1) +
    (if m.readsDynamic id then 1 else 0) +
    (if (m.supportDataElementTable ids).isEmpty then 0 else if m.readsElement id then 1 else 0)

/-- The order of the result: ascending, but the dynamic identifiers come first if the data
interface is not asked. -/
def ReadBefore (ids : List uint16) (a b : uint16) : Prop :=
  if (m.supportDataIdentifierTable ids).isEmpty ∧ m.readsDynamic a ≠ m.readsDynamic b then
    m.readsDynamic a = true
  else a ≤ b

variable {m} {ids : List uint16} {id : uint16}

theorem ReadBefore.antisymm {a b : uint16} (hab : m.ReadBefore ids a b)
    (hba : m.ReadBefore ids b a) : a = b := by
  unfold ReadBefore at hab hba
  split_ifs at hab hba with h h' h'
  · exact absurd (hab.trans hba.symm) h.2
  · exact absurd ⟨h.1, h.2.symm⟩ h'
  · exact absurd ⟨h'.1, h'.2.symm⟩ h
  · exact BitVec.le_antisymm hab hba

theorem count_answered (hnodup : ids.Nodup) (hid : id ∈ ids) :
    (m.answered ids).count id = m.answers ids id := by
  have hone : ids.count id = 1 := count_eq_one_of_mem hnodup hid
  have hfilter : ∀ p : uint16 → Bool, (ids.filter p).count id = if p id then 1 else 0 := by
    intro p
    split_ifs with hp
    · rw [count_filter hp, hone]
    · exact count_eq_zero.mpr fun hmem => hp (mem_filter.mp hmem).2
  rw [answered, count_append, count_append, answers, hfilter]
  congr 1
  · split_ifs <;> simp [hone]
  · split_ifs with hempty helem
    · rfl
    · rw [hfilter, if_pos helem]
    · rw [hfilter, if_neg helem]

theorem mem_of_mem_answered (h : id ∈ m.answered ids) : id ∈ ids := by
  rcases mem_append.mp h with h | h
  · rcases mem_append.mp h with h | h
    · split_ifs at h
      · exact absurd h not_mem_nil
      · exact h
    · exact mem_of_mem_filter h
  · split_ifs at h
    · exact absurd h not_mem_nil
    · exact mem_of_mem_filter h

theorem readsDynamic_of_readsElement (hone : ∀ id ∈ ids, m.answers ids id = 1)
    (hempty : ¬ (m.supportDataElementTable ids).isEmpty = true)
    (hid : id ∈ ids.filter m.readsElement) : m.readsDynamic id = false := by
  obtain ⟨hid, hreads⟩ := mem_filter.mp hid
  have hid := hone id hid
  rw [answers, if_neg hempty, if_pos hreads] at hid
  cases hdyn : m.readsDynamic id with
  | false => rfl
  | true =>
    rw [hdyn, if_pos rfl] at hid
    omega

theorem pairwise_answered (hsorted : ids.Pairwise (· ≤ ·))
    (hone : ∀ id ∈ ids, m.answers ids id = 1) : (m.answered ids).Pairwise (m.ReadBefore ids) := by
  cases hdirect : (m.supportDataIdentifierTable ids).isEmpty with
  | false =>
    -- the data interface answers for all of them, so nothing else may
    have hdynamic : ids.filter m.readsDynamic = [] := by
      refine filter_eq_nil_iff.mpr fun id hid hreads => ?_
      have hid := hone id hid
      rw [answers, hdirect, hreads, if_pos rfl] at hid
      simp only [Bool.false_eq_true, if_false] at hid
      omega
    have helement : (if (m.supportDataElementTable ids).isEmpty then []
        else ids.filter m.readsElement) = [] := by
      split_ifs with hempty
      · rfl
      · refine filter_eq_nil_iff.mpr fun id hid hreads => ?_
        have hid := hone id hid
        rw [answers, hdirect, if_neg hempty, if_pos hreads] at hid
        simp only [Bool.false_eq_true, if_false] at hid
        omega
    rw [answered, hdynamic, helement, hdirect, append_nil, append_nil]
    refine hsorted.imp fun hle => ?_
    rw [ReadBefore, if_neg (by simp [hdirect])]
    exact hle
  | true =>
    rw [answered, if_pos hdirect, nil_append]
    refine pairwise_append.mpr ⟨?_, ?_, ?_⟩
    · refine (pairwise_filter.mpr (hsorted.imp fun hle ha hb => ?_))
      rw [ReadBefore, if_neg (by simp [ha, hb])]
      exact hle
    · split_ifs with hempty
      · exact List.Pairwise.nil
      · refine List.Pairwise.imp_of_mem (fun {a b} ha hb hle => ?_) (hsorted.filter m.readsElement)
        rw [ReadBefore, if_neg]
        · exact hle
        · simp [readsDynamic_of_readsElement hone hempty ha,
            readsDynamic_of_readsElement hone hempty hb]
    · intro a ha b hb
      split_ifs at hb with hempty
      · exact absurd hb not_mem_nil
      · have hdyn := (mem_filter.mp ha).2
        rw [ReadBefore, if_pos]
        · exact hdyn
        · exact ⟨hdirect, by rw [hdyn, readsDynamic_of_readsElement hone hempty hb]; simp⟩

/-- The result has the identifiers of a list, each once and in its order, exactly if each of them
is answered once and the list has the order of the result. -/
theorem answered_eq_iff {target : List uint16} (hsorted : ids.Pairwise (· ≤ ·))
    (hnodup : ids.Nodup) (htarget : target.Nodup) (hmem : ∀ id, id ∈ ids ↔ id ∈ target) :
    m.answered ids = target ↔
      (∀ id ∈ target, m.answers target id = 1) ∧ target.Pairwise (m.ReadBefore target) := by
  have hempty : ∀ p : uint16 → Bool, (target.filter p).isEmpty = (ids.filter p).isEmpty := by
    intro p
    rw [Bool.eq_iff_iff, List.isEmpty_iff, List.isEmpty_iff, filter_eq_nil_iff, filter_eq_nil_iff]
    simp [hmem]
  have hdirect : (m.supportDataIdentifierTable target).isEmpty = _ := hempty _
  have helement : (m.supportDataElementTable target).isEmpty = _ := hempty _
  have hanswers : m.answers target = m.answers ids := by
    funext id
    rw [answers, hdirect, helement]
    rfl
  have hbefore : m.ReadBefore target = m.ReadBefore ids := by
    funext a b
    rw [ReadBefore, hdirect]
    rfl
  rw [hanswers, hbefore]
  constructor
  · intro h
    have hone : ∀ id ∈ ids, m.answers ids id = 1 := by
      intro id hid
      rw [← count_answered hnodup hid, h]
      exact count_eq_one_of_mem htarget ((hmem id).mp hid)
    exact ⟨fun id hid => hone id ((hmem id).mpr hid), h ▸ pairwise_answered hsorted hone⟩
  · rintro ⟨hone, hpairwise⟩
    have hone : ∀ id ∈ ids, m.answers ids id = 1 := fun id hid => hone id ((hmem id).mp hid)
    have hcount : ∀ id ∈ ids, (m.answered ids).count id = 1 :=
      fun id hid => (count_answered hnodup hid).trans (hone id hid)
    refine eq_of_pairwise_of_mem_iff (fun _ _ => ReadBefore.antisymm) ?_ htarget
      (pairwise_answered hsorted hone) hpairwise fun id => ?_
    · refine nodup_iff_count_le_one.mpr fun id => ?_
      by_cases hid : id ∈ ids
      · exact Nat.le_of_eq (hcount id hid)
      · rw [count_eq_zero.mpr fun h => hid (mem_of_mem_answered h)]
        exact Nat.zero_le 1
    · rw [← hmem]
      refine ⟨mem_of_mem_answered, fun hid => count_pos_iff.mp ?_⟩
      rw [hcount id hid]
      exact Nat.one_pos

end DiagnosticDataManager

namespace ServiceX22

variable {svc : ServiceX22} {ctx : ReadContext} {ids valid : List uint16}

theorem eq_filter_of_filterLoop (h : svc.filterLoop ctx ids = .ok valid) :
    valid = ids.filter (svc.isSupported ctx) := by
  induction ids generalizing valid with
  | nil => exact (Except.ok.inj h).symm
  | cons id ids ih =>
    rw [filterLoop] at h
    rw [filter_cons, isSupported]
    cases hinst : svc.instanceTable id with
    | none =>
      rw [hinst] at h
      exact ih h
    | some inst =>
      simp only [hinst] at h
      split_ifs at h with hsupported
      · rw [Option.any_some, if_pos hsupported]
        cases hrefusal : inst.refusal ctx with
        | some nrc => simp [hrefusal] at h
        | none =>
          rw [hrefusal] at h
          cases hrest : svc.filterLoop ctx ids with
          | error nrc => simp [hrest, Except.map] at h
          | ok rest =>
            rw [hrest] at h
            rw [← Except.ok.inj h, ih hrest]
      · rw [Option.any_some, if_neg hsupported]
        exact ih h

theorem eq_filter_of_filter (h : svc.filter ctx ids = .ok valid) :
    valid = ids.filter (svc.isSupported ctx) := by
  rw [filter] at h
  cases hloop : svc.filterLoop ctx ids with
  | error nrc => simp [hloop, Except.bind] at h
  | ok loop =>
    simp only [hloop, Except.bind] at h
    split_ifs at h
    rw [← Except.ok.inj h, eq_filter_of_filterLoop hloop]

/-- A positive response is made of what the data manager read for the supported identifiers of the
set. -/
theorem exists_of_process_ok {depth : ℕ} {body : List uint8} {records : List DiagnosticData}
    (h : svc.process depth ctx body = some (.ok records)) :
    ∃ data, svc.dataIdentifierManager.read depth
        ((ofList (dataIdentifiers body.tail)).filter (svc.isSupported ctx)) = some (.ok data) ∧
      records = data.filter DataRecord.isSent := by
  unfold process at h
  split_ifs at h
  · simp at h
  · simp at h
  · simp at h
  · cases hfilter : svc.filter ctx (ofList (dataIdentifiers body.tail)) with
    | error nrc => simp [hfilter] at h
    | ok valid =>
      rw [hfilter] at h
      obtain ⟨result, hread, hresult⟩ := Option.map_eq_some_iff.mp h
      rw [eq_filter_of_filter hfilter] at hread
      cases result with
      | error error => simp [sentRecords] at hresult
      | ok data =>
        rw [sentRecords] at hresult
        split_ifs at hresult
        exact ⟨data, hread, (Except.ok.inj hresult).symm⟩

/-- Identifiers 1 and 4 are read from the data interface, 2 is put together from an element and 3
is dynamic, with the first byte of 1 for its data. -/
def threeWays : ServiceX22 where
  maxDidToRead := 10
  instanceTable _ := some { sessionValidator := some (.session [1]) }
  dataIdentifierManager :=
    { diagnosticDataModelTable := fun id =>
        if id = 2 then
          some { details := [{ offset := 0, provider := .external, elementId := 7 }]
                 readType := .useReadElementMothod }
        else if id = 3 then none else some {}
      dynamicAvailableIdentifier := [3]
      diagnosticDynamicDataModelTable := fun id =>
        if id = 3 then some [{ id := 1, nPos := 0, nSize := 1 }] else none
      dataInterface := fun ids => .ok (ids.map fun id => ⟨id, [0xAA]⟩)
      dataElementInterface := fun ids => .ok (ids.map fun id => ⟨id, [0xEE]⟩) }

def defaultSession : ReadContext where
  session := 1
  securityLevel := 0
  isAuthenticated _ := true

theorem answersEach_map {w : ℕ} (b : uint8) :
    DataInterface.AnswersEach fun ids : List (BitVec w) => .ok (ids.map fun id => ⟨id, [b]⟩) := by
  refine fun ids => ⟨_, rfl, ?_, ?_⟩
  · rw [map_map]
    exact map_id ids
  · intro d hd
    obtain ⟨id, -, rfl⟩ := mem_map.mp hd
    exact cons_ne_nil b []

theorem threeWays_dataInterface : threeWays.dataIdentifierManager.dataInterface.AnswersEach :=
  answersEach_map 0xAA

theorem threeWays_dataElementInterface :
    threeWays.dataIdentifierManager.dataElementInterface.AnswersEach :=
  answersEach_map 0xEE

/-- If the interfaces return one record for each identifier they are asked for, a positive
response has one record for each supported identifier of the request, in its order, exactly if the
three reads answer each of these identifiers once and the request has the order in which `Read`
puts them. -/
theorem records_eq_requested_iff (hdata : svc.dataIdentifierManager.dataInterface.AnswersEach)
    (helem : svc.dataIdentifierManager.dataElementInterface.AnswersEach) {depth : ℕ}
    {body : List uint8} {records : List DiagnosticData}
    (h : svc.process depth ctx body = some (.ok records)) :
    records.map (·.id) = svc.requested ctx body ↔
      (∀ id ∈ svc.requested ctx body,
        svc.dataIdentifierManager.answers (svc.requested ctx body) id = 1) ∧
      (svc.requested ctx body).Pairwise
        (svc.dataIdentifierManager.ReadBefore (svc.requested ctx body)) := by
  obtain ⟨data, hread, rfl⟩ := exists_of_process_ok h
  obtain ⟨data', hok, hids⟩ := DiagnosticDataManager.exists_read hdata helem hread
  obtain rfl := Except.ok.inj hok
  rw [hids]
  refine DiagnosticDataManager.answered_eq_iff ((pairwise_ofList _).filter _)
    ((nodup_ofList _).filter _) (nodup_firstOccurrences _) fun id => ?_
  rw [requested, mem_firstOccurrences, mem_filter, mem_filter, mem_ofList]

theorem records_eq_requested_dynamic_element :
    ([⟨3, [0xAA]⟩, ⟨2, [0xEE]⟩] : List DiagnosticData).map (·.id) =
      threeWays.requested defaultSession [0x22, 0, 3, 0, 2] := by
  have h : threeWays.process 2 defaultSession [0x22, 0, 3, 0, 2] =
      some (.ok [⟨3, [0xAA]⟩, ⟨2, [0xEE]⟩]) := rfl
  refine (records_eq_requested_iff threeWays_dataInterface threeWays_dataElementInterface h).mpr ?_
  refine ⟨forall_mem_cons.mpr ⟨by decide, forall_mem_singleton.mpr (by decide)⟩,
    pairwise_pair.mpr ?_⟩
  rw [DiagnosticDataManager.ReadBefore, if_pos (by decide)]
  decide

/-- Identifiers 4 and 1 are answered in ascending order, and 2 twice if it is requested together
with 1. -/
theorem records_ne_requested :
    threeWays.dataIdentifierManager.dataInterface.AnswersEach ∧
      threeWays.dataIdentifierManager.dataElementInterface.AnswersEach ∧
      threeWays.process 1 defaultSession [0x22, 0, 4, 0, 1] =
        some (.ok [⟨1, [0xAA]⟩, ⟨4, [0xAA]⟩]) ∧
      threeWays.requested defaultSession [0x22, 0, 4, 0, 1] = [4, 1] ∧
      threeWays.process 1 defaultSession [0x22, 0, 1, 0, 2] =
        some (.ok [⟨1, [0xAA]⟩, ⟨2, [0xAA]⟩, ⟨2, [0xEE]⟩]) ∧
      threeWays.requested defaultSession [0x22, 0, 1, 0, 2] = [1, 2] :=
  ⟨threeWays_dataInterface, threeWays_dataElementInterface, rfl, by decide, rfl, by decide⟩

end ServiceX22

end AdaptivePlatform.Diag
