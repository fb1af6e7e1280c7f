import AdaptivePlatform.Foundations.FlatMaps
import AdaptivePlatform.Diag.ReadDtcInformation

/-!
# Suppressed trouble codes

What service 0x19 answers is compared with what it answers from the same fault
memory without the suppressed trouble codes. The module determines for which
requests a suppressed trouble code shows in the answer.
-/
namespace AdaptivePlatform.Diag

open FlatMaps List Option
open ReadDestination (captureInternalData elementData)
open ServiceX19 (extDataRecords pushDtc pushExtData pushRecord)

/-- The destination with the entries of some trouble codes only. -/
def ReadDestination.restrict (dest : ReadDestination) (keep : uint32 → Bool) : ReadDestination where
  maxNumberOfEventEntries := dest.maxNumberOfEventEntries
  dtcStatusAvailabilityMask := dest.dtcStatusAvailabilityMask
  typeOfDtcSupported := dest.typeOfDtcSupported
  entries := dest.entries.filter fun dtcValue _ => keep dtcValue
  ownKeys := by
    intro item hitem
    rw [Std.TreeMap.toList_filter] at hitem
    exact dest.ownKeys item (List.mem_filter.mp hitem).1

open ReadDestination (restrict)

namespace FaultMemory

def isSuppressed (m : FaultMemory) (dtcValue : uint32) : Bool :=
  (m.getDtcByValue dtcValue).any (·.isDtcSuppressionOn)

/-- The fault memory without the suppressed trouble codes and all that is stored for them. -/
def unsuppressed (m : FaultMemory) : FaultMemory where
  resetConfirmedBitOnOverflow := m.resetConfirmedBitOnOverflow
  dtcs := m.dtcs.filter (!·.isDtcSuppressionOn)
  inPrimaryDtcList := m.inPrimaryDtcList.filter (!m.isSuppressed ·)
  getDestination id := (m.getDestination id).map (·.restrict (!m.isSuppressed ·))
  distinct := m.distinct.sublist (List.filter_sublist.map _)

section

variable (m : FaultMemory) (dtcValue : uint32)

theorem find?_filter_value (dtcs : List ReportedDtc) (hdistinct : (dtcs.map (·.value)).Nodup)
    (dtcValue : uint32) :
    (dtcs.filter (!·.isDtcSuppressionOn)).find? (·.value = dtcValue) =
      (dtcs.find? (·.value = dtcValue)).filter (!·.isDtcSuppressionOn) := by
  induction dtcs with
  | nil => rfl
  | cons dtc dtcs ih =>
    obtain ⟨hfresh, hdistinct⟩ := nodup_cons.mp hdistinct
    have hrest := ih hdistinct
    by_cases hvalue : dtc.value = dtcValue
    · have hnone : dtcs.find? (·.value = dtcValue) = none := by
        refine find?_eq_none.mpr fun other hother => ?_
        have hne : other.value ≠ dtc.value := fun h =>
          hfresh (List.mem_map.mpr ⟨other, hother, h⟩)
        simpa [← hvalue] using hne
      rw [hnone] at hrest
      cases hsup : dtc.isDtcSuppressionOn <;> simp [Option.filter, hsup, hvalue, hrest]
    · cases hsup : dtc.isDtcSuppressionOn <;> simp [hsup, hvalue, hrest]

theorem getDtcByValue_unsuppressed : m.unsuppressed.getDtcByValue dtcValue =
    (m.getDtcByValue dtcValue).filter (!·.isDtcSuppressionOn) :=
  find?_filter_value m.dtcs m.distinct dtcValue

@[simp] theorem isReported_unsuppressed :
    m.unsuppressed.isReported dtcValue = m.isReported dtcValue := by
  unfold isReported
  rw [getDtcByValue_unsuppressed]
  cases m.getDtcByValue dtcValue with
  | none => rfl
  | some dtc => cases hsup : dtc.isDtcSuppressionOn <;> simp [hsup]

variable {m : FaultMemory} {dtcValue : uint32}

theorem isReported_of_isSuppressed
    (h : m.isSuppressed dtcValue = true) : m.isReported dtcValue = false := by
  unfold isSuppressed at h
  unfold isReported
  cases hdtc : m.getDtcByValue dtcValue with
  | none => rfl
  | some dtc => simpa [hdtc] using h

theorem getDtcByValue_of_not_isSuppressed (h : m.isSuppressed dtcValue = false) :
    m.unsuppressed.getDtcByValue dtcValue = m.getDtcByValue dtcValue := by
  unfold isSuppressed at h
  rw [getDtcByValue_unsuppressed]
  cases hdtc : m.getDtcByValue dtcValue with
  | none => rfl
  | some dtc =>
    have hsup : dtc.isDtcSuppressionOn = false := by simpa [hdtc] using h
    simp [hsup]

end

/-! ### The read paths that test the suppression -/

section

variable (m : FaultMemory) (dest : ReadDestination) {dtcValue : uint32} (statusMask : uint8)
  {entry : RecordedEntry}

/-- The destination as it stands in the fault memory without the suppressed codes. -/
abbrev shown (m : FaultMemory) (dest : ReadDestination) : ReadDestination :=
  dest.restrict (!m.isSuppressed ·)

theorem getElem?_shown (dtcValue : uint32) : (m.shown dest).entries[dtcValue]? =
    if m.isSuppressed dtcValue then none else dest.entries[dtcValue]? := by
  simp only [restrict, Std.TreeMap.getElem?_filter']
  cases dest.entries[dtcValue]? <;> cases m.isSuppressed dtcValue <;> rfl

theorem matchingEntries_unsuppressed :
    m.unsuppressed.matchingEntries (m.shown dest) statusMask =
      m.matchingEntries dest statusMask := by
  unfold matchingEntries
  simp only [restrict, Std.TreeMap.toList_filter, List.filter_map, List.filter_filter]
  refine congrArg (List.map _) (filter_congr fun item hitem => ?_)
  have hkey := dest.ownKeys item hitem
  cases hsup : m.isSuppressed item.1 with
  | false => simp
  | true => simp [hkey, isReported_of_isSuppressed hsup]

theorem getEntrySize_unsuppressed :
    m.unsuppressed.getEntrySize (m.shown dest) statusMask = m.getEntrySize dest statusMask := by
  unfold getEntrySize
  rw [matchingEntries_unsuppressed]

theorem isSuppressed_of_mem_matchingEntries {m : FaultMemory} {dest : ReadDestination}
    {statusMask : uint8} (h : entry ∈ m.matchingEntries dest statusMask) :
    m.isSuppressed entry.dtcValue = false := by
  have hreported : m.isReported entry.dtcValue = true := by
    have := (mem_filter.mp h).2
    exact (Bool.and_eq_true_iff.mp this).1
  by_contra hsup
  have := isReported_of_isSuppressed (eq_true_of_ne_false hsup)
  cases hreported.symm.trans this

theorem getEntrySizeBySeverity_unsuppressed (severityMask : uint8) :
    m.unsuppressed.getEntrySizeBySeverity (m.shown dest) statusMask severityMask =
      m.getEntrySizeBySeverity dest statusMask severityMask := by
  unfold getEntrySizeBySeverity
  rw [matchingEntries_unsuppressed]
  refine congrArg (fun l : List RecordedEntry => BitVec.ofNat 32 l.length) ?_
  refine filter_congr fun entry hentry => ?_
  unfold getDtcSeverity
  rw [getDtcByValue_of_not_isSuppressed (isSuppressed_of_mem_matchingEntries hentry)]

theorem getDTCByStatusMask_unsuppressed (sorting : TimeDownSort) (statusMask : uint8) :
    m.unsuppressed.getDTCByStatusMask sorting (m.shown dest) statusMask =
      m.getDTCByStatusMask sorting dest statusMask := by
  unfold getDTCByStatusMask
  rw [matchingEntries_unsuppressed]
  rfl

theorem reportedEntry_unsuppressed (dtcValue : uint32) :
    m.unsuppressed.reportedEntry (m.shown dest) dtcValue = m.reportedEntry dest dtcValue := by
  unfold reportedEntry
  cases hsup : m.isSuppressed dtcValue with
  | false => simp [getElem?_shown, hsup, getDtcByValue_of_not_isSuppressed hsup]
  | true =>
    rw [getElem?_shown, if_pos hsup]
    cases hentry : dest.entries[dtcValue]? with
    | none => rfl
    | some entry =>
      unfold isSuppressed at hsup
      cases hdtc : m.getDtcByValue dtcValue with
      | none => rfl
      | some dtc =>
        have hon : dtc.isDtcSuppressionOn = true := by simpa [hdtc] using hsup
        simp [hon]

theorem isSuppressed_of_reportedEntry {m : FaultMemory} {dest : ReadDestination}
    {dtc : ReportedDtc} (h : m.reportedEntry dest dtcValue = some (dtc, entry)) :
    m.isSuppressed dtc.value = false := by
  simp only [reportedEntry, bind_eq_bind, bind_eq_some_iff] at h
  obtain ⟨found, hentry, dtc', hdtc, hreport⟩ := h
  split_ifs at hreport with hsup
  obtain ⟨rfl, rfl⟩ := Prod.mk.inj (some.inj hreport)
  have hvalue : dtc'.value = dtcValue := by simpa using find?_some hdtc
  rw [isSuppressed, hvalue, hdtc]
  simpa using hsup

theorem getDTCSnapshotNumber_unsuppressed :
    m.unsuppressed.getDTCSnapshotNumber = m.getDTCSnapshotNumber := by
  simp [getDTCSnapshotNumber, unsuppressed]

/-- What `GetEntriesByMask` lists for a trouble code. -/
def maskRecord (dtcValue : uint32) : Option DTCAndStatusRecord :=
  match dest.entries[dtcValue]? with
  | none => some ⟨0x80, dtcValue⟩
  | some entry =>
    if m.isReported dtcValue then some ⟨entry.dtcStatus.currentStatus, dtcValue⟩ else none

theorem getEntriesByMask_eq :
    m.getEntriesByMask dest = m.inPrimaryDtcList.filterMap (m.maskRecord dest) := rfl

theorem maskRecord_unsuppressed (hsup : m.isSuppressed dtcValue = false) :
    m.unsuppressed.maskRecord (m.shown dest) dtcValue = m.maskRecord dest dtcValue := by
  simp [maskRecord, getElem?_shown, hsup]

/-- A suppressed trouble code without an entry is listed with the default status. -/
theorem getEntriesByMask_unsuppressed_iff :
    (m.unsuppressed.getEntriesByMask (m.shown dest)).flatMap pushRecord =
        (m.getEntriesByMask dest).flatMap pushRecord ↔
      ∀ dtcValue ∈ m.inPrimaryDtcList, m.isSuppressed dtcValue = true →
        dest.entries[dtcValue]?.isSome := by
  have hshown : m.unsuppressed.getEntriesByMask (m.shown dest) =
      (m.inPrimaryDtcList.filter (!m.isSuppressed ·)).filterMap (m.maskRecord dest) := by
    refine filterMap_congr fun dtcValue hmem => ?_
    have hsup : m.isSuppressed dtcValue = false := by simpa using (mem_filter.mp hmem).2
    exact m.maskRecord_unsuppressed dest hsup
  rw [hshown, getEntriesByMask_eq, flatMap_filterMap, flatMap_filterMap, flatMap_filter_eq_iff]
  refine forall₂_congr fun dtcValue _ => ?_
  rw [Bool.not_eq_false']
  refine imp_congr_right fun hsup => ?_
  cases hentry : dest.entries[dtcValue]? with
  | none => simp [maskRecord, hentry, pushRecord]
  | some entry => simp [maskRecord, hentry, isReported_of_isSuppressed hsup]

/-- The fault detection counter of a suppressed trouble code is reported like any other. -/
theorem getDTCFaultDetectionCounter_unsuppressed_iff :
    (m.unsuppressed.getDTCFaultDetectionCounter.flatMap fun item =>
          pushDtc item.1 ++ [item.2]) =
        (m.getDTCFaultDetectionCounter.flatMap fun item =>
          pushDtc item.1 ++ [item.2]) ↔
      ∀ dtc ∈ m.dtcs, (0 : int8).slt dtc.getCurrentFDC = true → dtc.getCurrentFDC.slt 127 = true →
        dtc.isDtcSuppressionOn = false := by
  simp only [getDTCFaultDetectionCounter, unsuppressed, flatMap_map]
  rw [filter_comm, flatMap_filter_eq_iff]
  simp

end

/-! ### Extended data -/

section

variable (m : FaultMemory) (dest : ReadDestination) {dtc : ReportedDtc}

/-- The records read for a trouble code have an element that tells whether the memory is full. -/
def readsOverflow (dtc : ReportedDtc) (entry : RecordedEntry) (record : uint8) : Prop :=
  ∃ item ∈ entry.selectedRecords record, ∃ edr ∈ dtc.getExtendedDataRecord item.1,
    ∃ element ∈ item.2, edr.getDataElementCategory element.id = .demOvflind

variable (hsup : m.isSuppressed dtc.value = false)

include hsup

/-- The overflow indication is the only internal data that other trouble codes take part in. -/
theorem captureInternalData_shown_iff (category : EdrDataElementCategory) :
    (m.shown dest).captureInternalData dtc category = dest.captureInternalData dtc category ↔
      (category = .demOvflind → (m.shown dest).isOverflow = dest.isOverflow) := by
  cases category with
  | demOvflind =>
    simp only [captureInternalData]
    generalize (m.shown dest).isOverflow = full'
    generalize dest.isOverflow = full
    cases full' <;> cases full <;> simp
  | _ => simp [captureInternalData, getElem?_shown, hsup]

theorem length_captureInternalData_shown (category : EdrDataElementCategory) :
    ((m.shown dest).captureInternalData dtc category).length =
      (dest.captureInternalData dtc category).length := by
  by_cases hcategory : category = .demOvflind
  · rw [hcategory]
    rfl
  · rw [(captureInternalData_shown_iff m dest hsup category).mpr fun h => absurd h hcategory]

variable (edr : ExtendedDataRecord) (element : ExtendedRecord)

theorem elementData_shown_iff :
    (m.shown dest).elementData dtc edr element = dest.elementData dtc edr element ↔
      (edr.getDataElementCategory element.id = .demOvflind →
        (m.shown dest).isOverflow = dest.isOverflow) := by
  unfold elementData
  cases hcategory : edr.getDataElementCategory element.id with
  | external => simp
  | _ => exact captureInternalData_shown_iff m dest hsup _

theorem length_elementData_shown : ((m.shown dest).elementData dtc edr element).length =
      (dest.elementData dtc edr element).length := by
  unfold elementData
  cases edr.getDataElementCategory element.id with
  | external => rfl
  | _ => exact length_captureInternalData_shown m dest hsup _

theorem extDataRecords_shown_iff (entry : RecordedEntry) (record : uint8) :
    extDataRecords record (m.shown dest) dtc entry =
        extDataRecords record dest dtc entry ↔
      (readsOverflow dtc entry record → (m.shown dest).isOverflow = dest.isOverflow) := by
  have hlength (edr : ExtendedDataRecord) (elements : List ExtendedRecord) :
      (elements.flatMap ((m.shown dest).elementData dtc edr)).length =
        (elements.flatMap (dest.elementData dtc edr)).length := by
    simp [length_elementData_shown m dest hsup]
  unfold extDataRecords ReadDestination.findExtendedDataRecord
  rw [flatMap_filterMap, flatMap_filterMap, flatMap_congr_iff]
  · have helement (edr : ExtendedDataRecord) (elements : List ExtendedRecord) :
        elements.flatMap ((m.shown dest).elementData dtc edr) =
            elements.flatMap (dest.elementData dtc edr) ↔
          ∀ element ∈ elements, edr.getDataElementCategory element.id = .demOvflind →
            (m.shown dest).isOverflow = dest.isOverflow := by
      rw [flatMap_congr_iff fun element _ => length_elementData_shown m dest hsup edr element]
      exact forall₂_congr fun element _ => elementData_shown_iff m dest hsup edr element
    constructor
    · rintro h ⟨item, hitem, edr, hedr, element, hmem, hcategory⟩
      have hitem := h item hitem
      simp only [mem_def.mp hedr, map_some, elim_some, pushExtData, cons.injEq, true_and] at hitem
      exact (helement edr item.2).mp hitem element hmem hcategory
    · intro h item hitem
      cases hedr : dtc.getExtendedDataRecord item.1 with
      | none => rfl
      | some edr =>
        have hdata := (helement edr item.2).mpr fun element hmem hcategory =>
          h ⟨item, hitem, edr, hedr, element, hmem, hcategory⟩
        simp [hdata]
  · intro item _
    cases dtc.getExtendedDataRecord item.1 with
    | none => rfl
    | some edr => simp [pushExtData, hlength]

end

end FaultMemory

/-! ### The answers -/

namespace ServiceX19

open FaultMemory

variable (m : FaultMemory) (sorting : TimeDownSort) (subfunction : uint8)
  (memorySelection : List uint8) (dest : Option ReadDestination)

@[simp] theorem userDefMemory_unsuppressed (memorySelection : uint8) :
    userDefMemory m.unsuppressed memorySelection =
      (userDefMemory m memorySelection).map m.shown := by
  unfold userDefMemory
  split_ifs <;> rfl

theorem reportNumberOfDtc_unsuppressed {count count' : ReadDestination → uint32}
    (h : ∀ dest, count' (m.shown dest) = count dest) :
    reportNumberOfDtc m.unsuppressed subfunction count' =
      reportNumberOfDtc m subfunction count := by
  have hdest : m.unsuppressed.getPrimaryDestination = m.getPrimaryDestination.map m.shown := rfl
  unfold reportNumberOfDtc
  rw [hdest]
  cases m.getPrimaryDestination with
  | none => rfl
  | some dest =>
    simp only [map_some, h]
    rfl

theorem reportDtc_unsuppressed_iff (records records' : ReadDestination → List DTCAndStatusRecord) :
    reportDtc subfunction memorySelection (dest.map m.shown) records' =
        reportDtc subfunction memorySelection dest records ↔
      ∀ d ∈ dest, (records' (m.shown d)).flatMap pushRecord = (records d).flatMap pushRecord := by
  cases dest with
  | none => simp [reportDtc]
  | some dest => simp [reportDtc, createRespondMessage, restrict]

theorem reportRecords_unsuppressed_iff (dtcValue : uint32)
    (records : ReadDestination → ReportedDtc → RecordedEntry → List uint8) :
    reportRecords m.unsuppressed subfunction memorySelection (dest.map m.shown) dtcValue records =
        reportRecords m subfunction memorySelection dest dtcValue records ↔
      ∀ d ∈ dest, ∀ dtc entry, m.reportedEntry d dtcValue = some (dtc, entry) →
        records (m.shown d) dtc entry = records d dtc entry := by
  cases dest with
  | none => simp [reportRecords]
  | some dest =>
    simp only [reportRecords, map_some, reportedEntry_unsuppressed, mem_some_iff, forall_eq']
    cases hentry : m.reportedEntry dest dtcValue with
    | none => simp
    | some found => simp [createRespondMessage, Prod.ext_iff]

/-- No suppressed trouble code shows in the answer to the query. -/
def Hidden : Query → Prop
  | .reportSupportedDtcs =>
    ∀ dest ∈ m.getPrimaryDestination, ∀ dtcValue ∈ m.inPrimaryDtcList,
      m.isSuppressed dtcValue = true → dest.entries[dtcValue]?.isSome
  | .reportDtcFaultDetectionCounter =>
    ∀ dtc ∈ m.dtcs, (0 : int8).slt dtc.getCurrentFDC = true → dtc.getCurrentFDC.slt 127 = true →
      dtc.isDtcSuppressionOn = false
  | .reportDtcExtDataRecordByDtcNumber dtcValue record => overflowHidden m.getPrimaryDestination
      dtcValue record
  | .reportUserDefMemoryDtcExtDataRecordByDtcNumber dtcValue record selection =>
    overflowHidden (userDefMemory m selection) dtcValue record
  | _ => True
where
  /-- The overflow indication, if it is read, is the same without the suppressed codes. -/
  overflowHidden (dest : Option ReadDestination) (dtcValue : uint32) (record : uint8) : Prop :=
    ∀ d ∈ dest, ∀ dtc entry, m.reportedEntry d dtcValue = some (dtc, entry) →
      readsOverflow dtc entry record → (m.shown d).isOverflow = d.isOverflow

theorem respond_unsuppressed_iff (query : Query) :
    respond m.unsuppressed sorting subfunction query = respond m sorting subfunction query ↔
      Hidden m query := by
  have hext (selection : List uint8) (dest : Option ReadDestination) (dtcValue : uint32)
      (record : uint8) :
      reportRecords m.unsuppressed subfunction selection (dest.map m.shown) dtcValue
            (extDataRecords record) =
          reportRecords m subfunction selection dest dtcValue (extDataRecords record) ↔
        Hidden.overflowHidden m dest dtcValue record := by
    rw [reportRecords_unsuppressed_iff]
    refine forall₂_congr fun d _ => forall₂_congr fun dtc entry => imp_congr_right fun hfound => ?_
    exact extDataRecords_shown_iff m d (isSuppressed_of_reportedEntry hfound) entry record
  cases query with
  | reportNumberOfDtcByStatusMask mask =>
    exact iff_true_intro (reportNumberOfDtc_unsuppressed m subfunction fun dest =>
      getEntrySize_unsuppressed m dest mask)
  | reportDtcByStatusMask mask =>
    refine iff_true_intro ((reportDtc_unsuppressed_iff m subfunction [] _ _ _).mpr fun dest _ => ?_)
    rw [getDTCByStatusMask_unsuppressed]
  | reportDtcSnapshotIdentification => simp [respond, Hidden, getDTCSnapshotNumber_unsuppressed]
  | reportDtcSnapshotRecordByDtcNumber dtcValue number =>
    exact iff_true_intro ((reportRecords_unsuppressed_iff m subfunction [] _ _ _).mpr
      fun dest _ dtc entry _ => rfl)
  | reportDtcExtDataRecordByDtcNumber dtcValue record => exact hext [] _ dtcValue record
  | reportNumberOfDtcBySeverityMaskRecord severityMask mask =>
    exact iff_true_intro (reportNumberOfDtc_unsuppressed m subfunction fun dest =>
      getEntrySizeBySeverity_unsuppressed m dest mask severityMask)
  | reportSupportedDtcs =>
    refine (reportDtc_unsuppressed_iff m subfunction [] _ _ _).trans ?_
    exact forall₂_congr fun dest _ => getEntriesByMask_unsuppressed_iff m dest
  | reportDtcFaultDetectionCounter =>
    have hbody := getDTCFaultDetectionCounter_unsuppressed_iff m
    simpa [respond, createRespondMessage, Hidden] using hbody
  | reportUserDefMemoryDtcByStatusMask mask selection =>
    rw [respond, respond, userDefMemory_unsuppressed]
    refine iff_true_intro ((reportDtc_unsuppressed_iff m subfunction _ _ _ _).mpr fun dest _ => ?_)
    rw [getDTCByStatusMask_unsuppressed]
  | reportUserDefMemoryDtcSnapshotRecordByDtcNumber dtcValue number selection =>
    rw [respond, respond, userDefMemory_unsuppressed]
    exact iff_true_intro ((reportRecords_unsuppressed_iff m subfunction _ _ _ _).mpr
      fun dest _ dtc entry _ => rfl)
  | reportUserDefMemoryDtcExtDataRecordByDtcNumber dtcValue record selection =>
    rw [respond, respond, userDefMemory_unsuppressed]
    exact hext _ _ dtcValue record

/-- The answer is that of the fault memory without the suppressed trouble codes, whatever is
stored for them, precisely for the queries that hide them. -/
theorem parseAndResponse_unsuppressed_iff (body : List uint8) :
    parseAndResponse m.unsuppressed sorting body = parseAndResponse m sorting body ↔
      ∀ subfunction query, parse body = .ok (subfunction, query) → Hidden m query := by
  unfold parseAndResponse
  cases hparse : parse body with
  | error nrc => simp
  | ok request =>
    obtain ⟨subfunction, query⟩ := request
    simp only [respond_unsuppressed_iff, Except.ok.injEq, Prod.mk.injEq]
    exact ⟨fun h _ _ heq => heq.2 ▸ h, fun h => h subfunction query ⟨rfl, rfl⟩⟩

def onlySuppressed : FaultMemory where
  dtcs := [{ value := 0x123456, isDtcSuppressionOn := true,
             event := some { id := 1, faultDetectionCounter := 5 } }]
  inPrimaryDtcList := [0x123456]
  getDestination id :=
    if id = primaryDestinationId then some ⟨10, 0x7F, .iso142291, ∅, List.forall_mem_nil _⟩
    else none
  distinct := by decide

theorem suppressed_code_shows :
    onlySuppressed.isSuppressed 0x123456 = true ∧
      (∀ sorting, parseAndResponse onlySuppressed sorting [0x19, 0x0A] =
        .positive [0x59, 0x0A, 0x7F, 0x12, 0x34, 0x56, 0x80]) ∧
      (∀ sorting, parseAndResponse onlySuppressed sorting [0x19, 0x14] =
        .positive [0x59, 0x14, 0x12, 0x34, 0x56, 5]) ∧
      ∀ sorting, parseAndResponse onlySuppressed.unsuppressed sorting [0x19, 0x14] =
        .positive [0x59, 0x14] := by
  refine ⟨by decide, fun sorting => ?_, fun sorting => ?_, fun sorting => ?_⟩
  · rfl
  · rfl
  · rfl

end ServiceX19

end AdaptivePlatform.Diag
