import AdaptivePlatform.Diag.MemoryDestination
import AdaptivePlatform.Diag.RequestContext

/-!
# ReadDTCInformation

Service 0x19 answers from the fault memory: numbers of trouble codes, lists of
them with their status, snapshots and extended data of a single one, and the
fault detection counters. A trouble code whose suppression is on is to be left
out of the answers; each of the read paths tests this for itself.
-/
namespace AdaptivePlatform.Diag

inductive EdrDataElementCategory
  | external
  | demAgingctrDowncnt
  | demAgingctrUpcnt
  | demCurrentFdc
  | demCyclesSinceFirstFailed
  | demCyclesSinceLastFailed
  | demFailedCycles
  | demMaxFdcDuringCurrentCycle
  | demMaxFdcSinceLastClear
  | demOccctr
  | demOvflind
  | demSignificance
  | demPriority
  | demEventAssociatedIdentification
  deriving DecidableEq, Repr

structure EdrDataElementConfig where
  dataElementId : uint32
  category : EdrDataElementCategory

structure ExtendedDataRecord where
  recordNumber : uint8
  dataElementList : List EdrDataElementConfig

def ExtendedDataRecord.getDataElementCategory (edr : ExtendedDataRecord) (dataElementId : uint32) :
    EdrDataElementCategory :=
  match edr.dataElementList.find? (·.dataElementId = dataElementId) with
  | some element => element.category
  | none => .external

/-- The values an event gives to its trouble code. -/
structure EventValues where
  id : uint32
  faultDetectionCounter : int8 := 0
  maxFDCSinceLastClear : int8 := 0
  maxFDCDuringCurrentCycle : int8 := 0
  failedCycles : uint8 := 0
  cyclesSinceFirstFailed : uint8 := 0
  cyclesSinceLastFailed : uint8 := 0

def invalidEventID : uint32 := 0xFFFFFFFF

/-- What the service asks of a trouble code. -/
structure ReportedDtc where
  value : uint32
  isDtcSuppressionOn : Bool := false
  severity : uint8 := 0
  priority : uint8 := 1
  significance : uint8 := 0
  agingThreshold : Option uint32 := none
  event : Option EventValues := none
  freezeFrameNumberTable : List uint8 := []
  extendedDataRecords : List ExtendedDataRecord := []

namespace ReportedDtc

def getCurrentFDC (dtc : ReportedDtc) : int8 :=
  match dtc.event with
  | some event => event.faultDetectionCounter
  | none => 0

def getExtendedDataRecord (dtc : ReportedDtc) (edrNumber : uint8) : Option ExtendedDataRecord :=
  dtc.extendedDataRecords.find? (·.recordNumber = edrNumber)

end ReportedDtc

structure FreezeRecord where
  did : uint16
  vecData : List uint8

structure ExtendedRecord where
  id : uint32
  vecData : List uint8

/-- An entry with its snapshots and its extended data, by record number. -/
structure RecordedEntry extends MemoryEntry where
  mapFreezeRecord : Std.TreeMap uint8 (List FreezeRecord) := ∅
  mapExtendedDataRecord : Std.TreeMap uint8 (List ExtendedRecord) := ∅

inductive TypeOfDtcSupported
  | iso119924
  | iso142291
  | saeJ2012Da
  | other
  deriving DecidableEq, Repr

/-- A memory destination as the service reads it. Each entry is stored under its number. -/
structure ReadDestination where
  maxNumberOfEventEntries : uint32
  dtcStatusAvailabilityMask : uint8
  typeOfDtcSupported : TypeOfDtcSupported := .iso142291
  entries : Std.TreeMap uint32 RecordedEntry := ∅
  ownKeys : ∀ item ∈ entries.toList, item.2.dtcValue = item.1

def primaryDestinationId : uint32 := 256

/-- `std::sort` with `CompareEntryByTimeDownOrder`. -/
structure TimeDownSort where
  sort : List RecordedEntry → List RecordedEntry
  perm : ∀ entries, List.Perm (sort entries) entries
  sorted : ∀ entries, (sort entries).Pairwise fun e e' => e'.time ≤ e.time

/-- The trouble codes in the order of their configuration, the numbers of those that are
stored in the primary memory in ascending order, and the memory destinations. -/
structure FaultMemory where
  resetConfirmedBitOnOverflow : Bool := false
  dtcs : List ReportedDtc
  inPrimaryDtcList : List uint32
  getDestination : uint32 → Option ReadDestination
  distinct : (dtcs.map (·.value)).Nodup

namespace FaultMemory

variable (m : FaultMemory)

def getDtcByValue (dtcValue : uint32) : Option ReportedDtc := m.dtcs.find? (·.value = dtcValue)

/-- A known trouble code whose suppression is off. -/
def isReported (dtcValue : uint32) : Bool := (m.getDtcByValue dtcValue).any (!·.isDtcSuppressionOn)

def getPrimaryDestination : Option ReadDestination := m.getDestination primaryDestinationId

end FaultMemory

structure DTCAndStatusRecord where
  status : uint8
  dtcValue : uint32

structure SnapshotDataRecord where
  snapshotRecordNumber : uint8
  snapshotDataIdentifiers : List FreezeRecord

structure DTCExtDataRecord where
  recordNumber : uint8
  data : List uint8

namespace RecordedEntry

variable (entry : RecordedEntry) (record : uint8)

/-- `FindFreezeFrameDataRecord`; record 0xFF stands for all. -/
def findFreezeFrameDataRecord : List SnapshotDataRecord :=
  if record = 0xFF then entry.mapFreezeRecord.toList.map fun item => ⟨item.1, item.2⟩
  else
    match entry.mapFreezeRecord[record]? with
    | none => []
    | some ff => [⟨record, ff⟩]

/-- The extended data that a request for `record` reads. -/
def selectedRecords : List (uint8 × List ExtendedRecord) :=
  if record = 0xFF then entry.mapExtendedDataRecord.toList
  else
    match entry.mapExtendedDataRecord[record]? with
    | none => []
    | some edr => [(record, edr)]

end RecordedEntry

namespace ReadDestination

variable (dest : ReadDestination)

def isOverflow : Bool := dest.entries.size = dest.maxNumberOfEventEntries.toNat

variable (dtc : ReportedDtc)

/-- `CaptureInternalData`. A category that is not known gives no data. -/
def captureInternalData : EdrDataElementCategory → List uint8
  | .external => []
  | .demAgingctrDowncnt =>
    match dtc.agingThreshold with
    | none => [255]
    | some threshold =>
      match dest.entries[dtc.value]? with
      | none => []
      | some entry => [(threshold - entry.agingCounter).setWidth 8]
  | .demAgingctrUpcnt =>
    match dtc.agingThreshold with
    | none => [0]
    | some _ =>
      match dest.entries[dtc.value]? with
      | none => []
      | some entry => [entry.agingCounter.setWidth 8]
  | .demCurrentFdc => [dtc.getCurrentFDC]
  | .demCyclesSinceFirstFailed => [dtc.event.elim 0 (·.cyclesSinceFirstFailed)]
  | .demCyclesSinceLastFailed => [dtc.event.elim 0 (·.cyclesSinceLastFailed)]
  | .demFailedCycles => [dtc.event.elim 0 (·.failedCycles)]
  | .demMaxFdcDuringCurrentCycle => [dtc.event.elim 0 (·.maxFDCDuringCurrentCycle)]
  | .demMaxFdcSinceLastClear => [dtc.event.elim 0 (·.maxFDCSinceLastClear)]
  | .demOccctr =>
    match dest.entries[dtc.value]? with
    | none => []
    | some entry => [entry.occurrenceCounter]
  | .demOvflind => [if dest.isOverflow then 1 else 0]
  | .demSignificance => [dtc.significance]
  | .demPriority => [dtc.priority]
  | .demEventAssociatedIdentification =>
    let id := dtc.event.elim invalidEventID (·.id)
    [id.extractLsb' 24 8, id.extractLsb' 16 8, id.extractLsb' 8 8, id.extractLsb' 0 8]

/-- The data of one element: what was stored with it, or the internal data at this moment. -/
def elementData (edr : ExtendedDataRecord) (element : ExtendedRecord) : List uint8 :=
  match edr.getDataElementCategory element.id with
  | .external => element.vecData
  | category => dest.captureInternalData dtc category

/-- `FindExtendedDataRecord`. Records that are not configured for the trouble code are left
out. -/
def findExtendedDataRecord (entry : RecordedEntry) (record : uint8) : List DTCExtDataRecord :=
  (entry.selectedRecords record).filterMap fun item =>
    (dtc.getExtendedDataRecord item.1).map fun edr =>
      ⟨item.1, item.2.flatMap (dest.elementData dtc edr)⟩

end ReadDestination

/-! ### The queries -/

namespace FaultMemory

variable (m : FaultMemory) (sorting : TimeDownSort) (dest : ReadDestination) (statusMask : uint8)

/-- The entries of reported trouble codes whose available status matches the mask. -/
def matchingEntries : List RecordedEntry :=
  (dest.entries.toList.map (·.2)).filter fun entry =>
    m.isReported entry.dtcValue &&
      entry.dtcStatus.currentStatus &&& statusMask &&& dest.dtcStatusAvailabilityMask != 0

/-- `GetEntrySize` by status -/
def getEntrySize : uint32 := BitVec.ofNat 32 (m.matchingEntries dest statusMask).length

/-- `GetDtcSeverity` of an entry -/
def getDtcSeverity (dtcValue : uint32) : uint8 := (m.getDtcByValue dtcValue).elim 0 (·.severity)

/-- `GetEntrySize` by status and severity -/
def getEntrySizeBySeverity (statusMask severityMask : uint8) : uint32 :=
  BitVec.ofNat 32 ((m.matchingEntries dest statusMask).filter fun entry =>
    m.getDtcSeverity entry.dtcValue &&& severityMask != 0).length

def DTCAndStatusRecord.ofEntry (entry : RecordedEntry) : DTCAndStatusRecord :=
  ⟨entry.dtcStatus.currentStatus, entry.dtcValue⟩

/-- The list is sorted by time if only confirmed and pending codes are asked for. -/
def sortsByTime : Bool :=
  m.resetConfirmedBitOnOverflow && (statusMask.getLsbD 3 || statusMask.getLsbD 2) &&
    (statusMask &&& ~~~ (BitVec.twoPow 8 3 ||| BitVec.twoPow 8 2)) == 0

def getDTCByStatusMask : List DTCAndStatusRecord :=
  let entries := m.matchingEntries dest statusMask
  (if m.sortsByTime statusMask then sorting.sort entries else entries).map
    DTCAndStatusRecord.ofEntry

/-- `GetEntriesByMask`: a trouble code without an entry gets the default status. -/
def getEntriesByMask : List DTCAndStatusRecord :=
  m.inPrimaryDtcList.filterMap fun dtcValue =>
    match dest.entries[dtcValue]? with
    | none => some ⟨0x80, dtcValue⟩
    | some entry =>
      if m.isReported dtcValue then some ⟨entry.dtcStatus.currentStatus, dtcValue⟩ else none

/-- The entry of a reported trouble code. -/
def reportedEntry (dtcValue : uint32) : Option (ReportedDtc × RecordedEntry) := do
  let entry ← dest.entries[dtcValue]?
  let dtc ← m.getDtcByValue dtcValue
  if dtc.isDtcSuppressionOn then none else some (dtc, entry)

def getDTCSnapshotNumber : List (uint32 × List uint8) :=
  (m.dtcs.filter (!·.isDtcSuppressionOn)).map fun dtc => (dtc.value, dtc.freezeFrameNumberTable)

/-- `GetDTCFaultDetectionCounter`, over the group of all trouble codes -/
def getDTCFaultDetectionCounter : List (uint32 × int8) :=
  (m.dtcs.filter fun dtc => (0 : int8).slt dtc.getCurrentFDC && dtc.getCurrentFDC.slt 127).map
    fun dtc => (dtc.value, dtc.getCurrentFDC)

end FaultMemory

/-! ### Requests and responses -/

namespace ServiceX19

/-- `GetDtc`: the three bytes after the subfunction. -/
def getDtc (body : List uint8) : uint32 :=
  ((body.drop 2).take 3).foldl (fun value byte => (value <<< 8) ||| byte.setWidth 32) 0

def push (input : uint16) : List uint8 := [input.extractLsb' 8 8, input.extractLsb' 0 8]

def pushDtc (input : uint32) : List uint8 :=
  [input.extractLsb' 16 8, input.extractLsb' 8 8, input.extractLsb' 0 8]

def pushRecord (record : DTCAndStatusRecord) : List uint8 :=
  pushDtc record.dtcValue ++ [record.status]

def pushSnapshot (record : SnapshotDataRecord) : List uint8 :=
  [record.snapshotRecordNumber, BitVec.ofNat 8 record.snapshotDataIdentifiers.length] ++
    record.snapshotDataIdentifiers.flatMap fun did => push did.did ++ did.vecData

def pushExtData (record : DTCExtDataRecord) : List uint8 := record.recordNumber :: record.data

def dtcFormatIdentifier : TypeOfDtcSupported → uint8
  | .iso119924 => 3
  | .iso142291 => 1
  | .saeJ2012Da => 0
  | .other => 0xFF

/-- A positive response to the subfunction. -/
def createRespondMessage (subfunction : uint8) (parts : List uint8) : Response :=
  .positive ([0x19 ||| 0x40, subfunction] ++ parts)

variable (m : FaultMemory) (sorting : TimeDownSort)

section

variable (subfunction : uint8) (memorySelection : List uint8) (dest : Option ReadDestination)

/-- A number of trouble codes of the primary memory. -/
def reportNumberOfDtc (count : ReadDestination → uint32) : Response :=
  match m.getPrimaryDestination with
  | none => .negative .requestOutOfRange
  | some dest =>
    createRespondMessage subfunction
      ([dest.dtcStatusAvailabilityMask, dtcFormatIdentifier dest.typeOfDtcSupported] ++
        push ((count dest).setWidth 16))

/-- A list of trouble codes from a destination. -/
def reportDtc (records : ReadDestination → List DTCAndStatusRecord) : Response :=
  match dest with
  | none => .negative .requestOutOfRange
  | some dest =>
    createRespondMessage subfunction
      (memorySelection ++ [dest.dtcStatusAvailabilityMask] ++ (records dest).flatMap pushRecord)

/-- Snapshots or extended data of one trouble code from a destination. -/
def reportRecords (dtcMaskRecord : uint32)
    (records : ReadDestination → ReportedDtc → RecordedEntry → List uint8) : Response :=
  match dest with
  | none => .negative .requestOutOfRange
  | some dest =>
    match m.reportedEntry dest dtcMaskRecord with
    | none => .negative .requestOutOfRange
    | some (dtc, entry) =>
      createRespondMessage subfunction (memorySelection ++
        pushRecord ⟨entry.dtcStatus.currentStatus, dtcMaskRecord⟩ ++ records dest dtc entry)

def snapshotRecords (ssrNumber : uint8) (_ : ReadDestination) (_ : ReportedDtc)
    (entry : RecordedEntry) : List uint8 :=
  (entry.findFreezeFrameDataRecord ssrNumber).flatMap pushSnapshot

def extDataRecords (edrNumber : uint8) (dest : ReadDestination) (dtc : ReportedDtc)
    (entry : RecordedEntry) : List uint8 :=
  (dest.findExtendedDataRecord dtc entry edrNumber).flatMap pushExtData

/-- The user-defined memory with the number, which must not be the primary one. -/
def userDefMemory (memorySelection : uint8) : Option ReadDestination :=
  if memorySelection.setWidth 32 = primaryDestinationId then none
  else m.getDestination (memorySelection.setWidth 32)

/-- What a request of a supported subfunction and of the right length asks for. -/
inductive Query
  | reportNumberOfDtcByStatusMask (statusMask : uint8)
  | reportDtcByStatusMask (statusMask : uint8)
  | reportDtcSnapshotIdentification
  | reportDtcSnapshotRecordByDtcNumber (dtc : uint32) (ssrNumber : uint8)
  | reportDtcExtDataRecordByDtcNumber (dtc : uint32) (edrNumber : uint8)
  | reportNumberOfDtcBySeverityMaskRecord (severityMask statusMask : uint8)
  | reportSupportedDtcs
  | reportDtcFaultDetectionCounter
  | reportUserDefMemoryDtcByStatusMask (statusMask memorySelection : uint8)
  | reportUserDefMemoryDtcSnapshotRecordByDtcNumber (dtc : uint32)
      (ssrNumber memorySelection : uint8)
  | reportUserDefMemoryDtcExtDataRecordByDtcNumber (dtc : uint32)
      (edrNumber memorySelection : uint8)
  deriving DecidableEq, Repr

/-- The subfunction and the checks of the length. The request begins with the service. -/
def parse (body : List uint8) : Except NrcErrc (uint8 × Query) :=
  match body with
  | _ :: byte :: args =>
    let subfunction := byte &&& 0x7F
    let ask (query : Option Query) : Except NrcErrc (uint8 × Query) :=
      match query with
      | some query => .ok (subfunction, query)
      | none => .error .incorrectMessageLengthOrInvalidFormat
    match subfunction.toNat with
    | 0x01 => ask (match args with
      | [mask] => some (.reportNumberOfDtcByStatusMask mask)
      | _ => none)
    | 0x02 => ask (match args with
      | [mask] => some (.reportDtcByStatusMask mask)
      | _ => none)
    | 0x03 => ask (match args with
      | [] => some .reportDtcSnapshotIdentification
      | _ => none)
    | 0x04 => ask (match args with
      | [_, _, _, number] => some (.reportDtcSnapshotRecordByDtcNumber (getDtc body) number)
      | _ => none)
    | 0x06 => ask (match args with
      | [_, _, _, number] => some (.reportDtcExtDataRecordByDtcNumber (getDtc body) number)
      | _ => none)
    | 0x07 => ask (match args with
      | [severityMask, mask] => some (.reportNumberOfDtcBySeverityMaskRecord severityMask mask)
      | _ => none)
    | 0x0A => ask (match args with
      | [] => some .reportSupportedDtcs
      | _ => none)
    | 0x14 => ask (match args with
      | [] => some .reportDtcFaultDetectionCounter
      | _ => none)
    | 0x17 => ask (match args with
      | [mask, selection] => some (.reportUserDefMemoryDtcByStatusMask mask selection)
      | _ => none)
    | 0x18 => ask (match args with
      | [_, _, _, number, selection] =>
        some (.reportUserDefMemoryDtcSnapshotRecordByDtcNumber (getDtc body) number selection)
      | _ => none)
    | 0x19 => ask (match args with
      | [_, _, _, number, selection] =>
        some (.reportUserDefMemoryDtcExtDataRecordByDtcNumber (getDtc body) number selection)
      | _ => none)
    | _ => .error .subfunctionNotSupported
  | _ => .error .incorrectMessageLengthOrInvalidFormat

/-- The branches of `ParseAndResponse` -/
def respond : Query → Response
  | .reportNumberOfDtcByStatusMask mask => reportNumberOfDtc m subfunction (m.getEntrySize · mask)
  | .reportDtcByStatusMask mask =>
    reportDtc subfunction [] m.getPrimaryDestination (m.getDTCByStatusMask sorting · mask)
  | .reportDtcSnapshotIdentification =>
    createRespondMessage subfunction (m.getDTCSnapshotNumber.flatMap fun item =>
      item.2.flatMap fun number => pushDtc item.1 ++ [number])
  | .reportDtcSnapshotRecordByDtcNumber dtc number =>
    reportRecords m subfunction [] m.getPrimaryDestination dtc (snapshotRecords number)
  | .reportDtcExtDataRecordByDtcNumber dtc number =>
    reportRecords m subfunction [] m.getPrimaryDestination dtc (extDataRecords number)
  | .reportNumberOfDtcBySeverityMaskRecord severityMask mask =>
    reportNumberOfDtc m subfunction (m.getEntrySizeBySeverity · mask severityMask)
  | .reportSupportedDtcs => reportDtc subfunction [] m.getPrimaryDestination m.getEntriesByMask
  | .reportDtcFaultDetectionCounter =>
    createRespondMessage subfunction (m.getDTCFaultDetectionCounter.flatMap fun item =>
      pushDtc item.1 ++ [item.2])
  | .reportUserDefMemoryDtcByStatusMask mask selection =>
    reportDtc subfunction [selection] (userDefMemory m selection)
      (m.getDTCByStatusMask sorting · mask)
  | .reportUserDefMemoryDtcSnapshotRecordByDtcNumber dtc number selection =>
    reportRecords m subfunction [selection] (userDefMemory m selection) dtc (snapshotRecords number)
  | .reportUserDefMemoryDtcExtDataRecordByDtcNumber dtc number selection =>
    reportRecords m subfunction [selection] (userDefMemory m selection) dtc (extDataRecords number)

end

def parseAndResponse (body : List uint8) : Response :=
  match parse body with
  | .error nrc => .negative nrc
  | .ok (subfunction, query) => respond m sorting subfunction query

end ServiceX19

end AdaptivePlatform.Diag
