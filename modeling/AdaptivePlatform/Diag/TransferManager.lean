import AdaptivePlatform.Diag.DebounceCounterBase
import AdaptivePlatform.Diag.RequestContext

/-!
# Data transfer

Services 0x34, 0x35 and 0x38 begin a transfer, 0x36 moves its blocks and 0x37
ends it. The transfer manager decides which validators a request has to pass
before it is processed, and keeps the counter that the next block must have
together with that of the block before, which may be repeated.
-/
namespace AdaptivePlatform.Diag

inductive RequestServerType
  | unknow
  | download
  | upload
  | fileTransfer
  deriving DecidableEq, Repr

inductive TransferState
  | idle
  | request
  | transfer
  | exit
  deriving DecidableEq, Repr

inductive ModeOfOperation
  | reserved
  | addFile
  | deleteFile
  | replaceFile
  | readFile
  | readDir
  | resumeFile
  deriving DecidableEq, Repr

/-- The services of the transfer manager -/
inductive TransferService
  | download
  | upload
  | transfer
  | transferExit
  | fileTransfer
  deriving DecidableEq, Repr

def TransferService.sid : TransferService → uint8
  | .download => 0x34
  | .upload => 0x35
  | .transfer => 0x36
  | .transferExit => 0x37
  | .fileTransfer => 0x38

/-! ### Validators -/

/-- The permissions configured for a kind of transfer; the roles are given if authentication is
enabled. -/
structure TransferPermission where
  authRoleList : Option (List String) := none
  accessPermissionSession : List uint8
  accessPermissionSecurityLevel : List uint8

structure TransferConfig where
  requestDownload : Option TransferPermission := none
  requestUpload : Option TransferPermission := none
  requestFileTransfer : Option TransferPermission := none

/-- The validators of a kind of transfer, as far as it is configured. -/
structure TransferInstance where
  authValidator : Option Validator := none
  sessionValidator : Option Validator := none
  securityLevelValidator : Option Validator := none

def TransferInstance.ofPermission : Option TransferPermission → TransferInstance
  | none => {}
  | some permission =>
    { authValidator := permission.authRoleList.map .auth
      sessionValidator := some (.session permission.accessPermissionSession)
      securityLevelValidator := some (.securityLevel permission.accessPermissionSecurityLevel) }

/-- What one instance adds to the table of validators. If it has a validator of the security
level, the validator of the session is added once more. -/
def TransferInstance.validatorTable (inst : TransferInstance) : List Validator :=
  inst.authValidator.toList ++ inst.sessionValidator.toList ++
    (if inst.securityLevelValidator.isSome then inst.sessionValidator.toList else [])

namespace TransferConfig

variable (cfg : TransferConfig)

def downloadInstance : TransferInstance := .ofPermission cfg.requestDownload

def uploadInstance : TransferInstance := .ofPermission cfg.requestUpload

def fileTransferInstance : TransferInstance := .ofPermission cfg.requestFileTransfer

variable (requestServerType : RequestServerType) (service : TransferService)

/-- `GetSidValidator` while a transfer of the given type runs -/
def getSidValidator : List Validator :=
  (if service = .download ∨ requestServerType = .download then
    cfg.downloadInstance.validatorTable else []) ++
  (if service = .upload ∨ requestServerType = .upload then
    cfg.uploadInstance.validatorTable else []) ++
  (if service = .fileTransfer ∨ requestServerType = .fileTransfer then
    cfg.fileTransferInstance.validatorTable else [])

/-- The services that `Initialize` puts into the protocol table. -/
def isRegistered : TransferService → Bool
  | .download => cfg.requestDownload.isSome
  | .upload => cfg.requestUpload.isSome
  | .fileTransfer => cfg.requestFileTransfer.isSome
  | .transfer | .transferExit =>
    cfg.requestDownload.isSome || cfg.requestUpload.isSome || cfg.requestFileTransfer.isSome

/-- `_hanldeRequestContext`: the request is handed to `Process` -/
def hanldeRequestContext (ctx : AccessContext) : Bool :=
  ctx.manufacturerServiceValidate && cfg.isRegistered service &&
    (cfg.getSidValidator requestServerType service).all (·.validate ctx) &&
      ctx.supplierServiceValidate

end TransferConfig

/-! ### Transfers -/

/-- The state of the running transfer. -/
structure TransferManager where
  blockSequenceCounter : uint8 := 1
  previousblockSequenceCounter : int16 := -1
  transferRequestParameterRecord : List uint8 := []
  state : TransferState := .idle
  modeOfOperation : ModeOfOperation := .reserved
  requestServerType : RequestServerType := .unknow

namespace TransferManager

def clearTransferInfo (_ : TransferManager) : TransferManager where
  blockSequenceCounter := 1
  previousblockSequenceCounter := 0
  transferRequestParameterRecord := []
  state := .idle
  modeOfOperation := .reserved
  requestServerType := .unknow

section

variable (m : TransferManager) (body : List uint8) (mode : ModeOfOperation)
  (answer : Except NrcErrc (List uint8)) (t : Transmission)

def confirm : ResponseStatusType → TransferManager
  | .canceled | .resNegOk | .resNegNotOk | .resPosNotOk => m.clearTransferInfo
  | _ => m

/-- `Respond` with the confirmation it calls -/
def respond (m : TransferManager) (service : TransferService) (body : List uint8)
    (t : Transmission) (response : Response) : TransferManager :=
  m.confirm (t.respond service.sid ((body[1]?).getD 0) response)

/-- The checks of a request for a download or an upload. -/
def checkRequest : Option NrcErrc :=
  if body.length < 5 then some .incorrectMessageLengthOrInvalidFormat
  else
    let formatIdentifier := ((body[2]?).getD 0).toNat
    let size := formatIdentifier / 16
    let address := formatIdentifier % 16
    if size < 1 ∨ 8 < size ∨ address < 1 ∨ 8 < address then some .requestOutOfRange
    else if 3 + address + size ≠ body.length then some .incorrectMessageLengthOrInvalidFormat
    else none

/-- The fields set at the begin of a transfer. The counter of the block before stays. -/
def begin (requestServerType : RequestServerType) : TransferManager :=
  { m with
    blockSequenceCounter := 1
    requestServerType := requestServerType
    state := .request }

/-- A request for a download or an upload, with the verdict of the environmental condition and of
the interface. The transfer begins after `Respond`. -/
def requestTransfer (service : TransferService) (requestServerType : RequestServerType)
    (m : TransferManager) (body : List uint8) (maxNumberOfBlockLength : List uint8)
    (answer : Except NrcErrc Unit) (t : Transmission) : TransferManager × Response :=
  let refuse (nrc : NrcErrc) := (m.respond service body t (.negative nrc), .negative nrc)
  match checkRequest body, answer with
  | some nrc, _ => refuse nrc
  | none, .error nrc => refuse nrc
  | none, .ok () =>
    let response := Response.positive ([service.sid ||| 0x40, 0x40] ++ maxNumberOfBlockLength)
    ((m.respond service body t response).begin requestServerType, response)

def requestDownload : TransferManager → List uint8 → List uint8 → Except NrcErrc Unit →
    Transmission → TransferManager × Response :=
  requestTransfer .download .download

def requestUpload : TransferManager → List uint8 → List uint8 → Except NrcErrc Unit →
    Transmission → TransferManager × Response :=
  requestTransfer .upload .upload

/-- `_requestFileTransfer`, with the outcome of the checks and of the file transfer interface:
the rest of the positive response. Deleting a file begins no transfer. -/
def requestFileTransfer : TransferManager × Response :=
  match answer with
  | .error nrc => (m.respond .fileTransfer body t (.negative nrc), .negative nrc)
  | .ok rest =>
    let response := Response.positive (0x78 :: rest)
    let responded := m.respond .fileTransfer body t response
    if mode = .deleteFile then (responded, response)
    else ({ responded.begin .fileTransfer with modeOfOperation := mode }, response)

/-- A transfer has been requested and not ended. -/
def isRunning : Bool := m.requestServerType ≠ .unknow && (m.state = .request || m.state = .transfer)

/-- The counter is that of the block before. -/
def isRepeated (blockSequenceCounter : uint8) : Bool :=
  m.previousblockSequenceCounter = blockSequenceCounter.setWidth 16

/-- The counters after a block. -/
def advance : TransferManager :=
  { m with
    previousblockSequenceCounter := m.blockSequenceCounter.setWidth 16
    blockSequenceCounter := m.blockSequenceCounter + 1 }

inductive TransferDirection
  | toServer
  | toTester (appends : Bool)

/-- Where the blocks of the running transfer go. What is read from a file is kept with what was
read before. -/
def direction : Option TransferDirection :=
  match m.requestServerType, m.modeOfOperation with
  | .unknow, _ => none
  | .download, _ => some .toServer
  | .upload, _ => some (.toTester false)
  | .fileTransfer, .readFile => some (.toTester true)
  | .fileTransfer, .readDir => some (.toTester true)
  | .fileTransfer, .addFile => some .toServer
  | .fileTransfer, .replaceFile => some .toServer
  | .fileTransfer, .resumeFile => some .toServer
  | .fileTransfer, _ => none

/-- The result of `_transfer`: the state, the response, and the data handed to the interface. -/
structure TransferResult where
  manager : TransferManager
  response : Option Response
  handed : Option (List uint8) := none

/-- A positive response to a block. -/
def acknowledge (blockSequenceCounter : uint8) (record : List uint8) : Response :=
  .positive ([0x76, blockSequenceCounter] ++ record)

/-- A block whose counter is accepted goes to the interface, which answers with the data it
returns. -/
def moveBlock (direction : TransferDirection) (body : List uint8)
    (blockSequenceCounter : uint8) (answer : Except NrcErrc (List uint8)) (t : Transmission) :
    TransferResult :=
  let handed := match direction with
    | .toServer => some (body.drop 2)
    | .toTester _ => none
  match answer with
  | .error nrc => ⟨m.respond .transfer body t (.negative nrc), some (.negative nrc), handed⟩
  | .ok data =>
    let advanced := match direction with
      | .toServer => m.advance
      | .toTester false => { m.advance with transferRequestParameterRecord := data }
      | .toTester true =>
        { m.advance with
          transferRequestParameterRecord := m.transferRequestParameterRecord ++ data }
    let record := match direction with
      | .toServer => []
      | .toTester _ => data
    let response := acknowledge blockSequenceCounter record
    ⟨advanced.respond .transfer body t response, some response, handed⟩

def transfer : TransferResult :=
  let refuse (nrc : NrcErrc) : TransferResult :=
    ⟨m.respond .transfer body t (.negative nrc), some (.negative nrc), none⟩
  match body with
  | _ :: counter :: _ =>
    if !m.isRunning then refuse .requestSequenceError
    else if m.blockSequenceCounter ≠ counter ∧ !m.isRepeated counter then
      refuse .wrongBlockSequenceCounter
    else
      match m.direction with
      | none => ⟨m, none, none⟩
      | some direction =>
        if m.isRepeated counter then
          let record := match direction with
            | .toServer => []
            | .toTester _ => m.transferRequestParameterRecord
          let response := acknowledge counter record
          ⟨m.respond .transfer body t response, some response, none⟩
        else m.moveBlock direction body counter answer t
  | _ => refuse .incorrectMessageLengthOrInvalidFormat

def transferExit : TransferManager × Response :=
  let refuse (nrc : NrcErrc) := (m.respond .transferExit body t (.negative nrc), .negative nrc)
  if body.length < 1 then refuse .incorrectMessageLengthOrInvalidFormat
  else if !m.isRunning then refuse .requestSequenceError
  else
    match answer with
    | .error nrc => refuse nrc
    | .ok data =>
      let response := Response.positive (0x77 :: data)
      (({ m.clearTransferInfo with state := .exit }).respond .transferExit body t response,
        response)

/-- The notification of a session change. -/
def sessionChange (oldSession newSession : uint8) : TransferManager :=
  if oldSession ≠ newSession then m.clearTransferInfo else m

end

end TransferManager

end AdaptivePlatform.Diag
