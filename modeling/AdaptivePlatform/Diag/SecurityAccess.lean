import Mathlib.Data.List.Nodup
import AdaptivePlatform.Diag.RequestContext

/-!
# SecurityAccess

Service 0x27 unlocks a security level for a tester that answers a seed with the
right key. A request is handled in two parts: the handler prepares a response
and counts failures, and the confirmation of the response moves the state of
the service, sets the security level and starts a delay after too many
failures. The number of failures is stored for the next start of the server.
-/
namespace AdaptivePlatform.Diag

inductive SecurityLevelState
  | lockNoActiveSeed
  | lockActiveSeedWaitKey
  | unlockNoActiveSeed
  | unlockActiveSeedWaitKey
  deriving DecidableEq, Repr

namespace SecurityLevelState

def isLocked : SecurityLevelState → Bool
  | .lockNoActiveSeed => true
  | .lockActiveSeedWaitKey => true
  | .unlockNoActiveSeed => false
  | .unlockActiveSeedWaitKey => false

def waitsForKey : SecurityLevelState → Bool
  | .lockNoActiveSeed => false
  | .lockActiveSeedWaitKey => true
  | .unlockNoActiveSeed => false
  | .unlockActiveSeedWaitKey => true

/-- The state without the seed that was sent. -/
def dropSeed : SecurityLevelState → SecurityLevelState
  | .lockActiveSeedWaitKey => .lockNoActiveSeed
  | .unlockActiveSeedWaitKey => .unlockNoActiveSeed
  | state => state

variable (state : SecurityLevelState)

@[simp] theorem isLocked_dropSeed : state.dropSeed.isLocked = state.isLocked := by
  cases state <;> rfl

@[simp] theorem waitsForKey_dropSeed : state.dropSeed.waitsForKey = false := by cases state <;> rfl

end SecurityLevelState

/-- The configured part of `SecurityLevelInfo` and of its `SecurityLevel`. -/
structure SecurityLevelInfo where
  requestSeedId : uint8
  id : uint8
  accessDataRecordSize : Nat
  keySize : Nat
  numFailedSecurityAccess : uint64
  securityDelayTime : uint32
  deriving DecidableEq, Repr

/-- What `Initialize` accepts: the seed identifiers are distinct, and instances with a shared
timer have the same delay. -/
structure SecurityAccessConfig where
  instances : List SecurityLevelInfo
  securityDelayTimeOnBoot : uint32
  sharedTimer : Bool
  distinct : (instances.map (·.requestSeedId)).Nodup
  sharedDelay : sharedTimer = true → ∀ info ∈ instances, ∀ info' ∈ instances,
    info.securityDelayTime = info'.securityDelayTime

namespace SecurityAccessConfig

/-- `instanceTable_.find` -/
def find (cfg : SecurityAccessConfig) (id : uint8) : Option SecurityLevelInfo :=
  cfg.instances.find? (·.requestSeedId = id)

variable {cfg : SecurityAccessConfig} {id : uint8} {info : SecurityLevelInfo}

theorem mem_of_find (h : cfg.find id = some info) :
    info ∈ cfg.instances := List.mem_of_find?_eq_some h

theorem requestSeedId_of_find (h : cfg.find id = some info) : info.requestSeedId = id := by
  simpa using List.find?_some h

theorem find_of_mem (h : info ∈ cfg.instances) : cfg.find info.requestSeedId = some info := by
  cases hfound : cfg.find info.requestSeedId with
  | none => exact absurd (List.find?_eq_none.mp hfound info h) (by simp)
  | some other =>
    have hid := requestSeedId_of_find hfound
    rw [List.inj_on_of_nodup_map cfg.distinct (mem_of_find hfound) h hid]

end SecurityAccessConfig

inductive KeyCompareResultType
  | keyValid
  | keyInvalid
  deriving DecidableEq, Repr

/-- A request, with the verdict of the validators of its subfunction and with what the security
access interface of the instance answers, should it be asked. A request that the validators of
the service refuse does not reach the service. -/
structure SecurityAccessRequest where
  body : List uint8
  refusal : Option NrcErrc := none
  getSeed : Except NrcErrc (List uint8) := .ok []
  compareKey : Except NrcErrc KeyCompareResultType := .ok .keyInvalid

namespace SecurityAccessRequest

variable (req : SecurityAccessRequest)

/-- The second byte; `Serialize` reads 0 behind the end of the body. -/
def subfunctionByte : uint8 := (req.body[1]?).getD 0

def subfunction : uint8 := req.subfunctionByte &&& 0x7F

def record : List uint8 := req.body.drop 2

end SecurityAccessRequest

/-- The state of the service, of the security level manager and of the persistence. Failures and
timers are kept by seed identifier, stored failures by security level; a timer that runs has the
duration it was started with. -/
structure ServiceX27 where
  securityLevelState : SecurityLevelState := .lockNoActiveSeed
  lastSubfunction : uint8 := 0
  unlockSecurityLevelId : uint8 := 0
  currentSecurityLevel : uint8 := 0
  failedCounter : uint8 → uint64
  delayTimers : uint8 → Option uint32
  delayTimer : Option uint32
  storage : uint8 → uint32

namespace ServiceX27

/-- What a handler does after `Respond`. -/
inductive Afterwards
  | nothing
  | seedSent
  | keyAccepted
  | storeFailedCounter (info : SecurityLevelInfo)
  deriving DecidableEq, Repr

/-- The response of a handler, and what `CompareKey` said if it was asked. -/
structure Reply where
  response : Response
  comparedKey : Option KeyCompareResultType := none
  afterwards : Afterwards := .nothing

def Reply.reject (nrc : NrcErrc) : Reply := { response := .negative nrc }

def isRequestSeed (subfunction : uint8) : Bool := subfunction.toNat % 2 != 0

def isSeedKey (subfunction : uint8) : Bool := !isRequestSeed subfunction

/-- `_getRealSubfunction`: the seed identifier of the subfunction -/
def getRealSubfunction (subfunction : uint8) : uint8 :=
  if subfunction.toNat % 2 = 1 then subfunction else subfunction - 1

variable (cfg : SecurityAccessConfig) (s : ServiceX27) (info : SecurityLevelInfo)

def matchRequestSeedAndSeedKey (subfunction : uint8) : Bool :=
  s.lastSubfunction.toNat + 1 = subfunction.toNat

def activeDelayTimer :
    Bool :=
  s.delayTimer.isSome || (!cfg.sharedTimer && (s.delayTimers info.requestSeedId).isSome)

def setFailedCounter (count : uint64) : ServiceX27 :=
  { s with failedCounter := Function.update s.failedCounter info.requestSeedId count }

/-- `++failedCounter` -/
def countFailure : ServiceX27 := s.setFailedCounter info (s.failedCounter info.requestSeedId + 1)

/-- The answer of a level that is unlocked already, with a seed of zeros. -/
def zeroSeed (subfunction : uint8) : Reply := { response := .positive [0x67, subfunction, 0, 0] }

def isUnlocked (subfunction : uint8) : Bool :=
  s.unlockSecurityLevelId = subfunction && s.securityLevelState = .unlockNoActiveSeed

variable (reply : Reply) (req : SecurityAccessRequest) (t : Transmission)

def handlerRequestSeed :
    Reply :=
  if s.isUnlocked req.subfunction then zeroSeed req.subfunction
  else if !isRequestSeed req.subfunction then .reject .requestSequenceError
  else if req.record.length ≠ info.accessDataRecordSize then
    .reject .incorrectMessageLengthOrInvalidFormat
  else
    match req.getSeed with
    | .error nrc => .reject nrc
    | .ok seed =>
      { response := .positive ([0x67, req.subfunction] ++ seed), afterwards := .seedSent }

/-- The reply to a key that is wrong, with the failures counted so far. -/
def wrongKey (failedCounter : uint64) : Reply :=
  { response := .negative (if failedCounter < info.numFailedSecurityAccess then .invalidKey
      else .exceedNumberOfAttempts)
    comparedKey := some .keyInvalid }

/-- `CompareKey` and what follows from it -/
def compareKey (s : ServiceX27) (info : SecurityLevelInfo) (req : SecurityAccessRequest) :
    ServiceX27 × Reply :=
  let failed := s.countFailure info
  let wrong := wrongKey info (failed.failedCounter info.requestSeedId)
  match req.compareKey with
  | .ok .keyValid =>
    (s.setFailedCounter info 0,
      { response := .positive [0x67, req.subfunction]
        comparedKey := some .keyValid
        afterwards := .keyAccepted })
  | .ok .keyInvalid => (failed, wrong)
  | .error nrc => if nrc = .invalidKey then (failed, wrong) else (s, .reject nrc)

/-- `_handlerSeedKey`. A request for another seed drops the one that was sent. -/
def handlerSeedKey : ServiceX27 × Reply :=
  if s.isUnlocked req.subfunction then (s, zeroSeed req.subfunction)
  else if !isSeedKey req.subfunction then
    let s := { s with securityLevelState := s.securityLevelState.dropSeed }
    (s, s.handlerRequestSeed info req)
  else if !s.matchRequestSeedAndSeedKey req.subfunction then
    (s.countFailure info,
      { Reply.reject .requestSequenceError with afterwards := .storeFailedCounter info })
  else if req.record.length ≠ info.keySize then
    (s.countFailure info,
      { Reply.reject .incorrectMessageLengthOrInvalidFormat with
        afterwards := .storeFailedCounter info })
  else s.compareKey info req

def handlerState : ServiceX27 × Reply :=
  if s.securityLevelState.waitsForKey then s.handlerSeedKey info req
  else (s, s.handlerRequestSeed info req)

/-- `Process` and `ParseAndResponse`, up to the response -/
def process : ServiceX27 × Reply :=
  if req.body.length < 2 then (s, .reject .incorrectMessageLengthOrInvalidFormat)
  else
    match cfg.find (getRealSubfunction req.subfunction), req.refusal with
    | none, _ => (s, .reject .subfunctionNotSupported)
    | some _, some nrc => (s, .reject nrc)
    | some info, none =>
      if s.activeDelayTimer cfg info then (s, .reject .requiredTimeDelayNotExpired)
      else s.handlerState info req

def startDelayTimer :
    ServiceX27 :=
  if cfg.sharedTimer then { s with delayTimer := some info.securityDelayTime }
  else { s with delayTimers :=
    Function.update s.delayTimers info.requestSeedId (some info.securityDelayTime) }

def confirm (subfunction : uint8) :
    ResponseStatusType → ServiceX27
  | .resPosOk =>
    match s.securityLevelState with
    | .lockNoActiveSeed => { s with securityLevelState := .lockActiveSeedWaitKey }
    | .lockActiveSeedWaitKey =>
      { s with
        securityLevelState := .unlockNoActiveSeed
        currentSecurityLevel := getRealSubfunction subfunction }
    | .unlockNoActiveSeed =>
      if s.unlockSecurityLevelId = subfunction then s
      else { s with securityLevelState := .unlockActiveSeedWaitKey }
    | .unlockActiveSeedWaitKey =>
      { s with
        securityLevelState := .unlockNoActiveSeed
        currentSecurityLevel := getRealSubfunction subfunction }
  | .resNegOk =>
    let s := { s with securityLevelState := s.securityLevelState.dropSeed }
    match cfg.find (getRealSubfunction subfunction) with
    | none => s
    | some info =>
      if s.failedCounter info.requestSeedId = info.numFailedSecurityAccess then
        s.startDelayTimer cfg info
      else s
  | _ => s

/-- The statements after `Respond`. -/
def afterRespond (subfunction : uint8) : Afterwards → ServiceX27
  | .nothing => s
  | .seedSent => { s with lastSubfunction := subfunction }
  | .keyAccepted => { s with lastSubfunction := subfunction, unlockSecurityLevelId := subfunction }
  | .storeFailedCounter info =>
    { s with storage :=
      Function.update s.storage info.id ((s.failedCounter info.requestSeedId).setWidth 32) }

/-- The status with which the response is confirmed. -/
def Reply.status :
    ResponseStatusType :=
  t.respond 0x27 req.subfunctionByte reply.response

/-- The second part of a request, from its `Respond` on. -/
def finish (reply : Reply) (t : Transmission) : ServiceX27 :=
  (s.confirm cfg req.subfunction (reply.status req t)).afterRespond req.subfunction reply.afterwards

/-- A request that is handled without another one coming in between. -/
def exchange : ServiceX27 :=
  let handled := s.process cfg req
  handled.1.finish cfg req handled.2 t

/-! ### Starting, timers and sessions -/

section

variable (storage : uint8 → uint32) (info : SecurityLevelInfo)

def loadFailedCounter : uint64 := (storage info.id).setWidth 64

/-- The stored failures of the instance have used up its attempts. -/
def exhausted : Bool := info.numFailedSecurityAccess ≤ loadFailedCounter storage info

/-- The larger of two durations, in the order of the source's comparisons. -/
def longerDelay (duration securityDelayTime : uint32) : uint32 :=
  if duration < securityDelayTime then securityDelayTime else duration

/-- The duration of the shared timer in `Start`. -/
def bootingDelay : uint32 :=
  cfg.instances.foldl (fun delay info =>
    if exhausted storage info && cfg.sharedTimer then longerDelay delay info.securityDelayTime
    else delay) cfg.securityDelayTimeOnBoot

/-- `Initialize` and `Start` -/
def start : ServiceX27 where
  failedCounter id := (cfg.find id).elim 0 (loadFailedCounter storage)
  delayTimers id :=
    (cfg.find id).bind fun info =>
      if exhausted storage info && !cfg.sharedTimer then
        some (longerDelay cfg.securityDelayTimeOnBoot info.securityDelayTime)
      else none
  delayTimer := some (bootingDelay cfg storage)
  storage := storage

end

def handleSharedDelayTimer : ServiceX27 := { s with delayTimer := none }

def handleDelayTimer (requestSeedId : uint8) : ServiceX27 :=
  { s with delayTimers := Function.update s.delayTimers requestSeedId none }

/-- The notifications of a session change: the service locks its state at each of them, the
security level manager resets the level unless the session that is current is entered again. -/
def sessionChange (oldSession newSession : uint8) : ServiceX27 :=
  { s with
    lastSubfunction := 0
    unlockSecurityLevelId := 0
    securityLevelState := .lockNoActiveSeed
    currentSecurityLevel :=
      if oldSession ≠ newSession ∨ newSession = 1 then 0 else s.currentSecurityLevel }

/-! ### What a request changes -/

section

variable {cfg : SecurityAccessConfig} {info : SecurityLevelInfo} {s : ServiceX27}
  {req : SecurityAccessRequest}

/-- Up to its response a request changes the state within the locked or the unlocked ones, and
failure counters, but no timer, no level and nothing stored. -/
theorem process_frame (cfg : SecurityAccessConfig) (s : ServiceX27) (req : SecurityAccessRequest) :
    ∃ state failedCounter, (s.process cfg req).1 =
        { s with securityLevelState := state, failedCounter := failedCounter } ∧
      state.isLocked = s.securityLevelState.isLocked := by
  have hsame : ∃ state failedCounter, s =
        { s with securityLevelState := state, failedCounter := failedCounter } ∧
      state.isLocked = s.securityLevelState.isLocked := ⟨_, _, rfl, rfl⟩
  unfold process
  split_ifs with hlength
  · exact hsame
  · split
    · exact hsame
    · exact hsame
    · split_ifs with hactive
      · exact hsame
      · unfold handlerState
        split_ifs with hwait
        · unfold handlerSeedKey
          split_ifs
          · exact hsame
          · exact ⟨_, _, rfl, SecurityLevelState.isLocked_dropSeed _⟩
          · exact ⟨_, _, rfl, rfl⟩
          · exact ⟨_, _, rfl, rfl⟩
          · unfold compareKey
            split
            · exact ⟨_, _, rfl, rfl⟩
            · exact ⟨_, _, rfl, rfl⟩
            · split_ifs
              · exact ⟨_, _, rfl, rfl⟩
              · exact hsame
        · exact hsame

theorem comparedKey_handlerRequestSeed (s : ServiceX27) (info : SecurityLevelInfo)
    (req : SecurityAccessRequest) : (s.handlerRequestSeed info req).comparedKey = none := by
  unfold handlerRequestSeed
  split_ifs
  · rfl
  · rfl
  · rfl
  · split <;> rfl

/-- A key is compared only for a configured instance without a delay, in a state that waits for
it, and if its subfunction follows that of the last seed. -/
structure KeyCompared (cfg : SecurityAccessConfig) (s : ServiceX27) (req : SecurityAccessRequest)
    (info : SecurityLevelInfo) : Prop where
  found : cfg.find (getRealSubfunction req.subfunction) = some info
  noDelay : s.activeDelayTimer cfg info = false
  waiting : s.securityLevelState.waitsForKey = true
  isKey : isRequestSeed req.subfunction = false
  follows : s.lastSubfunction.toNat + 1 = req.subfunction.toNat
  process_eq : s.process cfg req = s.compareKey info req

theorem exists_keyCompared {result : KeyCompareResultType}
    (h : (s.process cfg req).2.comparedKey = some result) :
    ∃ info, KeyCompared cfg s req info := by
  unfold process at h
  split_ifs at h with hlength
  · cases h
  split at h
  · cases h
  · cases h
  · rename_i info hfound hrefusal
    split_ifs at h with hactive
    · cases h
    · unfold handlerState at h
      split_ifs at h with hwait
      · have hprocess : s.process cfg req = s.handlerSeedKey info req := by
          unfold process handlerState
          rw [if_neg hlength, hfound, hrefusal]
          simp [hactive, hwait]
        unfold handlerSeedKey at h
        split_ifs at h with hunlocked hkey hmatch hsize
        · cases h
        · cases (comparedKey_handlerRequestSeed _ _ _).symm.trans h
        · cases h
        · cases h
        · refine ⟨info, hfound, by simpa using hactive, hwait, ?_, ?_, ?_⟩
          · simpa [isSeedKey] using hkey
          · simpa [matchRequestSeedAndSeedKey] using hmatch
          · rw [hprocess]
            unfold handlerSeedKey
            rw [if_neg hunlocked, if_neg hkey, if_neg hmatch, if_neg hsize]
      · cases (comparedKey_handlerRequestSeed _ _ _).symm.trans h

theorem compareKey_of_keyInvalid (h : (s.compareKey info req).2.comparedKey = some .keyInvalid) :
    (s.compareKey info req).1 = s.countFailure info ∧
      ∃ nrc, (s.compareKey info req).2.response = .negative nrc := by
  unfold compareKey at h ⊢
  split at h
  · cases h
  · exact ⟨rfl, _, rfl⟩
  · split_ifs at h ⊢ with hnrc
    · exact ⟨rfl, _, rfl⟩
    · cases h

end

end ServiceX27

end AdaptivePlatform.Diag
