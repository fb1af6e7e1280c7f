import AdaptivePlatform.Secoc.Fvm

/-!
# Securing and verifying SOME/IP messages

The sender appends a trailer to the payload: the low bits of the freshness value, then the
leading bits of the authenticator. The authenticator is computed over the data identifier,
the second part of the header, the payload and the whole freshness value. The receiver
assembles the same bytes in a buffer of the received length, where the freshness value
overwrites the trailer.

`Host` is what lies outside: the clock, the crypto provider and the machine's wide shifts,
the first two as seen by each attempt. A step outside a buffer and a failed assertion have
no result.
-/
namespace AdaptivePlatform.Secoc

open Bytes BitStreams

structure SomeIpHeader where
  service : uint16
  method : uint16
  len : uint32
  client : uint16
  session : uint16
  protocol : uint8
  interface : uint8
  type : uint8
  code : uint8

structure SomeIpMessage where
  hdr : SomeIpHeader
  payload : List uint8

/-- The length field counts the second part of the header and the payload. -/
def SomeIpMessage.WellFormed (m : SomeIpMessage) : Prop := m.hdr.len.toNat = m.payload.length + 8

instance (m : SomeIpMessage) : Decidable m.WellFormed := inferInstanceAs (Decidable (_ = _))

inductive VerificationStatusResultEnum
  | kSecOcVerificationSuccess
  | kSecOcVerificationFailure
  | kSecOcFreshnessFailure
  | kSecOcAuthenticationBuildFailure
  | kSecOcNoVerification
  | kSecOcVerificationFailureOverwritten
  deriving DecidableEq, Repr

structure SecOCVerificationEventSnapshot where
  dataId : uint16
  freshnessId : uint16
  verificationStatus : VerificationStatusResultEnum
  deriving DecidableEq, Repr

structure Host where
  shifts : Shifts
  clock : ℕ → uint64
  crypto : uint16 → ℕ → List uint8 → Option (List uint8)

/-- The profiles by data identifier, the freshness value manager and the last event. -/
structure SecOC where
  profiles : uint16 → Option SecOCProfile
  fvm : FVM
  snapshot : Option SecOCVerificationEventSnapshot

variable (host : Host) (dataId : uint16) (message : SomeIpMessage) (profile : SecOCProfile)
  (s : SecOC)

def SecOC.setVerificationEventSnapshot (dataId freshnessId : uint16)
    (status : VerificationStatusResultEnum) : SecOC :=
  { s with snapshot := some ⟨dataId, freshnessId, status⟩ }

/-- `while (buildCounter <= authenticationBuildAttempts)` around a call that may fail: the
result of the first call that does not, and the counter at that time. -/
def attempt {α : Type*} (call : ℕ → Option α) : ℕ → ℕ → Option α × ℕ
  | 0, buildCounter => (call buildCounter, buildCounter)
  | left + 1, buildCounter =>
    match call buildCounter with
    | some a => (some a, buildCounter)
    | none => attempt call left (buildCounter + 1)

/-- Data identifier and second part of the header, in network order; a notification is
authenticated with client `0`. -/
def headerBytes (hdr : SomeIpHeader) : List uint8 :=
  beBytes 2 dataId ++ beBytes 2 (if hdr.type = 2 then 0 else hdr.client) ++
    beBytes 2 hdr.session ++ [hdr.protocol, hdr.interface, hdr.type, hdr.code]

def bufferLength (freshnessValueLength : ℕ) : uint32 :=
  2 + 8 + (message.hdr.len - 8) + BitVec.ofNat 32 (calcByteNum freshnessValueLength)

/-- `securityPayload4Auth` with everything before the freshness value. -/
def assemble (freshnessValueLength : ℕ) : Option (List uint8) := do
  let buffer := List.replicate (bufferLength message freshnessValueLength).toNat 0
  let buffer ← writeBytes buffer 0 (headerBytes dataId message.hdr)
  writeBytes buffer 10 (message.payload.take (message.hdr.len - 8).toNat)

/-- `DoCryptoAuth`, which takes the length in 16 bits, with the remaining attempts. -/
def doCryptoAuth (attempts : ℕ) (buffer : List uint8)
    (length : uint32) (buildCounter : ℕ) : Option (Option (List uint8)) := do
  let bytes ← segment buffer 0 (length.setWidth 16).toNat
  some (attempt (fun k => host.crypto dataId k bytes) (attempts - buildCounter) buildCounter).1

/-- What the verification hands to its caller. -/
structure Verdict where
  returned : Bool
  shouldDrop : Bool
  authLength : ℕ

/-- The override that is checked first: whether to drop, and the profile afterwards. -/
def SecOCProfile.firstOverride (p : SecOCProfile) : Option (Bool × SecOCProfile) :=
  let counted := { p with
    currentNumberOfMessagesToOverride := p.currentNumberOfMessagesToOverride + 1 }
  let within := p.currentNumberOfMessagesToOverride < p.numberOfMessagesToOverride
  match p.overrideStatus with
  | .kSecOcOverrideDropUntilNotice => some (true, p)
  | .kSecOcOverrideDropUntilLimit => if within then some (true, counted) else none
  | .kSecOcOverrideSkipUntilNotice => some (false, p)
  | .kSecOcOverrideSkipUntilLimit => if within then some (false, counted) else none
  | _ => none

/-- The override that is checked after a mismatch: what to report, and the profile. -/
def SecOCProfile.passOverride (p : SecOCProfile) :
    Option (VerificationStatusResultEnum × SecOCProfile) :=
  match p.overrideStatus with
  | .kSecOcOverridePassUntilNotice => some (.kSecOcVerificationFailureOverwritten, p)
  | .kSecOcOverridePassUntilLimit =>
    if p.currentNumberOfMessagesToOverride < p.numberOfMessagesToOverride then
      some (.kSecOcNoVerification, { p with
        currentNumberOfMessagesToOverride := p.currentNumberOfMessagesToOverride + 1 })
    else none
  | _ => none

def SecOC.setProfile (dataId : uint16) (p : SecOCProfile) : SecOC :=
  { s with profiles := Function.update s.profiles dataId (some p) }

/-- `position` of the received trailer in the buffer. -/
def trailerPosition : uint32 := 10 + (message.hdr.len - 8 - BitVec.ofNat 32 profile.trailer)

/-- The freshness value for the low bits at the front of the trailer. -/
def rxFreshness (fvm : FVM) (authInfo : List uint8) : Option (Option FVContainer × ℕ) := do
  let tx := profile.freshnessValueTxLength.toNat
  let bytes ← copyBitStream2BytePtr authInfo 0 0 tx
  let value ← writeBytes (List.replicate 8 0) 0 bytes
  some (attempt (fun k => (fvm.implGetRxFreshness host.shifts (host.clock k) profile.freshnessId
    ⟨tx, value⟩).toOption) profile.authenticationBuildAttempts.toNat 0)

/-- The success callout, for freshness values of the manager. -/
def SecOC.verified (profile : SecOCProfile) (freshness : FVContainer) : SecOC :=
  if profile.useAuthDataFreshness = false ∧ profile.freshnessValueLength ≠ 0 then
    { s with fvm := s.fvm.implVerificationSuccessCallout profile.freshnessId freshness }
  else s

/-- Calculation and comparison of the authenticator. -/
def verifyMac (buffer authTxValue : List uint8) (freshness : FVContainer) (buildCounter : ℕ) :
    Option (Verdict × SecOC) :=
  let report := s.setVerificationEventSnapshot dataId profile.freshnessId
  if profile.jobSemantic ≠ .kAuthenticate then
    some (⟨false, false, profile.trailer⟩, s)
  else do
    let macOutput ← doCryptoAuth host dataId profile.authenticationBuildAttempts.toNat buffer
      (bufferLength message profile.freshnessValueLength.toNat - BitVec.ofNat 32 profile.trailer)
      buildCounter
    match macOutput with
    | none => some (⟨true, true, profile.trailer⟩, report .kSecOcAuthenticationBuildFailure)
    | some mac =>
      if mac.length * 8 ≠ profile.expectedAuthValueLength.toNat then
        some (⟨false, false, profile.trailer⟩, s)
      else do
        let matched ← memBlockCompare authTxValue mac profile.authInfoTxLength.toNat
        if matched then
          some (⟨true, false, profile.trailer⟩,
            (report .kSecOcVerificationSuccess).verified profile freshness)
        else
          match profile.passOverride with
          | some (status, profile') =>
            some (⟨true, false, profile.trailer⟩, (report status).setProfile dataId profile')
          | none => some (⟨true, true, profile.trailer⟩, report .kSecOcVerificationFailure)

/-- Verification proper, when no override comes first. -/
def verifyTrailer : Option (Verdict × SecOC) := do
  let fv := profile.freshnessValueLength.toNat
  let buffer ← assemble dataId message fv
  let position := (trailerPosition message profile).toNat
  let authInfo := buffer.drop position
  let macStart := newStartPosition4Stream 0 0 profile.freshnessValueTxLength.toNat
  let authTxValue ← copyBitStream2ByteBuffer authInfo macStart.1 macStart.2
    profile.authInfoTxLength.toNat
  if fv = 0 then
    verifyMac host dataId message profile s buffer authTxValue ⟨0, List.replicate 8 0⟩ 0
  else do
    let result ← rxFreshness host profile s.fvm authInfo
    match result.1 with
    | none =>
      some (⟨true, true, profile.trailer⟩,
        s.setVerificationEventSnapshot dataId profile.freshnessId .kSecOcFreshnessFailure)
    | some freshness =>
      if freshness.length ≠ fv then some (⟨false, false, profile.trailer⟩, s)
      else do
        let buffer ← writeBytes buffer position (freshness.value.take (calcByteNum fv))
        verifyMac host dataId message profile s buffer authTxValue freshness result.2

def verifyAuthInfo4SomeIpMsg : Option (Verdict × SecOC) :=
  match s.profiles dataId with
  | none => some (⟨false, false, 0⟩, s)
  | some profile =>
    match profile.firstOverride with
    | some (drop, profile') =>
      some (⟨true, drop, 0⟩, (s.setProfile dataId profile').setVerificationEventSnapshot dataId
        profile.freshnessId .kSecOcNoVerification)
    | none => verifyTrailer host dataId message profile s

/-- `nai_buflist_rcommit_last` on the bytes of the payload; it asserts that they suffice. -/
def rcommitLast (payload : List uint8) (bytes : ℕ) : Option (List uint8) :=
  if bytes ≤ payload.length then some (payload.take (payload.length - bytes)) else none

/-- The value returned, the message and the state afterwards. -/
structure Handled where
  result : ℤ
  message : SomeIpMessage
  state : SecOC

def implSecOCRxHandle : Option Handled := do
  let (verdict, s) ← verifyAuthInfo4SomeIpMsg host dataId message s
  if verdict.returned = false then some ⟨-1, message, s⟩
  else if verdict.shouldDrop then some ⟨-2, message, s⟩
  else do
    let payload ← rcommitLast message.payload verdict.authLength
    some ⟨0, ⟨{ message.hdr with
      len := message.hdr.len - BitVec.ofNat 32 verdict.authLength }, payload⟩, s⟩

/-- The trailer: low bits of the freshness value, then leading bits of the authenticator. -/
def buildTrailer (freshnessValue mac : List uint8) : Option (List uint8) := do
  let tx := profile.freshnessValueTxLength.toNat
  let authInfo := List.replicate profile.trailer 0
  if tx = 0 then
    let bytes ← segment mac 0 profile.trailer
    writeBytes authInfo 0 bytes
  else do
    let fvBitLength := if profile.useAuthDataFreshness then profile.authDataFreshnessLength.toNat
      else profile.freshnessValueLength.toNat
    let fvStart := newStartPosition4Stream 0 0 (fvBitLength - tx)
    let authInfo ← copyBitStream2BitStream freshnessValue fvStart.1 fvStart.2 tx authInfo 0 0
    let macStart := newStartPosition4Stream 0 0 tx
    copyBitStream2BitStream mac 0 0 profile.authInfoTxLength.toNat authInfo macStart.1 macStart.2

/-- The authenticator and the trailer; no trailer is a failure. -/
def generateMac
    (buffer freshnessValue : List uint8) (buildCounter : ℕ) : Option (Option (List uint8)) :=
  if profile.jobSemantic ≠ .kAuthenticate then some none
  else do
    let macOutput ← doCryptoAuth host dataId profile.authenticationBuildAttempts.toNat buffer
      (bufferLength message profile.freshnessValueLength.toNat) buildCounter
    match macOutput with
    | none => some none
    | some mac =>
      if mac.length * 8 ≠ profile.expectedAuthValueLength.toNat then some none
      else (buildTrailer profile freshnessValue mac).map some

def generateAuthInfo4SomeIpMsg : Option (Option (List uint8) × SecOC) :=
  match s.profiles dataId with
  | none => some (none, s)
  | some profile => do
    let fv := profile.freshnessValueLength.toNat
    let buffer ← assemble dataId message fv
    if fv = 0 then
      let authInfo ← generateMac host dataId message profile buffer [] 0
      some (authInfo, s)
    else
      let result := attempt (fun k => (s.fvm.implGetTxFreshness host.shifts (host.clock k)
        profile.freshnessId).toOption) profile.authenticationBuildAttempts.toNat 0
      match result.1 with
      | none => some (none, s)
      | some (freshness, fvm) =>
        if freshness.length ≠ fv then some (none, { s with fvm := fvm })
        else do
          let freshnessValue := freshness.value.take (calcByteNum fv)
          let buffer ← writeBytes buffer (10 + (message.hdr.len - 8)).toNat freshnessValue
          let authInfo ← generateMac host dataId message profile buffer freshnessValue result.2
          some (authInfo, { s with fvm := fvm })

def implSecOCTxHandle : Option Handled := do
  let (authInfo, s) ← generateAuthInfo4SomeIpMsg host dataId message s
  match authInfo with
  | none => some ⟨-1, message, s⟩
  | some authInfo =>
    some ⟨0, ⟨{ message.hdr with len := message.hdr.len + BitVec.ofNat 32 authInfo.length },
      message.payload ++ authInfo⟩, s⟩

end AdaptivePlatform.Secoc
