import AdaptivePlatform.Foundations.Bytes

/-!
# Responses and their confirmation

A service answers a request through its request context. The context decides
whether the answer is sent at all, hands it to the channel, and calls the
service back with what became of it before `Respond` returns.
-/
namespace AdaptivePlatform.Diag

inductive NrcErrc
  | subfunctionNotSupported
  | incorrectMessageLengthOrInvalidFormat
  | requestSequenceError
  | requestOutOfRange
  | securityAccessDenied
  | invalidKey
  | exceedNumberOfAttempts
  | requiredTimeDelayNotExpired
  | wrongBlockSequenceCounter
  | other (code : uint8)
  deriving DecidableEq, Repr

inductive Response
  | positive (body : List uint8)
  | negative (nrc : NrcErrc)

inductive ResponseStatusType
  | resPosOk
  | resPosNotOk
  | resNegOk
  | resNegNotOk
  | resPosSuppressed
  | resNegSuppressed
  | canceled
  deriving DecidableEq, Repr

/-- What a response meets on its way out: whether the request was cancelled, whether a negative
response code of this kind is suppressed, whether a pending response was sent before, and whether
the channel sends it. -/
structure Transmission where
  isCancelled : Bool := false
  suppressNegative : Bool := false
  isPending : Bool := false
  sent : Bool := true

namespace Transmission

/-- The services whose positive response can be suppressed. The array has a place more than it
has initialisers; that one is 0. -/
def supportSubfunctionSidTable : List uint8 :=
  [0x10, 0x11, 0x19, 0x28, 0x2C, 0x3E, 0x38, 0x85, 0x86, 0]

variable (t : Transmission) (sid subfunction : uint8)

/-- `_suppressPositive` for the first two bytes of the request -/
def suppressPositive : Bool :=
  supportSubfunctionSidTable.contains sid && subfunction.getLsbD 7 && !t.isPending

/-- The status with which `Respond` confirms a response. -/
def respond (response : Response) : ResponseStatusType :=
  if t.isCancelled then .canceled
  else
    match response with
    | .negative _ =>
      if t.suppressNegative then .resNegSuppressed
      else if t.sent then .resNegOk else .resNegNotOk
    | .positive _ =>
      if t.suppressPositive sid subfunction then .resPosSuppressed
      else if t.sent then .resPosOk else .resPosNotOk

/-- A negative response reaches the channel and is sent. -/
def sendsNegative : Bool := !t.isCancelled && !t.suppressNegative && t.sent

variable (nrc : NrcErrc)

theorem respond_negative_eq_resNegOk :
    t.respond sid subfunction (.negative nrc) = .resNegOk ↔ t.sendsNegative = true := by
  obtain ⟨isCancelled, suppressNegative, isPending, sent⟩ := t
  cases isCancelled <;> cases suppressNegative <;> cases sent <;> simp [respond, sendsNegative]

theorem respond_negative_ne_resPosOk : t.respond sid subfunction (.negative nrc) ≠ .resPosOk := by
  unfold respond
  split_ifs <;> simp

end Transmission

/-! ## Validators

What may be done is configured with sessions, security levels and roles. A
validator compares one of these with the state the server is in.
-/

/-- The state of the server and of the client of a request as the validations see it. -/
structure AccessContext where
  session : uint8
  securityLevel : uint8
  isAuthenticated : List String → Bool
  manufacturerServiceValidate : Bool := true
  supplierServiceValidate : Bool := true

inductive Validator
  | auth (authRoleList : List String)
  | session (accessPermissionTable : List uint8)
  | securityLevel (accessPermissionTable : List uint8)
  deriving DecidableEq, Repr

/-- `Validate`: one of the sessions, or of the security levels, is the current one; without a
security level there is nothing to check. -/
def Validator.validate (ctx : AccessContext) : Validator → Bool
  | .auth authRoleList => ctx.isAuthenticated authRoleList
  | .session table => table.any (· = ctx.session)
  | .securityLevel table => table.isEmpty || table.any (· = ctx.securityLevel)

end AdaptivePlatform.Diag
