import AdaptivePlatform.Diag.RequestContext

/-!
# Negative responses

While a request is processed its context sends the response 0x78 whenever the timer
expires, until it gives up. A final negative response is withheld from a tester that
has addressed all servers, unless one was told to wait. The code that decides is read
from the response, behind its end.
-/
namespace AdaptivePlatform.Diag

/-- The context of a request whose response is pending. `sent` is what the channel has sent. -/
structure PendingRequest where
  sid : uint8
  isFunctionalAddress : Bool := false
  /-- p4ServerMax is set and equal to p2ServerMax. -/
  forbidsPending : Bool := false
  maxNumberOfResponsePending : uint8 := 0xFF
  numberOfResponsePending : uint8 := 0
  isPending : Bool := false
  isCancelled : Bool := false
  sent : List (List uint8) := []

/-- What happens before the final response; the timers send, and the channel may fail. -/
inductive PendingEvent
  | timeout (sends : Bool)
  | p4Timeout (sends : Bool)
  | cancelled
  deriving DecidableEq, Repr

namespace PendingRequest

variable (c : PendingRequest)

def createResponse (nrc : uint8) : List uint8 := [0x7F, c.sid, nrc]

def respondPending : List uint8 := c.createResponse 0x78

def send (sends : Bool) (response : List uint8) : PendingRequest :=
  if sends then { c with sent := c.sent ++ [response] } else c

/-- kGeneralReject ends the processing. -/
def giveUp (sends : Bool) : PendingRequest :=
  { c.send sends (c.createResponse 0x10) with isCancelled := true }

def timeout (sends : Bool) : PendingRequest :=
  if c.forbidsPending then c
  else if c.maxNumberOfResponsePending = 0xFF then wait c sends
  else if c.maxNumberOfResponsePending = c.numberOfResponsePending then c.giveUp sends
  else wait { c with numberOfResponsePending := c.numberOfResponsePending + 1 } sends
where
  /-- The response 0x78. If it cannot be sent, the request is cancelled. -/
  wait (c : PendingRequest) (sends : Bool) : PendingRequest :=
    if sends then { c.send true c.respondPending with isPending := true }
    else { c with isCancelled := true }

def react : PendingEvent → PendingRequest
  | .timeout sends => c.timeout sends
  | .p4Timeout sends => c.giveUp sends
  | .cancelled => { c with isCancelled := true }

def run (history : List PendingEvent) : PendingRequest := history.foldl react c

/-- The codes that a functionally addressed server keeps to itself: serviceNotSupported,
subfunctionNotSupported, requestOutOfRange, and the two for the active session. -/
def suppressedCodes : List uint8 := [0x11, 0x12, 0x31, 0x7F, 0x7E]

def suppressNegtive (nrc : uint8) : Bool :=
  !c.isPending && c.isFunctionalAddress && suppressedCodes.contains nrc

/-- `Respond` with a negative response: what is handed to the channel. The code is taken from
position 5 of the body; `outside` is the byte that stands there behind a shorter body. -/
def respond (outside : uint8) (body : List uint8) : Option (List uint8) :=
  if c.isCancelled then none
  else if c.suppressNegtive ((body[5]?).getD outside) then none
  else some body

/-- What a negative response of the request meets on its way out. -/
def transmission (outside : uint8) (body : List uint8) (sent : Bool) : Transmission where
  isCancelled := c.isCancelled
  suppressNegative := c.suppressNegtive ((body[5]?).getD outside)
  isPending := c.isPending
  sent := sent

/-- `Respond` confirms a response to the service by what it handed to the channel. -/
theorem respond_transmission (outside : uint8) (body : List uint8) (sent : Bool)
    (subfunction : uint8) (nrc : NrcErrc) :
    (c.transmission outside body sent).respond c.sid subfunction (.negative nrc) =
      if c.isCancelled then .canceled
      else
        match c.respond outside body with
        | none => .resNegSuppressed
        | some _ => if sent then .resNegOk else .resNegNotOk := by
  cases hcancelled : c.isCancelled with
  | true => simp [Transmission.respond, transmission, hcancelled]
  | false =>
    cases hsuppress : c.suppressNegtive ((body[5]?).getD outside) with
    | true => simp [Transmission.respond, transmission, respond, hcancelled, hsuppress]
    | false => simp [Transmission.respond, transmission, respond, hcancelled, hsuppress]

/-- The response is one that is to be withheld. -/
def toWithhold (nrc : uint8) : Bool :=
  c.isFunctionalAddress && !c.sent.contains c.respondPending && suppressedCodes.contains nrc

/-- The flag says whether the response 0x78 was sent. -/
def Flagged : Prop := c.isPending = c.sent.contains c.respondPending

variable {c}

theorem Flagged.giveUp (h : c.Flagged) (sends : Bool) : (c.giveUp sends).Flagged := by
  cases sends with
  | false => exact h
  | true => simpa [Flagged, PendingRequest.giveUp, send, respondPending, createResponse] using h

theorem Flagged.wait (h : c.Flagged) (sends : Bool) : (timeout.wait c sends).Flagged := by
  cases sends with
  | false => exact h
  | true => simp [Flagged, timeout.wait, send, respondPending, createResponse]

theorem Flagged.react (h : c.Flagged) (event : PendingEvent) : (c.react event).Flagged := by
  cases event with
  | timeout sends =>
    simp only [PendingRequest.react, PendingRequest.timeout]
    split_ifs
    · exact h
    · exact h.wait sends
    · exact h.giveUp sends
    · refine Flagged.wait ?_ sends
      exact h
  | p4Timeout sends => exact h.giveUp sends
  | cancelled => exact h

theorem Flagged.run (h : c.Flagged) (history : List PendingEvent) : (c.run history).Flagged :=
  List.foldlRecOn history _ h fun _ h event _ => h.react event

end PendingRequest

/-- In every history of a request: its negative response is withheld when it should be, and only
then, precisely if a cancelled request has one to withhold, and the byte behind the response is
the code of one to withhold just if its own code is. -/
theorem withheld_iff (sid : uint8) (isFunctionalAddress forbidsPending : Bool)
    (maxNumberOfResponsePending : uint8) (history : List PendingEvent) (nrc outside : uint8) :
    let c := PendingRequest.run
      { sid, isFunctionalAddress, forbidsPending, maxNumberOfResponsePending } history
    (c.respond outside (c.createResponse nrc) =
        if c.toWithhold nrc then none else some (c.createResponse nrc)) ↔
      if c.isCancelled then c.toWithhold nrc = true
      else c.toWithhold outside = c.toWithhold nrc := by
  intro c
  have hflag : c.Flagged := by
    apply PendingRequest.Flagged.run
    rfl
  have hsuppress : c.suppressNegtive outside = c.toWithhold outside := by
    rw [PendingRequest.suppressNegtive, hflag, PendingRequest.toWithhold, Bool.and_comm !_]
  have houtside : ((c.createResponse nrc)[5]?).getD outside = outside := rfl
  rw [PendingRequest.respond, houtside, hsuppress]
  cases c.isCancelled <;> cases c.toWithhold outside <;> cases c.toWithhold nrc <;> simp

/-- A functionally addressed request for a service that is forbidden for security reasons (0x33);
behind the response stands 0x11. -/
theorem forbidden_code_withheld :
    let c : PendingRequest := { sid := 0x22, isFunctionalAddress := true }
    c.toWithhold 0x33 = false ∧ c.respond 0x11 (c.createResponse 0x33) = none := by
  decide

end AdaptivePlatform.Diag
