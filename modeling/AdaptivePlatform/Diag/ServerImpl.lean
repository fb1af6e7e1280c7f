import Std.Data.TreeMap
import AdaptivePlatform.Foundations.Bytes

/-!
# Active requests

A request of a client is first indicated to the server, which may decline it,
and then handed over. It waits in a queue until a thread of the pool enters it
into the table of active request contexts and processes it; afterwards it is
removed from the table. In the default session the table is to have at most
`maxParallelRequests` entries, and `_prioritize` decides what happens if it is
full. A smaller number is a higher priority.
-/
namespace AdaptivePlatform.Diag

inductive RequestContextState
  | request
  | response
  | confirm
  | canceled
  | end
  deriving DecidableEq, Repr

/-- The current session and the client it belongs to. The default session belongs to no client. -/
structure SessionOwner where
  currentSessionId : uint8 := 1
  client : uint16 := 0
  client_of_default : currentSessionId = 1 → client = 0 := by decide

def SessionOwner.set (id : uint8) (client : uint16) : SessionOwner where
  currentSessionId := id
  client := if id = 1 then 0 else client
  client_of_default h := if_pos h

/-- A request context by its client and its priority. -/
structure QueuedRequest where
  client : uint16
  priority : uint8
  deriving DecidableEq, Repr

/-- The part of the server that admits requests. `requestContextTable` has the priority of the
active request of each client; `cancelled` is the history of the clients whose active request was
cancelled, the latest first. -/
structure ServerImpl where
  maxParallelRequests : uint32
  session : SessionOwner := {}
  nonDefaultPriority : uint8 := 0
  requestContextTable : Std.TreeMap uint16 uint8 := ∅
  waitQueue : List QueuedRequest := []
  clientRequestContextStateTable : uint16 → Option RequestContextState := fun _ => none
  cancelled : List uint16 := []

namespace ServerImpl

variable (s : ServerImpl)

def isNonDefaultSession : Bool := s.session.currentSessionId ≠ 1

variable (id : uint8) (client : uint16)

def updateRequestContextStateTable (state : RequestContextState) : ServerImpl :=
  { s with
    clientRequestContextStateTable :=
      Function.update s.clientRequestContextStateTable client (some state) }

def isRequestState : Bool := s.clientRequestContextStateTable client = some .request

/-- `Cancelled` of the active request context of a client -/
def cancelRequestContext : ServerImpl :=
  { s.updateRequestContextStateTable client .canceled with cancelled := client :: s.cancelled }

/-- `SetSession` with the notification `_updateNonDefaultPriority` -/
def setSession : ServerImpl :=
  { s with
    session := .set id client
    nonDefaultPriority :=
      if id = 1 then 255
      else (s.requestContextTable[(SessionOwner.set id client).client]?).getD s.nonDefaultPriority }

def resetDefaultSession : ServerImpl := s.setSession 1 0

/-- The loop of `_prioritize`: `lowestPrioritizeClientAddress` and, if it was set, the client of
`lowestRequestContext`. The priority that is compared with does not change in the loop. -/
def lowestRequestContext (priority : uint8) : uint16 × Option uint16 :=
  s.requestContextTable.foldl
    (fun lowest client currentPriority =>
      if priority < currentPriority then (client, some client) else lowest) (0, none)

def prioritize (newClient : uint16) (priority : uint8) : Bool × ServerImpl :=
  if newClient = s.session.client then (true, s)
  else if s.isNonDefaultSession then
    if priority < s.nonDefaultPriority then
      (true, if s.requestContextTable.contains s.session.client then
        s.cancelRequestContext s.session.client else s.resetDefaultSession)
    else (false, s)
  else if s.requestContextTable.size = s.maxParallelRequests.toNat then
    if (s.lowestRequestContext priority).1 = 0 then
      (true,
        { (s.lowestRequestContext priority).2.elim s s.cancelRequestContext with
          requestContextTable := s.requestContextTable.erase (s.lowestRequestContext priority).1 })
    else (false, s)
  else (true, s)

/-- `Indicate` for a request that is not answered right away (a tester present request, or any
request while the server is locked or about to reset). -/
def indicate (sa : uint16) (priority : uint8) : Bool × ServerImpl :=
  if s.isRequestState sa then (false, s) else s.prioritize sa priority

def handleMessage (request : QueuedRequest) : ServerImpl :=
  { s with waitQueue := s.waitQueue ++ [request] }

/-- A thread takes the first request of the queue. While another one of the same client is active,
it leaves it there; otherwise it begins to process it. -/
def takeRequest : ServerImpl :=
  match s.waitQueue with
  | [] => s
  | request :: waiting =>
    if s.requestContextTable.contains request.client then s
    else
      { s.updateRequestContextStateTable request.client .request with
        requestContextTable := s.requestContextTable.insert request.client request.priority
        waitQueue := waiting }

/-- A thread has processed a request of the client. -/
def endRequest : ServerImpl :=
  { s.updateRequestContextStateTable client .end with
    requestContextTable := s.requestContextTable.erase client }

inductive Step
  | indicate (sa : uint16) (priority : uint8)
  | handleMessage (request : QueuedRequest)
  | takeRequest
  | notify (client : uint16) (state : RequestContextState)
  | endRequest (client : uint16)
  | setSession (id : uint8) (client : uint16)
  deriving DecidableEq, Repr

/-- The threads of the server interleave in any way; what each does under its lock is one step. -/
def step : Step → Option ServerImpl
  | .indicate sa priority => some (s.indicate sa priority).2
  | .handleMessage request => some (s.handleMessage request)
  | .takeRequest => some s.takeRequest
  | .notify client state => some (s.updateRequestContextStateTable client state)
  | .endRequest client => some (s.endRequest client)
  | .setSession id client => some (s.setSession id client)

end ServerImpl

end AdaptivePlatform.Diag
