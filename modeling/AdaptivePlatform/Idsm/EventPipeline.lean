import AdaptivePlatform.Idsm.FilterChain

/-!
# From the report of a security event to its transmission

`EventProcer` checks a reported event and passes it to a filter chain or, by its
reporting mode, directly to the event pool. `IdsmWriter` takes the events from
the pool, checks the rate and the traffic, encodes and sends them. The server
thread and the writer thread meet at `EventPool` and at `EventMemPool`, whose
methods take a lock each; so the steps of the pipeline are the single calls of
the server thread and the actions of the writer between two sends.
-/
namespace AdaptivePlatform.Idsm

structure EventMemPool where
  eventMemUsed : uint64 := 0
  contextMemUsed : uint64 := 0

namespace EventMemPool

variable (mem : EventMemPool) (eventMem : uint32) (contextMem : uint64)

def allocMem : EventMemPool where
  eventMemUsed := mem.eventMemUsed + eventMem.setWidth 64
  contextMemUsed := mem.contextMemUsed + contextMem

def releaseMem : EventMemPool where
  eventMemUsed := mem.eventMemUsed - eventMem.setWidth 64
  contextMemUsed := mem.contextMemUsed - contextMem

end EventMemPool

inductive ReportingMode
  | off
  | brief
  | detailed
  | briefBypassingFilters
  | detailedBypassingFilters
  | unknown

structure EventProper where
  eventId : uint16
  mode : ReportingMode
  sensorId : uint8

structure ClientEventMsg where
  instanceId : String
  processId : uint32
  counter : uint16
  timestamp : uint64
  timestampSource : TimestampSource
  contextData : List uint8
  /-- The size of a vector of bytes is limited by its difference type. -/
  length_contextData : contextData.length < 2 ^ 63

/-- The events of the IDS manager itself. They are default events with an id. -/
structure InternalEvents where
  eventbufId : uint16
  contextBufId : uint16
  trafficId : uint16
  communicationId : uint16

namespace InternalEvents

variable (sev : InternalEvents)

def eventbufEvent : Event := { eventId := sev.eventbufId }
def contextBufEvent : Event := { eventId := sev.contextBufId }
def trafficEvent : Event := { eventId := sev.trafficId }
def communicationEvent : Event := { eventId := sev.communicationId }

end InternalEvents

inductive IdsmErrorCode
  | success
  | portNotEventErr
  | invalidEventId
  | iamErr
  | eventMemErr
  | contextMemErr
  | eventNotProperErr
  | eventNotFilterChainErr
  | eventMultiFilterChainErr

/-- What the configuration fixes. The events of one mapping share a filter chain;
an event of several mappings has the null pointer in the filter map. -/
structure IdsmConfig (n : ℕ) where
  portMap : String → Option uint16
  filterMap : List (uint16 × Option (Fin n))
  /-- The limits in units of `memLimitUnit`. -/
  eventMem : uint32
  contextMem : uint32
  internalSev : InternalEvents
  timestampFormat : String
  /-- The answer of the identity and access management. -/
  hasIdsmGrant : uint32 → uint16 → Bool
  serializer : IdsmSerialize
  sign : Option (List uint8 → List uint8)

section

variable {n : ℕ} (cfg : IdsmConfig n)

def memLimitUnit : uint32 := 1024 * 1024

def IdsmConfig.eventMemTotal : uint64 := cfg.eventMem.setWidth 64 * memLimitUnit.setWidth 64
def IdsmConfig.contextMemTotal : uint64 := cfg.contextMem.setWidth 64 * memLimitUnit.setWidth 64

variable (mem : EventMemPool) (properMap : uint16 → Option EventProper)

/-- `_memoryCheck`: the error and the internal event that it pushes. -/
def memoryCheck (frameSize : uint32) (contextSize : uint64) : Option (IdsmErrorCode × Event) :=
  if mem.eventMemUsed + frameSize.setWidth 64 > cfg.eventMemTotal then
    some (.eventMemErr, cfg.internalSev.eventbufEvent)
  else if mem.contextMemUsed + contextSize > cfg.contextMemTotal then
    some (.contextMemErr, cfg.internalSev.contextBufEvent)
  else none

/-- `_adjustTimestamp`. `now` is the time of the configured time base. -/
def adjustTimestamp (now : uint64) (msg : ClientEventMsg) : TimestampSource × uint64 :=
  if cfg.timestampFormat = "" then (msg.timestampSource, 0)
  else if msg.timestampSource ≠ .appReport then
    if cfg.timestampFormat = "AUTOSAR" then (.araTsync, now)
    else (msg.timestampSource, msg.timestamp)
  else (msg.timestampSource, msg.timestamp &&& 0x3FFFFFFFFFFFFFFF#64)

def assembleEvent (now : uint64) (proper : EventProper) (msg : ClientEventMsg) : Event where
  eventId := proper.eventId
  sensorId := proper.sensorId
  counter := msg.counter
  timeSource := (adjustTimestamp cfg now msg).1
  timestamp := (adjustTimestamp cfg now msg).2
  contextData := msg.contextData

/-- `ReportingModeProc`. The event goes on to the filters if there is one in the
result. -/
def reportingModeProc (mode : ReportingMode) (event : Event) : Option Event × List PoolCall :=
  let bypass := [.allocMem eventMemSize event.contextDataSize, .push event]
  match mode with
  | .off => (none, [])
  | .brief => (some { event with contextData := [] }, [])
  | .briefBypassingFilters => if event.contextDataSize = 0 then (none, bypass) else (some event, [])
  | .detailedBypassingFilters =>
    if event.contextDataSize ≠ 0 then (none, bypass) else (some event, [])
  | .detailed | .unknown => (some event, [])

/-- What a report reads besides the message. -/
structure Readings where
  fgState : String → String
  now : uint64
  clock : Clock

def getEventMode (eventId : uint16) : ReportingMode :=
  match properMap eventId with
  | none => .unknown
  | some proper => proper.mode

/-- `Process`: the error code, the filter chains and the calls to the pools. -/
def process (chains : Fin n → FilterChain) (readings : Readings) (msg : ClientEventMsg) :
    IdsmErrorCode × (Fin n → FilterChain) × List PoolCall :=
  match cfg.portMap msg.instanceId with
  | none => (.portNotEventErr, chains, [])
  | some eventId =>
    if eventId < 0x8000#16 ∨ 0xFFFF#16 ≤ eventId then (.invalidEventId, chains, [])
    else if cfg.hasIdsmGrant msg.processId eventId = false then (.iamErr, chains, [])
    else
      match memoryCheck cfg mem eventMemSize (BitVec.ofNat 64 msg.contextData.length) with
      | some (code, event) => (code, chains, [.push event])
      | none =>
        match properMap eventId with
        | none => (.eventNotProperErr, chains, [])
        | some proper =>
          let event := assembleEvent cfg readings.now proper msg
          match reportingModeProc (getEventMode properMap event.eventId) event with
          | (none, calls) => (.success, chains, calls)
          | (some event, calls) =>
            match cfg.filterMap.lookup eventId with
            | none => (.eventNotFilterChainErr, chains, calls)
            | some none => (.eventMultiFilterChainErr, chains, calls)
            | some (some i) =>
              let (chain, further) := (chains i).filter readings.fgState readings.clock event
              (.success, Function.update chains i chain, calls ++ further)

/-- `Timerhandler`, the loop over the filter map; `none` is the access through a
null pointer. -/
def timerhandler (clock : uint16 → Clock) :
    List (uint16 × Option (Fin n)) → (Fin n → FilterChain) →
      Option ((Fin n → FilterChain) × List PoolCall)
  | [], chains => some (chains, [])
  | (_, none) :: _, _ => none
  | (eventId, some i) :: rest, chains =>
    let (chain, calls) := (chains i).timerhandler (clock eventId)
    (timerhandler clock rest (Function.update chains i chain)).map
      fun (chains, further) => (chains, calls ++ further)

end

section

/-- `RateChecker` and `TrafficChecker` differ in the width of what they count. -/
structure Limiter (w : ℕ) where
  max : BitVec w
  timeInterval : ℤ
  sum : BitVec w := 0
  lastTimestamp : ℤ := 0
  limitedTimes : uint8 := 0

namespace Limiter

variable {w : ℕ}

def restart (now : ℤ) (l : Limiter w) : Limiter w :=
  let l := if l.lastTimestamp = 0 then { l with lastTimestamp := now } else l
  if l.timeInterval ≤ now - l.lastTimestamp then
    { l with lastTimestamp := now, sum := 0, limitedTimes := 0 }
  else l

/-- `Check`: the result, `limitedCounter` and the checker after the call. -/
def check (now : ℤ) (amount : BitVec w) (l : Limiter w) : Bool × uint8 × Limiter w :=
  let l := l.restart now
  if l.sum + amount ≤ l.max then (true, l.limitedTimes, { l with sum := l.sum + amount })
  else
    (false, l.limitedTimes,
      if l.limitedTimes = 0 then { l with limitedTimes := l.limitedTimes + 1 } else l)

end Limiter

abbrev RateChecker := Limiter 32

def RateChecker.check (now : ℤ) (events : uint32) (l : RateChecker) : Bool × uint8 × RateChecker :=
  Limiter.check now events l

abbrev TrafficChecker := Limiter 64

def TrafficChecker.check (now : ℤ) (bytes : uint64) (l : TrafficChecker) :
    Bool × uint8 × TrafficChecker :=
  Limiter.check now bytes l

variable {n : ℕ} (cfg : IdsmConfig n)

def isInternalEvent (event : Event) : Bool :=
  event.eventId = cfg.internalSev.eventbufId ∨ event.eventId = cfg.internalSev.contextBufId ∨
    event.eventId = cfg.internalSev.trafficId ∨ event.eventId = cfg.internalSev.communicationId

/-- `_serialize`. Encoding takes the context data out of the event. -/
def serialize (event : Event) : Option (List uint8 × Event) :=
  (encode cfg.serializer cfg.sign event).map (·, { event with contextData := [] })

/-- The readings of the clock by the two checkers. -/
structure CheckTimes where
  rate : ℤ
  traffic : ℤ

/-- The first limited event of an interval is replaced by the internal one, the
further ones are dropped. -/
def limited (limitedCounter : uint8) : Option (Option (List uint8 × Event)) :=
  if limitedCounter > 0 then some none
  else (serialize cfg cfg.internalSev.trafficEvent).map some

/-- `_checkAndEncode`: what is to be sent, if anything, and the checkers. The outer
`none` is an access through the null pointer that `Encode` has returned. -/
def checkAndEncode (times : CheckTimes) (rateChecker : RateChecker) (trafChecker : TrafficChecker)
    (event : Event) :
    Option (Option (List uint8 × Event) × RateChecker × TrafficChecker) :=
  if isInternalEvent cfg event then do
    let encoded ← serialize cfg event
    some (some encoded, rateChecker, trafChecker)
  else
    match rateChecker.check times.rate 1#32 with
    | (false, limitedCounter, rateChecker) => do
      let encoded ← limited cfg limitedCounter
      some (encoded, rateChecker, trafChecker)
    | (true, _, rateChecker) => do
      let (message, event) ← serialize cfg event
      match trafChecker.check times.traffic (BitVec.ofNat 64 message.length) with
      | (false, limitedCounter, trafChecker) => do
        let encoded ← limited cfg limitedCounter
        some (encoded, rateChecker, trafChecker)
      | (true, _, trafChecker) => some (some (message, event), rateChecker, trafChecker)

end

/-- A message on its way. Its destructor releases the memory. -/
structure TransData where
  transData : List uint8
  ctxDataSize : uint64 := 0

structure Pipeline (n : ℕ) where
  mem : EventMemPool := {}
  properMap : uint16 → Option EventProper
  chains : Fin n → FilterChain
  /-- The calls that the server thread has still to make. -/
  pending : List PoolCall := []
  /-- `EventPool` -/
  records : List Event := []
  /-- The events that the writer thread has taken from the pool. -/
  events : List Event := []
  /-- The message that the writer thread is sending. -/
  sending : Option TransData := none
  rateChecker : RateChecker
  trafChecker : TrafficChecker

/-- What can happen next. -/
inductive PipelineInput
  /-- A client reports an event. -/
  | report (readings : Readings) (msg : ClientEventMsg)
  /-- The timer of the filter chains runs out. -/
  | timer (clock : uint16 → Clock)
  /-- The reporting mode is changed by diagnostics. -/
  | setEventMode (eventId : uint16) (mode : ReportingMode)
  /-- The server thread makes its next call. -/
  | call
  /-- The writer thread takes the events from the pool. -/
  | get
  /-- The writer thread begins with its next event. -/
  | write (times : CheckTimes)
  /-- A send fails, and the event about it has been sent. -/
  | comErr
  /-- A send succeeds. -/
  | sent

namespace Pipeline

variable {n : ℕ} (cfg : IdsmConfig n) (times : CheckTimes) (s : Pipeline n)

/-- The effect of a call to one of the two pools. -/
def make : PoolCall → Pipeline n
  | .allocMem eventMem contextMem => { s with mem := s.mem.allocMem eventMem contextMem }
  | .releaseMem eventMem contextMem => { s with mem := s.mem.releaseMem eventMem contextMem }
  | .push event => { s with records := s.records ++ [event] }

def setEventMode (eventId : uint16) (mode : ReportingMode) : Pipeline n :=
  { s with
    properMap := Function.update s.properMap eventId
      ((s.properMap eventId).map fun proper => { proper with mode := mode }) }

/-- `_write` up to the first send. -/
def write (event : Event) (rest : List Event) : Option (Pipeline n) := do
  let (encoded, rateChecker, trafChecker) ←
    checkAndEncode cfg times s.rateChecker s.trafChecker event
  some { s with
    events := rest
    sending := encoded.map fun (message, event) => ⟨message, event.contextDataSize⟩
    rateChecker := rateChecker
    trafChecker := trafChecker }

def destroy (data : TransData) : Pipeline n :=
  { s with mem := s.mem.releaseMem eventMemSize data.ctxDataSize }

/-- One step. `none` is a step that cannot happen now or that follows a null
pointer. -/
def step : PipelineInput → Option (Pipeline n)
  | .report readings msg =>
    if s.pending ≠ [] then none
    else
      let (_, chains, calls) := process cfg s.mem s.properMap s.chains readings msg
      some { s with chains := chains, pending := calls }
  | .timer clock =>
    if s.pending ≠ [] then none
    else do
      let (chains, calls) ← timerhandler clock cfg.filterMap s.chains
      some { s with chains := chains, pending := calls }
  | .setEventMode eventId mode => some (s.setEventMode eventId mode)
  | .call =>
    match s.pending with
    | [] => none
    | c :: rest => some { s.make c with pending := rest }
  | .get =>
    if s.events ≠ [] ∨ s.sending.isSome then none
    else some { s with events := s.records, records := [] }
  | .write times =>
    match s.sending, s.events with
    | none, event :: rest => write cfg times s event rest
    | _, _ => none
  | .comErr =>
    match s.sending with
    | none => none
    | some _ => do
      let (message, _) ← serialize cfg cfg.internalSev.communicationEvent
      some (s.destroy { transData := message })
  | .sent =>
    match s.sending with
    | none => none
    | some data => some { s.destroy data with sending := none }

end Pipeline

end AdaptivePlatform.Idsm
