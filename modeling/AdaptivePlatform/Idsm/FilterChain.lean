import AdaptivePlatform.Idsm.IdsProto

/-!
# The filter chain of the IDS manager

A reported event passes the filters of the first half, is aggregated with
further events until the aggregation period ends, and then passes the filters of
the second half. What the chain does to the event pool and to the count of the
memory in use is a list of calls, in the order of the source; another thread may
come between two of them.

Each filter reads the clock for itself. The readings that one entry into the
chain takes are given with it.
-/
namespace AdaptivePlatform.Idsm

def eventMemSize : uint32 := 16#32

def Event.contextDataSize (event : Event) : uint64 := BitVec.ofNat 64 event.contextData.length

/-- The calls to `EventMemPool` and to `EventPool`. -/
inductive PoolCall
  | allocMem (eventMem : uint32) (contextMem : uint64)
  | releaseMem (eventMem : uint32) (contextMem : uint64)
  | push (event : Event)

structure StateFilter where
  fgStateMap : List (String × List String)

/-- A function group without a known state blocks nothing. -/
def StateFilter.filter (f : StateFilter) (fgState : String → String) : Bool :=
  f.fgStateMap.all fun (fgName, states) => fgState fgName = "" ∨ fgState fgName ∉ states

structure SampleFilter where
  circleNum : uint32 := 1
  eventSum : uint32 := 0

def SampleFilter.filter (f : SampleFilter) : Bool × SampleFilter :=
  if f.circleNum = 0 then (false, f)
  else
    let eventSum := if f.eventSum = f.circleNum then 0 else f.eventSum
    (eventSum = 0, { f with eventSum := eventSum + 1 })

/-- The filters that the configuration puts before the aggregation. -/
inductive FilterBase
  | state (f : StateFilter)
  | sample (f : SampleFilter)

def FilterBase.filter (fgState : String → String) : FilterBase → Bool × FilterBase
  | .state f => (f.filter fgState, .state f)
  | .sample f => (f.filter.1, .sample f.filter.2)

/-- The loop over `beforeFilter_`: the filters behind one that blocks are not asked. -/
def filterBefore (fgState : String → String) : List FilterBase → Bool × List FilterBase
  | [] => (true, [])
  | f :: fs =>
    match f.filter fgState with
    | (false, f) => (false, f :: fs)
    | (true, f) => ((filterBefore fgState fs).1, f :: (filterBefore fgState fs).2)

/-- `configMap_` has the value 0 for a name it does not know. -/
inductive ContextDataSource
  | unknown
  | useFirstContextData
  | useLastContextData

structure AggregationFilter where
  timeInterval : ℤ := 1024
  startTimestamp : ℤ := 0
  dataSource : ContextDataSource := .useFirstContextData
  aggEvent : Option Event := none

namespace AggregationFilter

def adjustCtxMem (oldMem newMem : uint64) : List PoolCall :=
  if oldMem = newMem then []
  else if oldMem < newMem then [.allocMem 0 (newMem - oldMem)]
  else [.releaseMem 0 (oldMem - newMem)]

/-- The sum is computed with 32 bits and stored with 16. -/
def addCounter (aggEvent event : Event) : uint16 :=
  (event.counter.setWidth 32 + aggEvent.counter.setWidth 32 : uint32).setWidth 16

/-- What a further event of the period does to the aggregated one. -/
def accumulate (dataSource : ContextDataSource) (aggEvent event : Event) : Event × List PoolCall :=
  let counted := { aggEvent with counter := addCounter aggEvent event }
  if event.contextData = [] then (counted, [])
  else
    match dataSource with
    | .useFirstContextData =>
      if aggEvent.contextData = [] then
        ({ counted with contextData := event.contextData }, adjustCtxMem 0 event.contextDataSize)
      else (counted, [])
    | .useLastContextData =>
      ({ counted with contextData := event.contextData },
        adjustCtxMem aggEvent.contextDataSize event.contextDataSize)
    | .unknown => (counted, [])

variable (now : ℤ) (f : AggregationFilter)

/-- The first event after a period begins a new one. -/
def startPeriod : AggregationFilter :=
  if f.startTimestamp = 0 then { f with startTimestamp := now } else f

/-- `Filter`. It always returns `false`. -/
def filter (event : Event) : AggregationFilter × List PoolCall :=
  let f := f.startPeriod now
  match f.aggEvent with
  | none => ({ f with aggEvent := some event }, [.allocMem eventMemSize event.contextDataSize])
  | some aggEvent =>
    ({ f with aggEvent := some (accumulate f.dataSource aggEvent event).1 },
      (accumulate f.dataSource aggEvent event).2)

def getEvent : Option Event × AggregationFilter := (f.aggEvent, { f with aggEvent := none })

def isArrivedTime : Bool × AggregationFilter :=
  if f.startTimestamp = 0 then (false, f)
  else if f.timeInterval ≤ now - f.startTimestamp then (true, { f with startTimestamp := 0 })
  else (false, f)

@[simp] theorem startPeriod_aggEvent : (f.startPeriod now).aggEvent = f.aggEvent := by
  unfold startPeriod
  split <;> rfl

@[simp] theorem isArrivedTime_aggEvent : (f.isArrivedTime now).2.aggEvent = f.aggEvent := by
  unfold isArrivedTime
  split
  · rfl
  · split <;> rfl

end AggregationFilter

structure ThresholdFilter where
  counterSum : uint64 := 0
  thresholdNum : uint64 := 65536
  startTimestamp : ℤ := 0
  timeInterval : ℤ := 1024

def ThresholdFilter.filter (now : ℤ) (f : ThresholdFilter) (event : Event) :
    Bool × ThresholdFilter :=
  let f := if f.startTimestamp = 0 then { f with startTimestamp := now } else f
  let f :=
    if f.timeInterval ≤ now - f.startTimestamp then
      { f with startTimestamp := now, counterSum := 0 }
    else f
  let counterSum := f.counterSum + event.counter.setWidth 64
  (f.thresholdNum ≤ counterSum, { f with counterSum := counterSum })

/-- The loop over `afterFilter_`. -/
def filterAfter (now : ℤ) (event : Event) : List ThresholdFilter → Bool × List ThresholdFilter
  | [] => (true, [])
  | f :: fs =>
    match f.filter now event with
    | (false, f) => (false, f :: fs)
    | (true, f) => ((filterAfter now event fs).1, f :: (filterAfter now event fs).2)

/-- `_filterSecondHalf`. The null pointer is only logged. -/
def filterSecondHalf (now : ℤ) (afterFilter : List ThresholdFilter) (event : Option Event)
    (isAgg : Bool) : List ThresholdFilter × List PoolCall :=
  match event with
  | none => (afterFilter, [])
  | some event =>
    let (passed, afterFilter) := filterAfter now event afterFilter
    if passed = false then
      (afterFilter, if isAgg then [.releaseMem eventMemSize event.contextDataSize] else [])
    else
      (afterFilter,
        [.push event] ++ if isAgg then [] else [.allocMem eventMemSize event.contextDataSize])

/-- The readings of the clock, in seconds, during one entry into the chain. -/
structure Clock where
  isArrivedTime : ℤ
  aggregation : ℤ
  threshold : ℤ

variable (clock : Clock) (f : AggregationFilter) (afterFilter : List ThresholdFilter)

/-- Hands on the aggregated event if the period has ended. `Filter` and
`Timerhandler` of the chain have this in common. -/
def AggregationFilter.endPeriod : AggregationFilter × List ThresholdFilter × List PoolCall :=
  let (arrived, f) := f.isArrivedTime clock.isArrivedTime
  if arrived then
    let (event, f) := f.getEvent
    (f, filterSecondHalf clock.threshold afterFilter event true)
  else (f, afterFilter, [])

theorem AggregationFilter.endPeriod_aggEvent : (f.endPeriod clock afterFilter).1.aggEvent =
      if (f.isArrivedTime clock.isArrivedTime).1 then none else f.aggEvent := by
  unfold endPeriod
  dsimp only
  split
  · rfl
  · exact isArrivedTime_aggEvent _ _

structure FilterChain where
  beforeFilter : List FilterBase := []
  aggreFilter : Option AggregationFilter := none
  afterFilter : List ThresholdFilter := []

namespace FilterChain

def held (chain : FilterChain) : Option Event := chain.aggreFilter.bind (·.aggEvent)

def filter (fgState : String → String) (clock : Clock) (chain : FilterChain) (event : Event) :
    FilterChain × List PoolCall :=
  let (passed, beforeFilter) := filterBefore fgState chain.beforeFilter
  let chain := { chain with beforeFilter := beforeFilter }
  if passed = false then (chain, [])
  else
    match chain.aggreFilter with
    | none =>
      let (afterFilter, calls) :=
        filterSecondHalf clock.threshold chain.afterFilter (some event) false
      ({ chain with afterFilter := afterFilter }, calls)
    | some f =>
      let (f, afterFilter, calls) := f.endPeriod clock chain.afterFilter
      let (f, further) := f.filter clock.aggregation event
      ({ chain with aggreFilter := some f, afterFilter := afterFilter }, calls ++ further)

section

variable {fgState : String → String} {clock : Clock} {chain : FilterChain} {event : Event}

theorem filter_of_blocked (h : (filterBefore fgState chain.beforeFilter).1 = false) :
    chain.filter fgState clock event =
      ({ chain with beforeFilter := (filterBefore fgState chain.beforeFilter).2 }, []) := by
  simp [filter, h]

theorem filter_of_not_aggregated (h : (filterBefore fgState chain.beforeFilter).1 = true)
    (hagg : chain.aggreFilter = none) :
    chain.filter fgState clock event =
      ({ chain with
          beforeFilter := (filterBefore fgState chain.beforeFilter).2
          afterFilter :=
            (filterSecondHalf clock.threshold chain.afterFilter (some event) false).1 },
        (filterSecondHalf clock.threshold chain.afterFilter (some event) false).2) := by
  simp [filter, h, hagg]

theorem filter_of_aggregated (h : (filterBefore fgState chain.beforeFilter).1 = true)
    {f : AggregationFilter} (hagg : chain.aggreFilter = some f) :
    chain.filter fgState clock event =
      ({ beforeFilter := (filterBefore fgState chain.beforeFilter).2
         aggreFilter :=
          some ((f.endPeriod clock chain.afterFilter).1.filter clock.aggregation event).1
         afterFilter := (f.endPeriod clock chain.afterFilter).2.1 },
        (f.endPeriod clock chain.afterFilter).2.2 ++
          ((f.endPeriod clock chain.afterFilter).1.filter clock.aggregation event).2) := by
  simp [filter, h, hagg]

end

def timerhandler (clock : Clock) (chain : FilterChain) : FilterChain × List PoolCall :=
  match chain.aggreFilter with
  | none => (chain, [])
  | some f =>
    let (f, afterFilter, calls) := f.endPeriod clock chain.afterFilter
    ({ chain with aggreFilter := some f, afterFilter := afterFilter }, calls)

end FilterChain

end AdaptivePlatform.Idsm
