import Mathlib.Algebra.Order.BigOperators.Group.List
import AdaptivePlatform.Foundations.Runs
import AdaptivePlatform.Idsm.FilterChain

/-!
# Conservation of the event counters by the aggregation

Arrivals and timer ticks come to a filter chain in any order. A ledger beside
the chain notes the events that the aggregation accepts and, for each aggregated
event that is handed to the second half, the events it was made of. The counters
balance as long as no aggregated counter leaves its 16 bits.
-/
namespace AdaptivePlatform.Idsm

open Runs

/-- What comes to a filter chain. -/
inductive ChainInput
  | arrival (fgState : String → String) (clock : Clock) (event : Event)
  | tick (clock : Clock)

namespace FilterChain

variable (clock : Clock) (chain : FilterChain)

def step : ChainInput → FilterChain × List PoolCall
  | .arrival fgState clock event => chain.filter fgState clock event
  | .tick clock => chain.timerhandler clock

/-- The event handed to the second half when the aggregation period is over. -/
def flushed : Option Event :=
  chain.aggreFilter.bind fun f =>
    if (f.isArrivedTime clock.isArrivedTime).1 then f.aggEvent else none

/-- The aggregated event that an input hands to the second half. -/
def hands : ChainInput → Option Event
  | .arrival fgState clock _ =>
    if (filterBefore fgState chain.beforeFilter).1 then chain.flushed clock else none
  | .tick clock => chain.flushed clock

/-- The event that the aggregation filter accepts. -/
def accepts : ChainInput → Option Event
  | .arrival fgState _ event =>
    if (filterBefore fgState chain.beforeFilter).1 ∧ chain.aggreFilter.isSome then some event
    else none
  | .tick _ => none

end FilterChain

/-- The sum of the counters of some events. -/
def total (events : List Event) : ℕ := (events.map (·.counter.toNat)).sum

@[simp] theorem total_nil : total [] = 0 := rfl

@[simp] theorem total_cons (event : Event) (events : List Event) :
    total (event :: events) = event.counter.toNat + total events := by
  simp [total]

@[simp] theorem total_append (xs ys : List Event) : total (xs ++ ys) = total xs + total ys := by
  simp [total]

theorem counter_le_total {event : Event} {events : List Event} (h : event ∈ events) :
    event.counter.toNat ≤ total events :=
  List.single_le_sum (fun _ _ => Nat.zero_le _) _ (List.mem_map_of_mem h)

theorem total_toList_lt (event : Option Event) : total event.toList < 2 ^ 16 := by
  cases event with
  | none => simp
  | some event => simpa using event.counter.isLt

section

variable (chain : FilterChain)

namespace AggregationFilter

theorem toNat_addCounter (aggEvent event : Event) :
    (addCounter aggEvent event).toNat =
      (aggEvent.counter.toNat + event.counter.toNat) % 2 ^ 16 := by
  simp only [addCounter, BitVec.toNat_setWidth, BitVec.toNat_add]
  omega

theorem accumulate_counter (dataSource : ContextDataSource) (aggEvent event : Event) :
    (accumulate dataSource aggEvent event).1.counter = addCounter aggEvent event := by
  unfold accumulate
  split
  · rfl
  · cases dataSource with
    | unknown | useLastContextData => rfl
    | useFirstContextData => dsimp only; split <;> rfl

theorem filter_counter (now : ℤ) (f : AggregationFilter) (event : Event) :
    total (f.filter now event).1.aggEvent.toList =
      (total f.aggEvent.toList + event.counter.toNat) % 2 ^ 16 := by
  unfold filter
  simp only [startPeriod_aggEvent]
  cases f.aggEvent with
  | none => simp [Nat.mod_eq_of_lt event.counter.isLt]
  | some aggEvent => simp [accumulate_counter, toNat_addCounter]

end AggregationFilter

namespace FilterChain

def heldCounter : ℕ := total chain.held.toList

/-- What is left of it when the input has ended the period or not. -/
def keptCounter (input : ChainInput) : ℕ :=
  if (chain.hands input).isSome then 0 else chain.heldCounter

theorem total_endPeriod {f : AggregationFilter} (h : chain.aggreFilter = some f) (clock : Clock) :
    total (f.endPeriod clock chain.afterFilter).1.aggEvent.toList =
      if (chain.flushed clock).isSome then 0 else chain.heldCounter := by
  rw [AggregationFilter.endPeriod_aggEvent]
  simp only [flushed, heldCounter, held, h, Option.bind_some]
  cases (f.isArrivedTime clock.isArrivedTime).1 <;> cases f.aggEvent <;> simp

variable {aggEvent : Event} (input : ChainInput)

theorem flushed_eq_some {clock : Clock} (h : chain.flushed clock = some aggEvent) :
    chain.held = some aggEvent := by
  obtain ⟨f, hf, hevent⟩ := Option.bind_eq_some_iff.mp h
  split at hevent
  · simp [held, hf, hevent]
  · contradiction

theorem hands_eq_some {input : ChainInput} (h : chain.hands input = some aggEvent) :
    chain.held = some aggEvent := by
  cases input with
  | arrival fgState clock event =>
    have hif : (if (filterBefore fgState chain.beforeFilter).1 then chain.flushed clock
      else none) = some aggEvent := h
    by_cases hpassed : (filterBefore fgState chain.beforeFilter).1 = true
    · exact chain.flushed_eq_some (by simpa [hpassed] using hif)
    · simp [hpassed] at hif
  | tick clock => exact chain.flushed_eq_some h

theorem heldCounter_lt : chain.heldCounter < 2 ^ 16 := total_toList_lt _

/-- The one equation about the counter that every input obeys. -/
theorem heldCounter_step :
    (chain.step input).1.heldCounter =
      (chain.keptCounter input + total (chain.accepts input).toList) % 2 ^ 16 := by
  have hlt := chain.heldCounter_lt
  cases input with
  | arrival fgState clock event =>
    cases hpassed : (filterBefore fgState chain.beforeFilter).1 with
    | false =>
      simp only [step, filter_of_blocked hpassed, keptCounter, hands, accepts, hpassed]
      simpa [heldCounter, held] using (Nat.mod_eq_of_lt hlt).symm
    | true =>
      cases hagg : chain.aggreFilter with
      | none =>
        simp [step, filter_of_not_aggregated hpassed hagg, keptCounter, accepts, heldCounter, held,
          hagg]
      | some f =>
        have hend := chain.total_endPeriod hagg clock
        have hfilter := AggregationFilter.filter_counter clock.aggregation
          (f.endPeriod clock chain.afterFilter).1 event
        rw [hend] at hfilter
        simpa [step, filter_of_aggregated hpassed hagg, keptCounter, hands, accepts, heldCounter,
          held, hpassed, hagg] using hfilter
  | tick clock =>
    cases hagg : chain.aggreFilter with
    | none => simp [step, timerhandler, keptCounter, accepts, heldCounter, held, hagg]
    | some f =>
      have hend := chain.total_endPeriod hagg clock
      have hkept : chain.keptCounter (.tick clock) < 2 ^ 16 := by
        unfold keptCounter; split <;> omega
      have hheld : (chain.step (.tick clock)).1.heldCounter = chain.keptCounter (.tick clock) := by
        simpa [step, timerhandler, keptCounter, hands, heldCounter, held, hagg] using hend
      simpa [hheld, accepts] using (Nat.mod_eq_of_lt hkept).symm

/-- An event that joins one being aggregated fits into its 16-bit counter. -/
def Fits : ChainInput → Prop
  | .arrival fgState clock event =>
    (filterBefore fgState chain.beforeFilter).1 →
      ∀ f, chain.aggreFilter = some f → (f.isArrivedTime clock.isArrivedTime).1 = false →
        ∀ aggEvent, f.aggEvent = some aggEvent →
          aggEvent.counter.toNat + event.counter.toNat < 2 ^ 16
  | .tick _ => True

theorem fits_iff :
    chain.Fits input ↔ chain.keptCounter input + total (chain.accepts input).toList < 2 ^ 16 := by
  have hlt := chain.heldCounter_lt
  cases input with
  | tick clock =>
    refine ⟨fun _ => ?_, fun _ => trivial⟩
    simp only [accepts, Option.toList_none, total_nil, keptCounter]
    split <;> omega
  | arrival fgState clock event =>
    have he := event.counter.isLt
    simp only [Fits, keptCounter, hands, accepts, flushed]
    by_cases hpassed : (filterBefore fgState chain.beforeFilter).1 = true
    · obtain hagg | ⟨f, hagg⟩ := Option.eq_none_or_eq_some chain.aggreFilter
      · simpa [hagg] using hlt
      · cases hheld : f.aggEvent <;>
          by_cases harrived : (f.isArrivedTime clock.isArrivedTime).1 = true <;>
          simp_all [heldCounter, held]
    · simpa [hpassed] using hlt

end FilterChain

end

/-- A filter chain and what went through its aggregation. -/
structure Ledger where
  chain : FilterChain
  /-- The events the aggregation has accepted. -/
  accepted : List Event := []
  /-- The events accepted since the last aggregated event was handed on. -/
  period : List Event := []
  /-- The aggregated events handed on, each with the events it was made of. -/
  handed : List (Event × List Event) := []

namespace Ledger

def step (l : Ledger) (input : ChainInput) : Option Ledger :=
  some
    { chain := (l.chain.step input).1
      accepted := l.accepted ++ (l.chain.accepts input).toList
      period :=
        (if (l.chain.hands input).isSome then [] else l.period) ++ (l.chain.accepts input).toList
      handed := l.handed ++ (l.chain.hands input).toList.map (·, l.period) }

/-- No count is lost or invented, and no aggregated counter is smaller than one
of the counters it was made of. -/
structure Conserved (l : Ledger) : Prop where
  balance : total (l.handed.map (·.1)) + l.chain.heldCounter = total l.accepted
  handed_ge : ∀ p ∈ l.handed, ∀ event ∈ p.2, event.counter.toNat ≤ p.1.counter.toNat
  held_ge : ∀ aggEvent, l.chain.held = some aggEvent →
    ∀ event ∈ l.period, event.counter.toNat ≤ aggEvent.counter.toNat

/-- Every aggregated counter is the sum of what it was made of. -/
structure Exact (l : Ledger) : Prop where
  accepted : total l.accepted = total (l.handed.map (·.1)) + total l.period
  handed : ∀ p ∈ l.handed, p.1.counter.toNat = total p.2
  held : l.chain.heldCounter = total l.period

theorem Exact.conserved {l : Ledger} (h : l.Exact) : l.Conserved where
  balance := by rw [h.accepted, h.held]
  handed_ge p hp event hevent := by
    rw [h.handed p hp]
    exact counter_le_total hevent
  held_ge aggEvent hagg event hevent := by
    have hheld : l.chain.heldCounter = aggEvent.counter.toNat := by
      simp [FilterChain.heldCounter, hagg]
    rw [← hheld, h.held]
    exact counter_le_total hevent

variable {l : Ledger} {input : ChainInput}

theorem Exact.step (h : l.Exact) (hfits : l.chain.Fits input) :
    ∃ l', l.step input = some l' ∧ l'.Exact := by
  have hlt := (l.chain.fits_iff input).mp hfits
  refine ⟨_, rfl, ?_, ?_, ?_⟩
  · cases hhands : l.chain.hands input with
    | none => simp [h.accepted, add_assoc]
    | some aggEvent =>
      have hflushed := l.chain.hands_eq_some hhands
      simp [h.accepted, ← h.held, FilterChain.heldCounter, hflushed]
  · intro p hp
    rcases List.mem_append.mp hp with hp | hp
    · exact h.handed p hp
    · obtain ⟨aggEvent, haggEvent, rfl⟩ := List.mem_map.mp hp
      have hflushed := l.chain.hands_eq_some (Option.mem_toList.mp haggEvent)
      simp [← h.held, FilterChain.heldCounter, hflushed]
  · rw [l.chain.heldCounter_step input, Nat.mod_eq_of_lt hlt, FilterChain.keptCounter, h.held]
    split <;> simp

/-- The other direction: once a counter has left its 16 bits, the sums differ. -/
theorem Exact.fits_of_conserved {l' : Ledger} (h : l.Exact) (hstep : l.step input = some l')
    (hconserved : l'.Conserved) : l.chain.Fits input := by
  cases hstep
  have hbalance := hconserved.balance
  simp only [l.chain.heldCounter_step input, total_append, h.accepted] at hbalance
  have hlt := Nat.mod_lt (l.chain.keptCounter input + total (l.chain.accepts input).toList)
    (Nat.two_pow_pos 16)
  rw [l.chain.fits_iff input]
  cases hhands : l.chain.hands input with
  | none =>
    simp only [FilterChain.keptCounter, hhands, h.held] at hbalance hlt ⊢
    simp at hbalance hlt ⊢
    omega
  | some aggEvent =>
    have haccepts := total_toList_lt (l.chain.accepts input)
    simpa [FilterChain.keptCounter, hhands] using haccepts

end Ledger

variable (beforeFilter : List FilterBase) (timeInterval : ℤ) (dataSource : ContextDataSource)
  (afterFilter : List ThresholdFilter)

def Ledger.create : Ledger where
  chain :=
    { beforeFilter := beforeFilter
      aggreFilter := some { timeInterval := timeInterval, dataSource := dataSource }
      afterFilter := afterFilter }

theorem Ledger.exact_create : (create beforeFilter timeInterval dataSource afterFilter).Exact :=
  ⟨rfl, List.forall_mem_nil _, rfl⟩

/-- In every interleaving of arrivals and timer ticks, the counters balance after
each input precisely when no arrival takes the counter of the event being
aggregated out of its 16 bits. -/
theorem aggregation_conserves_iff (beforeFilter : List FilterBase) (timeInterval : ℤ)
    (dataSource : ContextDataSource) (afterFilter : List ThresholdFilter)
    (inputs : List ChainInput) :
    Always Ledger.step Ledger.Conserved
        (Ledger.create beforeFilter timeInterval dataSource afterFilter) inputs ↔
      Along Ledger.step (fun l input => l.chain.Fits input)
        (Ledger.create beforeFilter timeInterval dataSource afterFilter) inputs :=
  always_iff_along_of_strengthening (fun _ => Ledger.Exact.conserved)
    (fun _ _ h hfits => h.step hfits) (fun _ _ _ h => h.fits_of_conserved)
    (Ledger.exact_create beforeFilter timeInterval dataSource afterFilter)

/-- The event with count 1 takes the counter 65535 back to 0. -/
theorem aggregation_wraps :
    let clock : Clock := ⟨1, 1, 1⟩
    let sev (counter : uint16) : ChainInput :=
      .arrival (fun _ => "") clock { eventId := 0x8001, counter := counter }
    ¬ Always Ledger.step Ledger.Conserved (Ledger.create [] 1024 .useFirstContextData [])
      [sev 65535, sev 1] := by
  rintro clock sev ⟨_, l, hl, _, l', hl', hconserved⟩
  cases hl
  cases hl'
  cases hconserved.balance

end AdaptivePlatform.Idsm
