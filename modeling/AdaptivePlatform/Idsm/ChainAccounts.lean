import AdaptivePlatform.Idsm.EventPipeline

/-!
# The accounts of the memory pool and what a filter chain does to them

`EventMemPool` keeps two accounts, one of event frames and one of context data.
Both are treated alike: an event has a size in each account, and the calls that
a filter chain makes balance in each with what the chain holds.
-/
namespace AdaptivePlatform.Idsm

open BitVec (le_def lt_def toNat_ofNat)

inductive Account
  | event
  | context

namespace Account

/-- The part of the arguments of a call that belongs to the account. -/
def amount (eventMem : uint32) (contextMem : uint64) : Account → ℕ
  | event => eventMem.toNat
  | context => contextMem.toNat

def size (e : Event) : Account → ℕ
  | event => eventMemSize.toNat
  | context => e.contextData.length

def used (mem : EventMemPool) : Account → ℕ
  | event => mem.eventMemUsed.toNat
  | context => mem.contextMemUsed.toNat

variable (a : Account) (xs ys : List PoolCall)

def sizes (events : List Event) : ℕ := (events.map (size · a)).sum

def allocs : List PoolCall → ℕ
  | [] => 0
  | .allocMem eventMem contextMem :: calls => amount eventMem contextMem a + allocs calls
  | _ :: calls => allocs calls

def releases : List PoolCall → ℕ
  | [] => 0
  | .releaseMem eventMem contextMem :: calls => amount eventMem contextMem a + releases calls
  | _ :: calls => releases calls

def pushes : List PoolCall → ℕ
  | [] => 0
  | .push e :: calls => size e a + pushes calls
  | _ :: calls => pushes calls

@[simp] theorem sizes_nil : a.sizes [] = 0 := rfl

@[simp] theorem sizes_cons (e : Event) (events : List Event) :
    a.sizes (e :: events) = size e a + a.sizes events := by
  simp [sizes]

@[simp] theorem sizes_append (xs ys : List Event) : a.sizes (xs ++ ys) = a.sizes xs + a.sizes ys := by
  simp [sizes]

theorem allocs_append : a.allocs (xs ++ ys) = a.allocs xs + a.allocs ys := by
  induction xs with
  | nil => simp [allocs]
  | cons c xs ih => cases c <;> simp [allocs, ih, add_assoc]

theorem releases_append : a.releases (xs ++ ys) = a.releases xs + a.releases ys := by
  induction xs with
  | nil => simp [releases]
  | cons c xs ih => cases c <;> simp [releases, ih, add_assoc]

theorem pushes_append : a.pushes (xs ++ ys) = a.pushes xs + a.pushes ys := by
  induction xs with
  | nil => simp [pushes]
  | cons c xs ih => cases c <;> simp [pushes, ih, add_assoc]

/-- The argument of a call and the size of the event agree as long as the number
of bytes of the context has 64 bits. -/
theorem amount_contextDataSize {e : Event} (h : e.contextData.length < 2 ^ 63) :
    amount eventMemSize e.contextDataSize a = size e a := by
  cases a with
  | event => rfl
  | context =>
    simp only [amount, size, Event.contextDataSize, toNat_ofNat]
    omega

end Account

open Account (allocs allocs_append amount pushes releases size)

/-! ### What a filter chain does to the accounts -/

section

variable (a : Account)

/-- The calls of a component balance with what it holds before and after. -/
structure Keeps (before after : ℕ) (calls : List PoolCall) : Prop where
  balance : before + a.allocs calls = after + a.pushes calls + a.releases calls
  releases_le : a.releases calls ≤ before
  covered : a.allocs calls ≤ after ∨ a.releases calls = 0

theorem Keeps.nothing (held : ℕ) : Keeps a held held [] where
  balance := by simp [allocs, pushes, releases]
  releases_le := Nat.zero_le _
  covered := .inr rfl

/-- The calls take an event into what is held. -/
structure TakesIn (event : Event) (before after : ℕ) (calls : List PoolCall) : Prop where
  balance : before + a.allocs calls = after + a.releases calls
  allocs_le : a.allocs calls ≤ size event a
  covered : a.allocs calls ≤ after
  pushes_eq : a.pushes calls = 0

theorem TakesIn.nothing (event : Event) (held : ℕ) : TakesIn a event held held [] :=
  ⟨rfl, Nat.zero_le _, Nat.zero_le _, rfl⟩

namespace AggregationFilter

theorem adjustCtxMem_spec (oldMem newMem : uint64) :
    amount 0 oldMem a + a.allocs (adjustCtxMem oldMem newMem) =
        amount 0 newMem a + a.releases (adjustCtxMem oldMem newMem) ∧
      a.allocs (adjustCtxMem oldMem newMem) ≤ amount 0 newMem a ∧
      a.pushes (adjustCtxMem oldMem newMem) = 0 := by
  unfold adjustCtxMem
  split_ifs with heq hlt
  · simp [heq, allocs, releases, pushes]
  · cases a with
    | event => simp [allocs, releases, pushes, amount]
    | context =>
      have hlt' : oldMem.toNat < newMem.toNat := lt_def.mp hlt
      have hsub : (newMem - oldMem).toNat = newMem.toNat - oldMem.toNat :=
        BitVec.toNat_sub_of_le (le_def.mpr hlt'.le)
      simp only [allocs, releases, pushes, amount, and_true]
      omega
  · cases a with
    | event => simp [allocs, releases, pushes, amount]
    | context =>
      have hle : newMem.toNat ≤ oldMem.toNat := by
        rw [lt_def] at hlt
        omega
      have hsub : (oldMem - newMem).toNat = oldMem.toNat - newMem.toNat :=
        BitVec.toNat_sub_of_le (le_def.mpr hle)
      simp only [allocs, releases, pushes, amount, and_true]
      omega

variable {event : Event} (dataSource : ContextDataSource) (clock : Clock)

section

variable {aggEvent : Event} (hagg : aggEvent.contextData.length < 2 ^ 63)
  (hevent : event.contextData.length < 2 ^ 63)

include hagg hevent

theorem takesIn_adjustCtxMem {result : Event} (hresult : result.contextData = event.contextData) :
    TakesIn a event (size aggEvent a) (size result a)
      (adjustCtxMem aggEvent.contextDataSize event.contextDataSize) := by
  obtain ⟨hbalance, hle, hpushes⟩ :=
    adjustCtxMem_spec a aggEvent.contextDataSize event.contextDataSize
  cases a with
  | event =>
    simp only [amount, BitVec.ofNat_eq_ofNat, toNat_ofNat] at hbalance hle
    exact ⟨by simp only [size]; omega, by omega, by omega, hpushes⟩
  | context =>
    have hold : aggEvent.contextDataSize.toNat = aggEvent.contextData.length :=
      Account.amount_contextDataSize .context hagg
    have hnew : event.contextDataSize.toNat = event.contextData.length :=
      Account.amount_contextDataSize .context hevent
    simp only [amount, hold, hnew] at hbalance hle
    refine ⟨?_, hle, ?_, hpushes⟩
    · simpa [size, hresult] using hbalance
    · simpa [size, hresult] using hle

theorem takesIn_accumulate :
    TakesIn a event (size aggEvent a)
      (size (accumulate dataSource aggEvent event).1 a)
      (accumulate dataSource aggEvent event).2 := by
  unfold accumulate
  split
  · cases a <;> exact TakesIn.nothing _ _ _
  · cases dataSource with
    | unknown => cases a <;> exact TakesIn.nothing _ _ _
    | useLastContextData => exact takesIn_adjustCtxMem a hagg hevent rfl
    | useFirstContextData =>
      dsimp only
      split
      · rename_i hempty
        have hsize : aggEvent.contextDataSize = 0 := by simp [Event.contextDataSize, hempty]
        rw [← hsize]
        exact takesIn_adjustCtxMem a hagg hevent rfl
      · cases a <;> exact TakesIn.nothing _ _ _

theorem length_accumulate :
    (accumulate dataSource aggEvent event).1.contextData.length < 2 ^ 63 := by
  unfold accumulate
  split
  · exact hagg
  · cases dataSource with
    | unknown => exact hagg
    | useLastContextData => exact hevent
    | useFirstContextData =>
      dsimp only
      split
      · exact hevent
      · exact hagg

end

section

variable (now : ℤ) (f : AggregationFilter) (hevent : event.contextData.length < 2 ^ 63)
  (hheld : ∀ e ∈ f.aggEvent, e.contextData.length < 2 ^ 63)

include hevent hheld

theorem takesIn_filter :
    TakesIn a event (a.sizes f.aggEvent.toList) (a.sizes (f.filter now event).1.aggEvent.toList)
      (f.filter now event).2 := by
  unfold filter
  simp only [startPeriod_aggEvent]
  cases hagg : f.aggEvent with
  | none =>
    have hamount := a.amount_contextDataSize hevent
    constructor <;> simp [allocs, releases, pushes, hamount]
  | some aggEvent => simpa using takesIn_accumulate a _ (hheld aggEvent hagg) hevent

theorem length_filter : ∀ e ∈ (f.filter now event).1.aggEvent, e.contextData.length < 2 ^ 63 := by
  unfold filter
  simp only [startPeriod_aggEvent]
  cases hagg : f.aggEvent with
  | none => simpa using hevent
  | some aggEvent => simpa using length_accumulate _ (hheld aggEvent hagg) hevent

end

variable (f : AggregationFilter) (afterFilter : List ThresholdFilter)
  (hheld : ∀ e ∈ f.aggEvent, e.contextData.length < 2 ^ 63)

include hheld

theorem endPeriod_spec :
    a.allocs (f.endPeriod clock afterFilter).2.2 = 0 ∧
      a.sizes f.aggEvent.toList =
        a.sizes (f.endPeriod clock afterFilter).1.aggEvent.toList +
          a.pushes (f.endPeriod clock afterFilter).2.2 +
          a.releases (f.endPeriod clock afterFilter).2.2 := by
  rw [endPeriod_aggEvent]
  unfold endPeriod
  dsimp only
  split
  · simp only [getEvent, isArrivedTime_aggEvent]
    cases hagg : f.aggEvent with
    | none => simp [filterSecondHalf, allocs, pushes, releases]
    | some e =>
      have hamount := a.amount_contextDataSize (hheld e hagg)
      simp only [filterSecondHalf]
      split <;> simp [allocs, pushes, releases, hamount]
  · simp [allocs, pushes, releases]

theorem length_endPeriod :
    ∀ e ∈ (f.endPeriod clock afterFilter).1.aggEvent, e.contextData.length < 2 ^ 63 := by
  intro e he
  rw [endPeriod_aggEvent] at he
  split at he
  · contradiction
  · exact hheld e he

end AggregationFilter

open AggregationFilter (endPeriod_spec length_endPeriod length_filter takesIn_filter)

namespace FilterChain

def Bounded (chain : FilterChain) : Prop := ∀ e ∈ chain.held, e.contextData.length < 2 ^ 63

def heldSize (chain : FilterChain) : ℕ := a.sizes chain.held.toList

variable (fgState : String → String) (clock : Clock) (chain : FilterChain)

theorem filterSecondHalf_spec (now : ℤ) (afterFilter : List ThresholdFilter) {event : Event}
    (hevent : event.contextData.length < 2 ^ 63) :
    let calls := (filterSecondHalf now afterFilter (some event) false).2
    a.allocs calls = a.pushes calls ∧ a.allocs calls ≤ size event a ∧ a.releases calls = 0 := by
  have hamount := a.amount_contextDataSize hevent
  simp only [filterSecondHalf]
  split <;> simp [allocs, pushes, releases, hamount]

theorem held_of_aggreFilter {chain : FilterChain} {f : AggregationFilter}
    (h : chain.aggreFilter = some f) : chain.held = f.aggEvent := by
  simp [held, h]

variable {chain} {event : Event}

theorem Bounded.aggEvent {f : AggregationFilter} (hbounded : chain.Bounded)
    (h : chain.aggreFilter = some f) : ∀ e ∈ f.aggEvent, e.contextData.length < 2 ^ 63 :=
  held_of_aggreFilter h ▸ hbounded

section

variable (hevent : event.contextData.length < 2 ^ 63) (hbounded : chain.Bounded)

include hevent hbounded

theorem Bounded.filter : (chain.filter fgState clock event).1.Bounded := by
  cases hpassed : (filterBefore fgState chain.beforeFilter).1 with
  | false => rwa [filter_of_blocked hpassed]
  | true =>
    cases hagg : chain.aggreFilter with
    | none => simp [filter_of_not_aggregated hpassed hagg, Bounded, held, hagg]
    | some f =>
      have hend := length_endPeriod clock f chain.afterFilter (hbounded.aggEvent hagg)
      rw [filter_of_aggregated hpassed hagg]
      exact length_filter clock.aggregation _ hevent hend

theorem allocs_filter_le : a.allocs (chain.filter fgState clock event).2 ≤ size event a := by
  cases hpassed : (filterBefore fgState chain.beforeFilter).1 with
  | false => simp [filter_of_blocked hpassed, allocs]
  | true =>
    cases hagg : chain.aggreFilter with
    | none =>
      rw [filter_of_not_aggregated hpassed hagg]
      exact (filterSecondHalf_spec a _ _ hevent).2.1
    | some f =>
      have hbefore := hbounded.aggEvent hagg
      have hend := length_endPeriod clock f chain.afterFilter hbefore
      rw [filter_of_aggregated hpassed hagg, allocs_append,
        (endPeriod_spec a clock f _ hbefore).1, zero_add]
      exact (takesIn_filter a clock.aggregation _ hevent hend).allocs_le

theorem keeps_filter :
    Keeps a (chain.heldSize a) ((chain.filter fgState clock event).1.heldSize a)
      (chain.filter fgState clock event).2 := by
  cases hpassed : (filterBefore fgState chain.beforeFilter).1 with
  | false =>
    rw [filter_of_blocked hpassed]
    exact Keeps.nothing a _
  | true =>
    cases hagg : chain.aggreFilter with
    | none =>
      obtain ⟨hallocs, _, hreleases⟩ :=
        filterSecondHalf_spec a clock.threshold chain.afterFilter hevent
      rw [filter_of_not_aggregated hpassed hagg]
      refine ⟨?_, hreleases ▸ Nat.zero_le _, .inr hreleases⟩
      simp [heldSize, held, hallocs, hreleases]
    | some f =>
      have hbefore := hbounded.aggEvent hagg
      have hend := length_endPeriod clock f chain.afterFilter hbefore
      obtain ⟨hallocs, hsizes⟩ := endPeriod_spec a clock f chain.afterFilter hbefore
      have htakes := takesIn_filter a clock.aggregation _ hevent hend
      have hbalance := htakes.balance
      have hpushes := htakes.pushes_eq
      have hcovered := htakes.covered
      rw [filter_of_aggregated hpassed hagg, heldSize, heldSize, held_of_aggreFilter hagg,
        held_of_aggreFilter rfl]
      constructor
      · rw [allocs_append, Account.pushes_append, Account.releases_append]
        omega
      · rw [Account.releases_append]
        omega
      · rw [allocs_append]
        omega

end

theorem timerhandler_spec (hbounded : chain.Bounded) :
    a.allocs (chain.timerhandler clock).2 = 0 ∧
      chain.heldSize a = (chain.timerhandler clock).1.heldSize a +
        a.pushes (chain.timerhandler clock).2 + a.releases (chain.timerhandler clock).2 := by
  unfold timerhandler
  cases hagg : chain.aggreFilter with
  | none => simp [allocs, pushes, releases]
  | some f =>
    simpa [heldSize, held, hagg] using
      endPeriod_spec a clock f chain.afterFilter (hbounded.aggEvent hagg)

theorem Bounded.timerhandler (hbounded : chain.Bounded) : (chain.timerhandler clock).1.Bounded := by
  unfold FilterChain.timerhandler
  cases hagg : chain.aggreFilter with
  | none => exact hbounded
  | some f => exact length_endPeriod clock f chain.afterFilter (hbounded.aggEvent hagg)

end FilterChain

end

end AdaptivePlatform.Idsm
