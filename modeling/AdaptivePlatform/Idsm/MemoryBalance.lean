import Mathlib.Algebra.BigOperators.Fin
import Mathlib.Algebra.Order.BigOperators.Group.Finset
import AdaptivePlatform.Foundations.Runs
import AdaptivePlatform.Idsm.ChainAccounts

/-!
# The memory in use and the events in the pipeline

An account of `EventMemPool` balances when it shows the sizes of all events that
are buffered between the report and the end of the transmission; the calls that
the server thread has still to make count as made. The balance is kept by every
run in which each step meets a condition on the state before it.
-/
namespace AdaptivePlatform.Idsm

open Runs Function
open BitVec (ofNat)
open Option hiding get
open BitVec hiding not_not not_or
open Pipeline hiding chains pending write
open Finset (mem_univ univ)
open Account (amount context pushes releases size sizes_cons used)
open TrafficChecker (check)
open EventMemPool (allocMem releaseMem)

variable {n : ℕ}

namespace Account

variable (a : Account)

def held (chains : Fin n → FilterChain) : ℕ := ∑ i, (chains i).heldSize a

def inFlight (sending : Option TransData) : ℕ :=
  match sending with
  | none => 0
  | some data => amount eventMemSize data.ctxDataSize a

def waiting (s : Pipeline n) : ℕ :=
  a.held s.chains + a.pushes s.pending + a.sizes s.records + a.sizes s.events

def total (cfg : IdsmConfig n) : Account → ℕ
  | event => cfg.eventMemTotal.toNat
  | context => cfg.contextMemTotal.toNat

theorem held_update (chains : Fin n → FilterChain) (i : Fin n) (chain : FilterChain) :
    a.held (update chains i chain) + (chains i).heldSize a = a.held chains + chain.heldSize a := by
  have hafter := Finset.add_sum_erase univ
    (fun j => (update chains i chain j).heldSize a) (mem_univ i)
  have hbefore := Finset.add_sum_erase univ (fun j => (chains j).heldSize a) (mem_univ i)
  have hothers : ∑ j ∈ univ.erase i, (update chains i chain j).heldSize a =
      ∑ j ∈ univ.erase i, (chains j).heldSize a := by
    refine Finset.sum_congr rfl fun j hj => ?_
    rw [update_of_ne (Finset.ne_of_mem_erase hj)]
  simp only [update_self] at hafter
  unfold held
  omega

theorem toNat_memLimit (limit : uint32) :
    (limit.setWidth 64 * memLimitUnit.setWidth 64 : uint64).toNat = limit.toNat * 2 ^ 20 := by
  have hunit : (memLimitUnit.setWidth 64 : uint64).toNat = 2 ^ 20 := by decide
  rw [toNat_mul, hunit, toNat_setWidth]
  omega

theorem total_lt (cfg : IdsmConfig n) : a.total cfg < 2 ^ 63 := by
  cases a with
  | event => rw [total, IdsmConfig.eventMemTotal, toNat_memLimit]; omega
  | context => rw [total, IdsmConfig.contextMemTotal, toNat_memLimit]; omega

end Account

open Account (allocs inFlight waiting)

/-- The balance of both accounts. It also says that neither has underflowed. -/
def Pipeline.Balanced (s : Pipeline n) : Prop :=
  ∀ a : Account,
    used s.mem a + a.allocs s.pending = a.waiting s + a.inFlight s.sending + a.releases s.pending

section

variable {chains : Fin n → FilterChain} {i : Fin n} {chain : FilterChain}

theorem Keeps.update {a : Account} {calls : List PoolCall}
    (h : Keeps a ((chains i).heldSize a) (chain.heldSize a) calls) :
    Keeps a (a.held chains) (a.held (update chains i chain)) calls := by
  have hupdate := a.held_update chains i chain
  have hle : (chains i).heldSize a ≤ a.held chains :=
    Finset.single_le_sum (f := fun j => (chains j).heldSize a) (fun _ _ => Nat.zero_le _)
      (mem_univ i)
  have hbalance := h.balance
  have hcovered := h.covered
  constructor
  · omega
  · omega
  · omega

theorem bounded_update (h : ∀ i, (chains i).Bounded) (hchain : chain.Bounded) (j : Fin n) :
    (update chains i chain j).Bounded :=
  (forall_update_iff chains fun _ chain => chain.Bounded).mpr ⟨hchain, fun j _ => h j⟩ j

theorem Keeps.refl (a : Account) (chains : Fin n → FilterChain) :
    Keeps a (a.held chains) (a.held chains) [] :=
  Keeps.nothing a _

variable (cfg : IdsmConfig n) {mode : ReportingMode} {event : Event} {calls : List PoolCall}

/-- The report gets as far as the memory check. -/
def Checked (msg : ClientEventMsg) : Prop :=
  ∃ eventId, cfg.portMap msg.instanceId = some eventId ∧ 0x8000#16 ≤ eventId ∧ eventId < 0xFFFF#16 ∧
    cfg.hasIdsmGrant msg.processId eventId = true

/-- There is room for the event and its context data. -/
def Room (mem : EventMemPool) (msg : ClientEventMsg) : Prop :=
  mem.eventMemUsed.toNat + 16 ≤ cfg.eventMemTotal.toNat ∧
    mem.contextMemUsed.toNat + msg.contextData.length ≤ cfg.contextMemTotal.toNat

theorem memoryCheck_eq_none_iff {mem : EventMemPool}
    (hlimit : ∀ a : Account, used mem a ≤ a.total cfg) (msg : ClientEventMsg) :
    memoryCheck cfg mem eventMemSize (ofNat 64 msg.contextData.length) = none ↔
      Room cfg mem msg := by
  have hlength := msg.length_contextData
  have hevent := hlimit .event
  have hcontext := hlimit .context
  have htotals := And.intro (Account.total_lt .event cfg) (Account.total_lt .context cfg)
  simp only [used] at hevent hcontext htotals
  have hframe : (eventMemSize.setWidth 64 : uint64).toNat = 16 := by decide
  have hsum : (mem.eventMemUsed + eventMemSize.setWidth 64).toNat = mem.eventMemUsed.toNat + 16 := by
    bv_omega
  have hsum' : (mem.contextMemUsed + ofNat 64 msg.contextData.length).toNat =
      mem.contextMemUsed.toNat + msg.contextData.length := by
    bv_omega
  simp only [memoryCheck, Room, lt_def]
  split_ifs with h₁ h₂
  · simp only [false_iff]
    omega
  · simp only [false_iff]
    omega
  · simp only [true_iff]
    omega

/-- What a report does that does not fail the memory check. -/
inductive Processed (readings : Readings) (chains : Fin n → FilterChain) (msg : ClientEventMsg) :
    IdsmErrorCode × (Fin n → FilterChain) × List PoolCall → Prop
  | nothing (code : IdsmErrorCode) : Processed readings chains msg (code, chains, [])
  | bypassed (event : Event) (hchecked : Checked cfg msg)
      (hlength : event.contextData.length ≤ msg.contextData.length) :
    Processed readings chains msg
      (.success, chains, [.allocMem eventMemSize event.contextDataSize, .push event])
  | filtered (i : Fin n) (event : Event) (hchecked : Checked cfg msg)
      (hlength : event.contextData.length ≤ msg.contextData.length) :
    Processed readings chains msg
      (.success,
        Function.update chains i ((chains i).filter readings.fgState readings.clock event).1,
        ((chains i).filter readings.fgState readings.clock event).2)

theorem reportingModeProc_of_none (h : reportingModeProc mode event = (none, calls)) :
    calls = [] ∨ calls = [.allocMem eventMemSize event.contextDataSize, .push event] := by
  cases mode <;> simp only [reportingModeProc] at h <;> grind

theorem reportingModeProc_of_some {event' : Event}
    (h : reportingModeProc mode event = (some event', calls)) :
    calls = [] ∧ event'.contextData.length ≤ event.contextData.length := by
  cases mode <;> simp only [reportingModeProc] at h <;> grind

variable (mem : EventMemPool) (properMap : uint16 → Option EventProper)
  (chains : Fin n → FilterChain) (readings : Readings) (msg : ClientEventMsg)

theorem processed_process (h : Checked cfg msg →
      memoryCheck cfg mem eventMemSize (ofNat 64 msg.contextData.length) = none) :
    Processed cfg readings chains msg (process cfg mem properMap chains readings msg) := by
  unfold process
  split
  · exact .nothing _
  · rename_i eventId hport
    split_ifs with hrange hgrant
    · exact .nothing _
    · exact .nothing _
    · have hchecked : Checked cfg msg := by
        refine ⟨eventId, hport, ?_, ?_, by simpa using hgrant⟩
        · exact BitVec.not_lt.mp (not_or.mp hrange).1
        · exact BitVec.not_le.mp (not_or.mp hrange).2
      rw [h hchecked]
      cases properMap eventId with
      | none => exact .nothing _
      | some proper =>
        dsimp only
        split
        · rename_i calls hmode
          rcases reportingModeProc_of_none hmode with rfl | rfl
          · exact .nothing _
          · exact .bypassed _ hchecked le_rfl
        · rename_i event calls hmode
          obtain ⟨rfl, hlength⟩ := reportingModeProc_of_some hmode
          split
          · exact .nothing _
          · exact .nothing _
          · exact .filtered _ _ hchecked hlength

theorem process_of_checked {code : IdsmErrorCode} (hchecked : Checked cfg msg)
    (h : memoryCheck cfg mem eventMemSize (ofNat 64 msg.contextData.length) = some (code, event)) :
    process cfg mem properMap chains readings msg = (code, chains, [.push event]) := by
  obtain ⟨eventId, hport, hmin, hmax, hgrant⟩ := hchecked
  have hrange : ¬ (eventId < 0x8000#16 ∨ 0xFFFF#16 ≤ eventId) :=
    not_or.mpr ⟨BitVec.not_lt.mpr hmin, BitVec.not_le.mpr hmax⟩
  simp only [process, hport, if_neg hrange, hgrant, h]
  simp

variable {cfg chains readings msg} {result : IdsmErrorCode × (Fin n → FilterChain) × List PoolCall}

section

variable (h : Processed cfg readings chains msg result) (hbounded : ∀ i, (chains i).Bounded)

include h hbounded

theorem Processed.keeps (a : Account) : Keeps a (a.held chains) (a.held result.2.1) result.2.2 := by
  have hmsg := msg.length_contextData
  cases h with
  | nothing => exact Keeps.refl a chains
  | bypassed event _ hlength =>
    have hamount := a.amount_contextDataSize (hlength.trans_lt hmsg)
    exact ⟨by simp [allocs, pushes, releases, hamount], Nat.zero_le _, .inr rfl⟩
  | filtered i event _ hlength =>
    exact (FilterChain.keeps_filter a _ _ (hlength.trans_lt hmsg) (hbounded i)).update

theorem Processed.bounded : ∀ i, (result.2.1 i).Bounded := by
  cases h with
  | nothing | bypassed => exact hbounded
  | filtered i event _ hlength =>
    exact bounded_update hbounded
      ((hbounded i).filter _ _ (hlength.trans_lt msg.length_contextData))

theorem Processed.allocs_le (hroom : Checked cfg msg → Room cfg mem msg)
    (hlimit : ∀ a : Account, used mem a ≤ a.total cfg) (a : Account) :
    used mem a + a.allocs result.2.2 ≤ a.total cfg := by
  have hmsg := msg.length_contextData
  have hfits : ∀ event : Event, Checked cfg msg →
      event.contextData.length ≤ msg.contextData.length →
        used mem a + size event a ≤ a.total cfg := by
    intro event hchecked hlength
    obtain ⟨hevent, hcontext⟩ := hroom hchecked
    cases a with
    | event => exact hevent
    | context => exact (Nat.add_le_add_left hlength _).trans hcontext
  cases h with
  | nothing => exact hlimit a
  | bypassed event hchecked hlength =>
    have hamount := a.amount_contextDataSize (hlength.trans_lt hmsg)
    simpa [allocs, hamount] using hfits event hchecked hlength
  | filtered i event hchecked hlength =>
    have hallocs := FilterChain.allocs_filter_le a readings.fgState readings.clock
      (hlength.trans_lt hmsg) (hbounded i)
    have := hfits event hchecked hlength
    dsimp only
    omega

end

theorem timerhandler_keeps (clock : uint16 → Clock) {filterMap : List (uint16 × Option (Fin n))}
    {chains' : Fin n → FilterChain}
    (h : timerhandler clock filterMap chains = some (chains', calls))
    (hbounded : ∀ i, (chains i).Bounded) :
    (∀ a : Account, a.allocs calls = 0 ∧
      a.held chains = a.held chains' + a.pushes calls + a.releases calls) ∧
      ∀ i, (chains' i).Bounded := by
  induction filterMap generalizing chains calls with
  | nil =>
    cases h
    exact ⟨fun _ => ⟨rfl, rfl⟩, hbounded⟩
  | cons entry rest ih =>
    obtain ⟨eventId, pointer⟩ := entry
    cases pointer with
    | none => contradiction
    | some i =>
      obtain ⟨⟨chains₁, further⟩, hrest, heq⟩ := map_eq_some_iff.mp h
      change timerhandler clock rest
        (update chains i ((chains i).timerhandler (clock eventId)).1) = _ at hrest
      have hchains : chains₁ = chains' := (Prod.mk.inj heq).1
      have hcalls : ((chains i).timerhandler (clock eventId)).2 ++ further = calls :=
        (Prod.mk.inj heq).2
      subst hchains hcalls
      obtain ⟨hspec, hafter⟩ := ih hrest (bounded_update hbounded ((hbounded i).timerhandler _))
      refine ⟨fun a => ?_, hafter⟩
      obtain ⟨hallocs, hheld⟩ := hspec a
      obtain ⟨hallocs', hheld'⟩ := FilterChain.timerhandler_spec a (clock eventId) (hbounded i)
      have hupdate := a.held_update chains i ((chains i).timerhandler (clock eventId)).1
      rw [Account.allocs_append, Account.pushes_append, Account.releases_append]
      omega

end

/-! ### What the writer does with an event -/

section

variable (cfg : IdsmConfig n)

/-- The checker lets the amount pass. -/
def Limiter.Passes {w : ℕ} (now : ℤ) (amount : BitVec w) (l : Limiter w) : Prop :=
  (l.restart now).sum + amount ≤ (l.restart now).max

/-- The checker refuses, and not for the first time in the interval. -/
def Limiter.Exhausted {w : ℕ} (now : ℤ) (amount : BitVec w) (l : Limiter w) : Prop :=
  ¬ l.Passes now amount ∧ (l.restart now).limitedTimes ≠ 0

variable {w : ℕ} {now : ℤ} {p : List uint8 × Event} {dropped : Prop} {amount : BitVec w}
  {l : Limiter w}

theorem Limiter.check_of_passes (h : l.Passes now amount) :
    ∃ l', l.check now amount = (true, (l.restart now).limitedTimes, l') := by
  exact ⟨_, by simp only [check, if_pos (show _ ≤ _ from h)]; rfl⟩

theorem Limiter.check_of_not_passes (h : ¬ l.Passes now amount) :
    ∃ l', l.check now amount = (false, (l.restart now).limitedTimes, l') := by
  exact ⟨_, by simp only [check, if_neg (show ¬ _ ≤ _ from h)]; rfl⟩

/-- The event is dropped by one of the two checkers. -/
def Dropped (times : CheckTimes) (rateChecker : RateChecker) (trafChecker : TrafficChecker)
    (event : Event) : Prop :=
  isInternalEvent cfg event = false ∧
    (rateChecker.Exhausted times.rate 1#32 ∨
      rateChecker.Passes times.rate 1#32 ∧
        ∃ message, encode cfg.serializer cfg.sign event = some message ∧
          trafChecker.Exhausted times.traffic (ofNat 64 message.length))

/-- The context data does not survive the encoding, and nothing is sent for an
event that is dropped. -/
structure Encoded (dropped : Prop) (encoded : Option (List uint8 × Event)) : Prop where
  none_iff : encoded = none ↔ dropped
  context : ∀ p ∈ encoded, p.2.contextData = []

variable {cfg} {event : Event} {encoded : Option (List uint8 × Event)}

theorem serialize_eq_some (h : serialize cfg event = some p) :
    encode cfg.serializer cfg.sign event = some p.1 ∧ p.2.contextData = [] := by
  obtain ⟨message, hencode, rfl⟩ := map_eq_some_iff.mp h
  exact ⟨hencode, rfl⟩

theorem encoded_serialize {event : Event}
    (h : serialize cfg event = some p) (hdropped : ¬ dropped) : Encoded dropped (some p) where
  none_iff := by simpa using hdropped
  context q hq := by
    cases hq
    exact (serialize_eq_some h).2

theorem encoded_limited {limitedCounter : uint8}
    (h : limited cfg limitedCounter = some encoded) (hdropped : dropped ↔ limitedCounter ≠ 0) :
    Encoded dropped encoded := by
  unfold limited at h
  split_ifs at h with hpos
  · cases h
    have hne : limitedCounter ≠ 0 := by
      rintro rfl
      cases hpos
    exact ⟨by simpa using hdropped.mpr hne, by simp⟩
  · obtain ⟨p, hp, rfl⟩ := map_eq_some_iff.mp h
    have heq : limitedCounter = 0 := by
      have := BitVec.not_lt.mp hpos
      simpa using this
    exact encoded_serialize hp (by simp [hdropped, heq])

theorem encoded_checkAndEncode {times : CheckTimes} {rateChecker rateChecker' : RateChecker}
    {trafChecker trafChecker' : TrafficChecker}
    (h : checkAndEncode cfg times rateChecker trafChecker event =
      some (encoded, rateChecker', trafChecker')) :
    Encoded (Dropped cfg times rateChecker trafChecker event) encoded := by
  unfold checkAndEncode at h
  split_ifs at h with hinternal
  · obtain ⟨p, hp, heq⟩ := bind_eq_some_iff.mp h
    obtain ⟨rfl, -⟩ := Prod.mk.inj (some.inj heq)
    exact encoded_serialize hp (by simp [Dropped, hinternal])
  · have hreported : isInternalEvent cfg event = false := by simpa using hinternal
    by_cases hrate : rateChecker.Passes times.rate 1#32
    · obtain ⟨rate, hcheck⟩ := Limiter.check_of_passes hrate
      rw [RateChecker.check, hcheck] at h
      obtain ⟨⟨message, event'⟩, hp, h⟩ := bind_eq_some_iff.mp h
      have hencode := (serialize_eq_some hp).1
      by_cases htraf : trafChecker.Passes times.traffic (ofNat 64 message.length)
      · obtain ⟨traf, hcheck⟩ := Limiter.check_of_passes htraf
        simp only [check, hcheck] at h
        obtain ⟨rfl, -⟩ := h
        exact encoded_serialize hp (by simp [Dropped, Limiter.Exhausted, hrate, hencode, htraf])
      · obtain ⟨traf, hcheck⟩ := Limiter.check_of_not_passes htraf
        simp only [check, hcheck] at h
        obtain ⟨e, he, heq⟩ := bind_eq_some_iff.mp h
        obtain ⟨rfl, -⟩ := Prod.mk.inj (some.inj heq)
        exact encoded_limited he
          (by simp [Dropped, Limiter.Exhausted, hreported, hrate, hencode, htraf])
    · obtain ⟨rate, hcheck⟩ := Limiter.check_of_not_passes hrate
      rw [RateChecker.check, hcheck] at h
      obtain ⟨e, he, heq⟩ := bind_eq_some_iff.mp h
      obtain ⟨rfl, -⟩ := Prod.mk.inj (some.inj heq)
      exact encoded_limited he (by simp [Dropped, Limiter.Exhausted, hreported, hrate])

end

/-! ### Runs of the pipeline -/

variable {mem : EventMemPool} {eventMem : uint32} {contextMem : uint64}

theorem Account.used_allocMem
    (h : ∀ a : Account, used mem a + amount eventMem contextMem a < 2 ^ 64) (a : Account) :
    used (mem.allocMem eventMem contextMem) a = used mem a + amount eventMem contextMem a := by
  have hlt := h a
  cases a with
  | event =>
    simp only [used, amount, allocMem, toNat_add, toNat_setWidth] at hlt ⊢
    omega
  | context =>
    simp only [used, amount, allocMem, toNat_add] at hlt ⊢
    omega

theorem Account.used_releaseMem {a : Account} (h : amount eventMem contextMem a ≤ used mem a) :
    used (mem.releaseMem eventMem contextMem) a = used mem a - amount eventMem contextMem a := by
  cases a with
  | event =>
    simp only [used, amount, releaseMem, toNat_sub, toNat_setWidth] at h ⊢
    omega
  | context =>
    simp only [used, amount, releaseMem, toNat_sub] at h ⊢
    omega

section

variable (cfg : IdsmConfig n)

/-- The condition on a step: there is room for a reported event; an event that is
sent has no context data and is not dropped; no send fails; and when a send has
succeeded, the events that wait cover what the server thread has still to
allocate. -/
def Pipeline.Conforms (s : Pipeline n) : PipelineInput → Prop
  | .report _ msg => Checked cfg msg → Room cfg s.mem msg
  | .write times => ∀ event rest, s.events = event :: rest →
      event.contextData = [] ∧ ¬ Dropped cfg times s.rateChecker s.trafChecker event
  | .comErr => False
  | .sent => Account.event.allocs s.pending ≤ Account.event.waiting s
  | .timer _ | .setEventMode _ _ | .call | .get => True

structure Accounted (s : Pipeline n) : Prop where
  balanced : s.Balanced
  limit : ∀ a : Account, used s.mem a + a.allocs s.pending ≤ a.total cfg
  releases_le : ∀ a : Account, a.releases s.pending ≤ used s.mem a
  covered : ∀ a : Account, a.allocs s.pending ≤ a.held s.chains ∨ a.releases s.pending = 0
  bounded : ∀ i, (s.chains i).Bounded
  emptied : ∀ data ∈ s.sending, data.ctxDataSize = 0

variable {cfg} {s s' : Pipeline n} {times : CheckTimes} {event : Event} {rest : List Event}
  {data : TransData} {input : PipelineInput}

variable {chains : Fin n → FilterChain} {calls : List PoolCall} {readings : Readings}
  {msg : ClientEventMsg}

section

variable (h : Accounted cfg s)

include h

theorem Accounted.enter (hpending : s.pending = [])
    (hkeeps : ∀ a : Account, Keeps a (a.held s.chains) (a.held chains) calls)
    (hlimit : ∀ a : Account, used s.mem a + a.allocs calls ≤ a.total cfg)
    (hbounded : ∀ i, (chains i).Bounded) :
    Accounted cfg { s with chains := chains, pending := calls } where
  balanced a := by
    have hbalance := (hkeeps a).balance
    have hbefore := h.balanced a
    simp only [hpending, waiting, allocs, releases, pushes] at hbefore ⊢
    omega
  limit := hlimit
  releases_le a := by
    have hbefore := h.balanced a
    have hle := (hkeeps a).releases_le
    simp only [hpending, waiting, allocs] at hbefore ⊢
    omega
  covered a := (hkeeps a).covered
  bounded := hbounded
  emptied := h.emptied

theorem Accounted.used_le (a : Account) : used s.mem a ≤ a.total cfg :=
  (Nat.le_add_right _ _).trans (h.limit a)

theorem Accounted.report (hpending : s.pending = []) (hroom : Checked cfg msg → Room cfg s.mem msg) :
    Accounted cfg
      { s with
        chains := (process cfg s.mem s.properMap s.chains readings msg).2.1
        pending := (process cfg s.mem s.properMap s.chains readings msg).2.2 } := by
  have hprocessed := processed_process cfg s.mem s.properMap s.chains readings msg
    fun hchecked => (memoryCheck_eq_none_iff cfg h.used_le msg).mpr (hroom hchecked)
  exact h.enter hpending (hprocessed.keeps h.bounded)
    (hprocessed.allocs_le s.mem h.bounded hroom h.used_le) (hprocessed.bounded h.bounded)

theorem Accounted.timer (hpending : s.pending = []) {clock : uint16 → Clock}
    (htimer : timerhandler clock cfg.filterMap s.chains = some (chains, calls)) :
    Accounted cfg { s with chains := chains, pending := calls } := by
  obtain ⟨hspec, hbounded⟩ := timerhandler_keeps clock htimer h.bounded
  refine h.enter hpending (fun a => ?_) (fun a => ?_) hbounded
  · obtain ⟨hallocs, hheld⟩ := hspec a
    exact ⟨by omega, by omega, by omega⟩
  · rw [(hspec a).1]
    exact h.used_le a

theorem Accounted.call {c : PoolCall} {rest : List PoolCall}
    (hpending : s.pending = c :: rest) : Accounted cfg { s.make c with pending := rest } := by
  have hbalanced := h.balanced
  have hlimit := h.limit
  have hreleases := h.releases_le
  have hcovered := h.covered
  simp only [Pipeline.Balanced, waiting, hpending] at hbalanced hlimit hreleases hcovered
  cases c <;>
    simp only [allocs, releases, pushes] at hbalanced hlimit hreleases hcovered
  case allocMem eventMem contextMem =>
    have hused : ∀ a, used (s.mem.allocMem eventMem contextMem) a =
        used s.mem a + amount eventMem contextMem a := by
      refine Account.used_allocMem fun a => ?_
      have := hlimit a
      have := a.total_lt cfg
      omega
    refine ⟨fun a => ?_, fun a => ?_, fun a => ?_, fun a => ?_, h.bounded, h.emptied⟩ <;>
    · have := hbalanced a
      have := hlimit a
      have := hcovered a
      simp only [make, waiting, hused]
      omega
  case releaseMem eventMem contextMem =>
    have hused : ∀ a, used (s.mem.releaseMem eventMem contextMem) a =
        used s.mem a - amount eventMem contextMem a := by
      intro a
      have := hreleases a
      exact Account.used_releaseMem (by omega)
    refine ⟨fun a => ?_, fun a => ?_, fun a => ?_, fun a => ?_, h.bounded, h.emptied⟩ <;>
    · have := hbalanced a
      have := hlimit a
      have := hcovered a
      simp only [make, waiting, hused]
      omega
  case push event =>
    refine ⟨fun a => ?_, hlimit, hreleases, hcovered, h.bounded, h.emptied⟩
    have := hbalanced a
    simp only [make, waiting, Account.sizes_append, sizes_cons, Account.sizes_nil]
    omega

end

theorem Pipeline.write_eq_some (hs : s.write cfg times event rest = some s') :
    ∃ encoded rateChecker trafChecker,
      Encoded (Dropped cfg times s.rateChecker s.trafChecker event) encoded ∧
      s' = { s with
        events := rest
        sending := encoded.map fun (message, event) => ⟨message, event.contextDataSize⟩
        rateChecker := rateChecker
        trafChecker := trafChecker } := by
  obtain ⟨⟨encoded, rateChecker, trafChecker⟩, hencoded, heq⟩ := bind_eq_some_iff.mp hs
  exact ⟨encoded, rateChecker, trafChecker, encoded_checkAndEncode hencoded, (some.inj heq).symm⟩

theorem Encoded.inFlight {dropped : Prop} {p : List uint8 × Event}
    (h : Encoded dropped (some p)) (a : Account) :
    a.inFlight (some ⟨p.1, p.2.contextDataSize⟩) = amount eventMemSize 0 a := by
  have hempty : p.2.contextDataSize = 0 := by simp [Event.contextDataSize, h.context p rfl]
  simp [Account.inFlight, hempty]

theorem Accounted.write (h : Accounted cfg s) (hsending : s.sending = none)
    (hevents : s.events = event :: rest) (hcontext : event.contextData = [])
    (hkept : ¬ Dropped cfg times s.rateChecker s.trafChecker event)
    (hs : s.write cfg times event rest = some s') : Accounted cfg s' := by
  obtain ⟨encoded, rateChecker, trafChecker, hencoded, rfl⟩ := write_eq_some hs
  obtain ⟨p, rfl⟩ := ne_none_iff_exists'.mp (mt hencoded.none_iff.mp hkept)
  refine ⟨fun a => ?_, h.limit, h.releases_le, h.covered, h.bounded, ?_⟩
  · have hbalanced := h.balanced a
    have hsize : size event a = amount eventMemSize 0 a := by
      cases a with
      | event => rfl
      | context => simp [size, amount, hcontext]
    simp only [waiting, hsending, hevents, sizes_cons] at hbalanced
    simp only [waiting, map_some, hencoded.inFlight a]
    simp only [inFlight] at hbalanced
    omega
  · intro data hdata
    cases hdata
    simp [Event.contextDataSize, hencoded.context p rfl]

theorem Pipeline.used_destroy {a : Account}
    (h : amount eventMemSize data.ctxDataSize a ≤ used s.mem a) :
    used (s.destroy data).mem a = used s.mem a - amount eventMemSize data.ctxDataSize a :=
  Account.used_releaseMem h

theorem Accounted.sent (h : Accounted cfg s) (hsending : s.sending = some data)
    (hwaiting : Account.event.allocs s.pending ≤ Account.event.waiting s) :
    Accounted cfg { s.destroy data with sending := none } := by
  have hempty : data.ctxDataSize = 0 := h.emptied data hsending
  have hbalanced := h.balanced
  simp only [Pipeline.Balanced, hsending, inFlight] at hbalanced
  have hle : ∀ a : Account,
      amount eventMemSize data.ctxDataSize a + a.releases s.pending ≤ used s.mem a := by
    intro a
    have := hbalanced a
    cases a with
    | event => omega
    | context => simpa [amount, hempty] using h.releases_le .context
  have hused := fun a => used_destroy ((Nat.le_add_right _ _).trans (hle a))
  refine ⟨fun a => ?_, fun a => ?_, fun a => ?_, h.covered, h.bounded, by simp⟩
  · have := hbalanced a
    have := hle a
    have := hused a
    simp only [waiting, inFlight, destroy] at *
    omega
  · have := h.limit a
    have := hused a
    simp only [destroy] at *
    omega
  · have := hle a
    have := hused a
    simp only [destroy] at *
    omega

theorem Pipeline.used_event_destroy (s : Pipeline n) (data : TransData) :
    used (s.destroy data).mem .event = (2 ^ 64 - 16 + used s.mem .event) % 2 ^ 64 := by
  have hframe : (eventMemSize.setWidth 64 : uint64).toNat = 16 := by decide
  simp [used, destroy, releaseMem, hframe]

section

variable (h : Accounted cfg s)

include h

theorem Accounted.room_of_balanced (hpending : s.pending = []) (hbalanced : Pipeline.Balanced
      { s with
        chains := (process cfg s.mem s.properMap s.chains readings msg).2.1
        pending := (process cfg s.mem s.properMap s.chains readings msg).2.2 })
    (hchecked : Checked cfg msg) : Room cfg s.mem msg := by
  rw [← memoryCheck_eq_none_iff cfg h.used_le msg]
  by_contra hfails
  obtain ⟨⟨code, event⟩, hevent⟩ := ne_none_iff_exists'.mp hfails
  rw [process_of_checked cfg s.mem s.properMap s.chains readings msg hchecked hevent] at hbalanced
  have hbefore := h.balanced .event
  have hafter := hbalanced .event
  have hsize : size event .event = 16 := rfl
  simp only [hpending, waiting, allocs, pushes, releases] at hbefore hafter
  omega

theorem Accounted.write_of_balanced
    (hevents : s.events = event :: rest) (hs : s.write cfg times event rest = some s')
    (hbalanced : s'.Balanced) :
    event.contextData = [] ∧ ¬ Dropped cfg times s.rateChecker s.trafChecker event := by
  obtain ⟨encoded, rateChecker, trafChecker, hencoded, rfl⟩ := write_eq_some hs
  have hbefore := h.balanced
  simp only [Pipeline.Balanced, waiting, hevents, sizes_cons] at hbefore
  cases encoded with
  | none =>
    have hsize : size event .event = 16 := rfl
    have hbefore := hbefore .event
    have hafter := hbalanced .event
    simp only [waiting, map_none, inFlight] at hafter
    omega
  | some p =>
    refine ⟨?_, fun hdropped => by simpa using hencoded.none_iff.mpr hdropped⟩
    have hbefore := hbefore .context
    have hafter := hbalanced .context
    have hempty : amount eventMemSize 0 .context = 0 := rfl
    have hsize : size event .context = event.contextData.length := rfl
    simp only [waiting, map_some, hencoded.inFlight] at hafter
    exact List.eq_nil_of_length_eq_zero (by omega)

theorem Accounted.not_balanced_comErr (data : TransData) : ¬ (s.destroy data).Balanced := by
  intro hbalanced
  have hbefore := h.balanced .event
  have hafter := hbalanced .event
  rw [used_event_destroy] at hafter
  simp only [waiting, destroy] at hbefore hafter
  omega

theorem Accounted.waiting_of_balanced {data : TransData}
    (hbalanced : Pipeline.Balanced { s.destroy data with sending := none }) :
    Account.event.allocs s.pending ≤ Account.event.waiting s := by
  by_contra hshort
  have hbefore := h.balanced .event
  have hafter := hbalanced .event
  have hcovered := h.covered .event
  simp only [waiting, destroy, inFlight] at hbefore hafter hshort
  omega

/-- A step keeps the accounts if it meets its condition, and unbalances them if it does not. -/
theorem Accounted.step (hs : s.step cfg input = some s') :
    (s.Conforms cfg input → Accounted cfg s') ∧ (s'.Balanced → s.Conforms cfg input) := by
  cases input with
  | report readings msg =>
    simp only [step] at hs
    split_ifs at hs with hpending
    cases hs
    exact ⟨h.report (not_not.mp hpending), h.room_of_balanced (not_not.mp hpending)⟩
  | timer clock =>
    simp only [step] at hs
    split_ifs at hs with hpending
    obtain ⟨⟨chains, calls⟩, htimer, heq⟩ := bind_eq_some_iff.mp hs
    cases heq
    exact ⟨fun _ => h.timer (not_not.mp hpending) htimer, fun _ => trivial⟩
  | setEventMode eventId mode =>
    cases hs
    exact ⟨fun _ => ⟨h.balanced, h.limit, h.releases_le, h.covered, h.bounded, h.emptied⟩,
      fun _ => trivial⟩
  | call =>
    cases hpending : s.pending with
    | nil => simp [step, hpending] at hs
    | cons c rest =>
      simp only [step, hpending] at hs
      cases hs
      exact ⟨fun _ => h.call hpending, fun _ => trivial⟩
  | get =>
    simp only [step] at hs
    split_ifs at hs with hidle
    cases hs
    have hevents : s.events = [] := by simpa using (not_or.mp hidle).1
    refine ⟨fun _ => ⟨fun a => ?_, h.limit, h.releases_le, h.covered, h.bounded, h.emptied⟩,
      fun _ => trivial⟩
    have := h.balanced a
    simp only [waiting, hevents] at this ⊢
    omega
  | write times =>
    cases hsending : s.sending with
    | some data => simp [step, hsending] at hs
    | none =>
      cases hevents : s.events with
      | nil => simp [step, hevents] at hs
      | cons event rest =>
        simp only [step, hsending, hevents] at hs
        constructor
        · intro hconforms
          obtain ⟨hcontext, hkept⟩ := hconforms event rest hevents
          exact h.write hsending hevents hcontext hkept hs
        · intro hbalanced event' rest' hevents'
          obtain ⟨rfl, rfl⟩ := List.cons.inj (hevents.symm.trans hevents')
          exact h.write_of_balanced hevents hs hbalanced
  | comErr =>
    refine ⟨False.elim, fun hbalanced => ?_⟩
    cases hsending : s.sending with
    | none => simp [step, hsending] at hs
    | some data =>
      simp only [step, hsending] at hs
      obtain ⟨⟨message, _⟩, _, heq⟩ := bind_eq_some_iff.mp hs
      cases heq
      exact h.not_balanced_comErr _ hbalanced
  | sent =>
    cases hsending : s.sending with
    | none => simp [step, hsending] at hs
    | some data =>
      simp only [step, hsending] at hs
      cases hs
      exact ⟨h.sent hsending, h.waiting_of_balanced⟩

end

end

variable (cfg : IdsmConfig n) (properMap : uint16 → Option EventProper)

def Pipeline.start (chains : Fin n → FilterChain)
    (rateChecker : RateChecker) (trafChecker : TrafficChecker) : Pipeline n where
  properMap := properMap
  chains := chains
  rateChecker := rateChecker
  trafChecker := trafChecker

open Pipeline (Balanced Conforms start step)

theorem accounted_start {chains : Fin n → FilterChain} (hchains : ∀ i, (chains i).held = none)
    (rateChecker : RateChecker) (trafChecker : TrafficChecker) :
    Accounted cfg (start properMap chains rateChecker trafChecker) where
  balanced a := by
    have hheld : a.held chains = 0 :=
      Finset.sum_eq_zero fun i _ => by simp [FilterChain.heldSize, hchains i]
    cases a <;> simp [start, used, waiting, inFlight, hheld, allocs, pushes, releases]
  limit a := by cases a <;> simp [start, used, allocs]
  releases_le a := Nat.zero_le _
  covered a := .inr rfl
  bounded i := by simp [start, FilterChain.Bounded, hchains i]
  emptied := by simp [start]

/-- In every run of the server and the writer thread, both accounts balance after
each step precisely when each step meets its condition. -/
theorem eventMem_balanced_iff (cfg : IdsmConfig n) (properMap : uint16 → Option EventProper)
    (chains : Fin n → FilterChain) (hchains : ∀ i, (chains i).held = none)
    (rateChecker : RateChecker) (trafChecker : TrafficChecker) (inputs : List PipelineInput)
    (last : Pipeline n)
    (hrun : exec (step cfg) (start properMap chains rateChecker trafChecker) inputs = some last) :
    Always (step cfg) Balanced
        (start properMap chains rateChecker trafChecker) inputs ↔
      Along (step cfg) (Conforms cfg) (start properMap chains rateChecker trafChecker) inputs :=
  always_iff_along_of_exec (fun _ h => h.balanced) (fun _ _ _ h hc hs => (h.step hs).1 hc)
    (fun _ _ _ h hs hb => (h.step hs).2 hb)
    (accounted_start cfg properMap hchains rateChecker trafChecker) hrun

def sampleConfig : IdsmConfig 1 where
  portMap _ := some 0x8001
  filterMap := [(0x8001, some 0)]
  eventMem := 1
  contextMem := 1
  internalSev := ⟨1, 2, 3, 4⟩
  timestampFormat := ""
  hasIdsmGrant _ _ := true
  serializer := {}
  sign := none

def sampleStart (mode : ReportingMode) : Pipeline 1 :=
  start (fun _ => some ⟨0x8001, mode, 0⟩) (fun _ => {}) ⟨100, 1, 0, 0, 0⟩ ⟨100, 1, 0, 0, 0⟩

def sampleInputs (contextData : List uint8) (h : contextData.length < 2 ^ 63) :
    List PipelineInput :=
  [.report ⟨fun _ => "", 0, ⟨1, 1, 1⟩⟩ ⟨"port", 1, 1, 0, .unknown, contextData, h⟩,
    .call, .call, .get, .write ⟨1, 1⟩, .sent]

theorem eventMem_balanced_iff_brief :
    (∃ last, exec (step sampleConfig) (sampleStart .briefBypassingFilters)
      (sampleInputs [] (by decide)) = some last) ∧
    (Always (step sampleConfig) Balanced (sampleStart .briefBypassingFilters)
        (sampleInputs [] (by decide)) ↔
      Along (step sampleConfig) (Conforms sampleConfig)
        (sampleStart .briefBypassingFilters) (sampleInputs [] (by decide))) := by
  obtain ⟨last, hrun⟩ := isSome_iff_exists.mp
    (show (exec (step sampleConfig) (sampleStart .briefBypassingFilters)
      (sampleInputs [] (by decide))).isSome from rfl)
  exact ⟨⟨last, hrun⟩, eventMem_balanced_iff sampleConfig _ _ (fun _ => rfl) _ _ _ last hrun⟩

/-- The byte of context data is counted as used for ever. -/
theorem context_memory_leaks :
    ¬ Always (step sampleConfig) Balanced
      (sampleStart .detailedBypassingFilters) (sampleInputs [1] (by decide)) := by
  intro halways
  have hused : (exec (step sampleConfig) (sampleStart .detailedBypassingFilters)
      (sampleInputs [1] (by decide))).map (fun s =>
        (used s.mem .context + context.allocs s.pending,
          context.waiting s + context.inFlight s.sending +
            context.releases s.pending)) = some (1, 0) := rfl
  obtain ⟨last, hrun, heq⟩ := map_eq_some_iff.mp hused
  have hbalanced := halways.last hrun .context
  simp only [Prod.mk.injEq] at heq
  omega

end AdaptivePlatform.Idsm
