import AdaptivePlatform.Diag.ServerImpl
import AdaptivePlatform.Foundations.Runs

/-!
# The number of parallel requests

In the default session a new request that meets a full table is to displace one
of the least important active requests if that is less important than the new
one, and to be declined otherwise, so that the table never outgrows
`maxParallelRequests`.

`_prioritize` tests the address of the request it found the wrong way round: it
declines where it found one and accepts where it did not. As the address 0
stands for none, the only case in which it does what it should is that the one
less important request is that of client 0. The size of the table is tested
when a request is indicated, not when it is entered.
-/
namespace AdaptivePlatform.Diag.ServerImpl

open Runs List

variable (s : ServerImpl)

/-- The active requests that are less important than the given priority. -/
def lessImportant (priority : uint8) : List (uint16 × uint8) :=
  s.requestContextTable.toList.filter (priority < ·.2)

def isFull : Bool := s.maxParallelRequests.toNat ≤ s.requestContextTable.size

/-- The request is accepted if some active request is less important, and one of the least
important ones is cancelled and removed; otherwise it is declined and nothing changes. -/
def Displaces (newClient : uint16) (priority : uint8) : Prop :=
  if s.lessImportant priority = [] then s.prioritize newClient priority = (false, s)
  else
    (s.prioritize newClient priority).1 = true ∧
      ∃ lowest ∈ s.lessImportant priority,
        (∀ active ∈ s.requestContextTable.toList, active.2 ≤ lowest.2) ∧
          (s.prioritize newClient priority).2.requestContextTable =
            s.requestContextTable.erase lowest.1 ∧
          (s.prioritize newClient priority).2.cancelled = lowest.1 :: s.cancelled

/-- A step in the default session that meets a full table displaces a request as it should. -/
def Admits : Step → Prop
  | .indicate sa priority =>
    s.isRequestState sa = false → s.isNonDefaultSession = false → s.isFull = true →
      s.Displaces sa priority
  | _ => True

def Bounded : Prop := s.requestContextTable.size ≤ s.maxParallelRequests.toNat

/-- The request of client 0 is active and it is the only one that is less important. -/
def OnlyClientZero (priority : uint8) : Prop := ∃ p, s.lessImportant priority = [(0, p)]

/-- What has to hold before a request is indicated. -/
def MeetsClientZero : Step → Prop
  | .indicate sa priority =>
    s.isRequestState sa = false → s.isNonDefaultSession = false → s.isFull = true →
      s.Bounded ∧ sa ≠ 0 ∧ s.OnlyClientZero priority
  | _ => True

/-- What has to hold before a request is entered into the table. -/
def HasRoom : Step → Prop
  | .takeRequest =>
    ∀ request ∈ s.waitQueue.head?, s.requestContextTable.contains request.client = false →
      s.requestContextTable.size < s.maxParallelRequests.toNat
  | _ => True

variable {s}

theorem lowestRequestContext_eq (priority : uint8) :
    s.lowestRequestContext priority =
      ((s.lessImportant priority).getLast?.map fun e => (e.1, some e.1)).getD (0, none) := by
  have hfold : ∀ (l : List (uint16 × uint8)) (init : uint16 × Option uint16),
      l.foldl (fun lowest e => if priority < e.2 then (e.1, some e.1) else lowest) init =
        ((l.filter (priority < ·.2)).getLast?.map fun e => (e.1, some e.1)).getD init := by
    intro l
    induction l with
    | nil => exact fun _ => rfl
    | cons e l ih =>
      intro init
      rw [foldl_cons, ih, filter_cons]
      split_ifs with he he'
      · rw [getLast?_cons]
        cases (l.filter (priority < ·.2)).getLast? <;> rfl
      · exact absurd (decide_eq_true he) he'
      · exact absurd (of_decide_eq_true ‹_›) he
      · rfl
  rw [lowestRequestContext, Std.TreeMap.foldl_eq_foldl_toList, hfold]
  rfl

/-! ### Full tables -/

variable {priority : uint8} {newClient : uint16}

/-- The clients of the table come in ascending order, so client 0 is the last one that is less
important only if it is the only one. -/
theorem lessImportant_eq_of_getLast? {e : uint16 × uint8}
    (h : (s.lessImportant priority).getLast? = some e) (hzero : e.1 = 0) :
    s.lessImportant priority = [e] := by
  have hordered : (s.lessImportant priority).Pairwise fun a b => compare a.1 b.1 = .lt :=
    Std.TreeMap.ordered_keys_toList.filter _
  obtain ⟨before, hbefore⟩ := getLast?_eq_some_iff.mp h
  rw [hbefore] at hordered ⊢
  cases before with
  | nil => rfl
  | cons a before =>
    have hlt : compare a.1 e.1 = .lt :=
      (pairwise_append.mp hordered).2.2 a mem_cons_self e (mem_singleton_self e)
    rw [hzero] at hlt
    exact absurd (compareOfLessAndEq_eq_lt.mp hlt) BitVec.not_lt_zero

section

variable (hdefault : s.isNonDefaultSession = false)

include hdefault

theorem client_of_default : s.session.client = 0 :=
  s.session.client_of_default (by simpa [isNonDefaultSession] using hdefault)

theorem prioritize_of_accepted
    (h : newClient = 0 ∨ s.requestContextTable.size ≠ s.maxParallelRequests.toNat)
    (priority : uint8) : s.prioritize newClient priority = (true, s) := by
  unfold prioritize
  rw [client_of_default hdefault, hdefault, if_neg Bool.false_ne_true]
  by_cases hclient : newClient = 0
  · exact if_pos hclient
  · rw [if_neg hclient, if_neg (h.resolve_left hclient)]

theorem prioritize_of_full (hclient : newClient ≠ 0)
    (hfull : s.requestContextTable.size = s.maxParallelRequests.toNat) (priority : uint8) :
    s.prioritize newClient priority =
      if (s.lowestRequestContext priority).1 = 0 then
        (true,
          { (s.lowestRequestContext priority).2.elim s s.cancelRequestContext with
            requestContextTable :=
              s.requestContextTable.erase (s.lowestRequestContext priority).1 })
      else (false, s) := by
  rw [prioritize, client_of_default hdefault, hdefault, if_neg Bool.false_ne_true, if_neg hclient,
    if_pos hfull]

end

/-- Nothing is as it should be if the request is accepted and nothing changes. -/
theorem not_displaces_of_accepted (h : s.prioritize newClient priority = (true, s)) :
    ¬ s.Displaces newClient priority := by
  unfold Displaces
  rw [h]
  split_ifs
  · intro hdecline
    cases congrArg Prod.fst hdecline
  · rintro ⟨-, lowest, -, -, -, hcancelled⟩
    exact absurd hcancelled.symm (cons_ne_self _ _)

theorem displaces_of_onlyClientZero (hdefault : s.isNonDefaultSession = false)
    (hclient : newClient ≠ 0) (hfull : s.requestContextTable.size = s.maxParallelRequests.toNat)
    (hzero : s.OnlyClientZero priority) : s.Displaces newClient priority := by
  obtain ⟨p, hp⟩ := hzero
  have hlowest : s.lowestRequestContext priority = (0, some 0) := by
    rw [lowestRequestContext_eq, hp]
    rfl
  have hprioritize := prioritize_of_full hdefault hclient hfull priority
  rw [hlowest, if_pos rfl] at hprioritize
  rw [Displaces, hprioritize, hp, if_neg (cons_ne_nil _ _)]
  refine ⟨rfl, (0, p), mem_singleton_self _, fun active hactive => ?_, rfl, rfl⟩
  have hless : priority < p := by
    have hmem : (0, p) ∈ s.lessImportant priority := by simp [hp]
    exact of_decide_eq_true (mem_filter.mp hmem).2
  by_cases hlt : priority < active.2
  · have hmem : active ∈ s.lessImportant priority := mem_filter.mpr ⟨hactive, decide_eq_true hlt⟩
    rw [hp, mem_singleton] at hmem
    rw [hmem]
    exact BitVec.le_refl p
  · simp only [BitVec.lt_def, BitVec.le_def] at *
    omega

theorem displaces_iff (hdefault : s.isNonDefaultSession = false) (hfull : s.isFull = true)
    (newClient : uint16) (priority : uint8) :
    s.Displaces newClient priority ↔ s.Bounded ∧ newClient ≠ 0 ∧ s.OnlyClientZero priority := by
  have hfull : s.maxParallelRequests.toNat ≤ s.requestContextTable.size := of_decide_eq_true hfull
  constructor
  · intro h
    have hcall : ¬ (newClient = 0 ∨
        s.requestContextTable.size ≠ s.maxParallelRequests.toNat) := fun hcall =>
      not_displaces_of_accepted (prioritize_of_accepted hdefault hcall priority) h
    obtain ⟨hclient, hsize⟩ := not_or.mp hcall
    have hsize := not_ne_iff.mp hsize
    have hprioritize := prioritize_of_full hdefault hclient hsize priority
    refine ⟨hsize.le, hclient, ?_⟩
    rw [lowestRequestContext_eq] at hprioritize
    cases hlast : (s.lessImportant priority).getLast? with
    | none =>
      -- no request is less important, but the new one is accepted
      rw [hlast] at hprioritize
      rw [Displaces, if_pos (getLast?_eq_none_iff.mp hlast), hprioritize] at h
      cases congrArg Prod.fst h
    | some e =>
      rw [hlast] at hprioritize
      by_cases hzero : e.1 = 0
      · exact ⟨e.2, by rw [lessImportant_eq_of_getLast? hlast hzero, ← hzero]⟩
      · -- one is found, and the new request is declined
        have hne : s.lessImportant priority ≠ [] := by
          intro hnil
          simp [hnil] at hlast
        have hdeclined : s.prioritize newClient priority = (false, s) := by
          rw [hprioritize]
          exact if_neg hzero
        rw [Displaces, if_neg hne, hdeclined] at h
        cases h.1
  · rintro ⟨hbounded, hclient, hzero⟩
    exact displaces_of_onlyClientZero hdefault hclient (le_antisymm hbounded hfull) hzero

theorem admits_iff (i : Step) : s.Admits i ↔ s.MeetsClientZero i := by
  cases i with
  | indicate sa priority =>
    refine imp_congr_right fun _ => ?_
    refine forall_congr' fun hdefault => ?_
    refine forall_congr' fun hfull => ?_
    exact displaces_iff hdefault hfull sa priority
  | _ => exact Iff.rfl

/-! ### The size of the table -/

theorem prioritize_size_le (newClient : uint16) (priority : uint8) :
    (s.prioritize newClient priority).2.requestContextTable.size ≤ s.requestContextTable.size ∧
      (s.prioritize newClient priority).2.maxParallelRequests = s.maxParallelRequests := by
  unfold prioritize
  split_ifs
  · exact ⟨le_rfl, rfl⟩
  · exact ⟨le_rfl, rfl⟩
  · exact ⟨le_rfl, rfl⟩
  · exact ⟨le_rfl, rfl⟩
  · refine ⟨Std.TreeMap.size_erase_le, ?_⟩
    cases (s.lowestRequestContext priority).2 <;> rfl
  all_goals exact ⟨le_rfl, rfl⟩

theorem bounded_indicate (hs : s.Bounded) (sa : uint16) (priority : uint8) :
    (s.indicate sa priority).2.Bounded := by
  unfold indicate
  split_ifs
  · exact hs
  · obtain ⟨hsize, hmax⟩ := s.prioritize_size_le sa priority
    rw [Bounded, hmax]
    exact hsize.trans hs

theorem bounded_takeRequest_iff (hs : s.Bounded) :
    s.takeRequest.Bounded ↔ s.HasRoom .takeRequest := by
  unfold takeRequest HasRoom
  cases hqueue : s.waitQueue with
  | nil => simp [hs]
  | cons request waiting =>
    simp only [head?_cons, Option.mem_def, Option.some.injEq, forall_eq']
    split_ifs with hactive
    · simp [hs, hactive]
    · rw [Bounded, Std.TreeMap.size_insert, if_neg hactive]
      simp only [hactive, forall_const]
      exact Nat.succ_le_iff

theorem bounded_step_iff (hs : s.Bounded) (i : Step) :
    (∃ s', s.step i = some s' ∧ s'.Bounded) ↔ s.HasRoom i := by
  cases i with
  | indicate sa priority => exact iff_of_true ⟨_, rfl, bounded_indicate hs sa priority⟩ trivial
  | takeRequest =>
    rw [← bounded_takeRequest_iff hs]
    simp [step]
  | endRequest client => exact iff_of_true ⟨_, rfl, Std.TreeMap.size_erase_le.trans hs⟩ trivial
  | _ => exact iff_of_true ⟨_, rfl, hs⟩ trivial

/-- A run from any table keeps to `maxParallelRequests` and treats each request that meets a full
table as it should exactly if the table is not too large at the start, a request is only entered
while there is room, and each request that meets a full table is that of another client than 0
and finds the request of client 0 the only one that is less important. -/
theorem admitted_iff (s : ServerImpl) (steps : List Step) :
    (Always step Bounded s steps ∧ Along step Admits s steps) ↔
      s.Bounded ∧ Along step (fun s i => s.HasRoom i ∧ s.MeetsClientZero i) s steps := by
  have hadmits : Along step Admits s steps ↔ Along step MeetsClientZero s steps :=
    ⟨Along.mono fun _ i => (admits_iff i).mp, Along.mono fun _ i => (admits_iff i).mpr⟩
  have hbounded (hs : s.Bounded) : Always step Bounded s steps ↔ Along step HasRoom s steps :=
    always_iff_along (J := fun _ => True) (fun _ _ _ _ _ _ => trivial)
      (fun _ i _ hs => bounded_step_iff hs i) trivial hs
  rw [along_and, ← hadmits]
  constructor
  · rintro ⟨halways, hadmits⟩
    exact ⟨halways.head, (hbounded halways.head).mp halways, hadmits⟩
  · rintro ⟨hs, hroom, hadmits⟩
    exact ⟨(hbounded hs).mpr hroom, hadmits⟩

/-- One request is allowed and client 5 has one with priority 7. -/
def oneActive : ServerImpl where
  maxParallelRequests := 1
  requestContextTable := (∅ : Std.TreeMap uint16 uint8).insert 5 7

/-- A more important request is declined; a less important one is accepted, nothing is removed for
it, and with it the table has two entries. -/
theorem not_admitted :
    oneActive.lessImportant 3 = [(5, 7)] ∧ (oneActive.prioritize 9 3).1 = false ∧
      oneActive.lessImportant 8 = [] ∧ (oneActive.prioritize 9 8).1 = true ∧
      ∃ s, exec step oneActive [.indicate 9 8, .handleMessage ⟨9, 8⟩, .takeRequest] = some s ∧
        s.requestContextTable.toList = [(5, 7), (9, 8)] ∧ s.maxParallelRequests = 1 :=
  ⟨by decide, by decide, by decide, by decide, _, rfl, by decide, rfl⟩

end AdaptivePlatform.Diag.ServerImpl
