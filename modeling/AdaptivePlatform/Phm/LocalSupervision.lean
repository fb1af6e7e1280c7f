import AdaptivePlatform.Foundations.Bytes
import AdaptivePlatform.Phm.LogicalSupervision

/-!
# Local supervision

A local supervision combines the results of its base supervisions. Incorrect
alive supervisions are tolerated: their number, less the number of correct ones,
is a walk that is reflected at zero, and the status expires where it exceeds the
tolerance. An incorrect deadline or logical supervision expires at once.
-/
namespace AdaptivePlatform.Phm

inductive BaseSupervisionType
  | alive
  | deadline
  | logical
  deriving DecidableEq, Repr

inductive LocalSupervisionStatus
  | ok
  | failed
  | expired
  | deactivated
  deriving DecidableEq, Repr

/-- What a local supervision asks its base supervisions. -/
structure BaseSupervision where
  active : Bool
  status : BaseSupervisionStatus
  type : BaseSupervisionType

/-- The members of `LocalSupervision` that change. -/
structure LocalSupervision where
  status : LocalSupervisionStatus
  failedSupervisionReferenceCycles : uint32

namespace LocalSupervision

def create : LocalSupervision where
  status := .deactivated
  failedSupervisionReferenceCycles := 0

section

variable (tolerance : uint32) (sv : LocalSupervision) (type : BaseSupervisionType)
  (baseStatus : BaseSupervisionStatus)

/-- The branch for an alive supervision in the status `OK`, and again in `Deactivated`. -/
def firstAliveResult : LocalSupervision :=
  match baseStatus with
  | .correct => { sv with status := .ok }
  | .inCorrect =>
    if tolerance = 0 then { sv with status := .expired }
    else
      { status := .failed
        failedSupervisionReferenceCycles := sv.failedSupervisionReferenceCycles + 1 }

def baseSupervisionStatusUpdated : LocalSupervision :=
  match sv.status, type with
  | .expired, _ => sv
  | _, .deadline | _, .logical =>
    if baseStatus = .inCorrect then { sv with status := .expired } else sv
  | .ok, .alive => firstAliveResult tolerance sv baseStatus
  | .deactivated, .alive => firstAliveResult tolerance sv baseStatus
  | .failed, .alive =>
    let cycles := sv.failedSupervisionReferenceCycles
    match baseStatus with
    | .correct =>
      if 1 < cycles then { status := .failed, failedSupervisionReferenceCycles := cycles - 1 }
      else { status := .ok, failedSupervisionReferenceCycles := cycles - 1 }
    | .inCorrect =>
      if cycles < tolerance then
        { status := .failed, failedSupervisionReferenceCycles := cycles + 1 }
      else { sv with status := .expired }

def switchSupervisionMode (baseSupervision : List BaseSupervision) : LocalSupervision :=
  let active := baseSupervision.filter fun base => base.active
  let incorrect := active.filter fun base => base.status = .inCorrect
  let aliveIsIncorrect := incorrect.any fun base => base.type = .alive
  let deadlineOrLogicalIsIncorrect := incorrect.any fun base => base.type ≠ .alive
  if active ≠ [] then
    match sv.status with
    | .deactivated => { sv with status := .ok }
    | .failed =>
      if aliveIsIncorrect = false then { status := .ok, failedSupervisionReferenceCycles := 0 }
      else sv
    | .expired =>
      if ¬ (deadlineOrLogicalIsIncorrect ∨
          aliveIsIncorrect ∧ tolerance ≤ sv.failedSupervisionReferenceCycles) then
        { status := .ok, failedSupervisionReferenceCycles := 0 }
      else sv
    | .ok => sv
  else { status := .deactivated, failedSupervisionReferenceCycles := 0 }

/-- What happens to a local supervision. -/
inductive Event
  | result (type : BaseSupervisionType) (baseStatus : BaseSupervisionStatus)
  | switchMode (baseSupervision : List BaseSupervision)

def step : Event → LocalSupervision
  | .result type baseStatus => sv.baseSupervisionStatusUpdated tolerance type baseStatus
  | .switchMode baseSupervision => sv.switchSupervisionMode tolerance baseSupervision

end

/-- Everything an event can do: the first constructors are results, the last two
mode switches. -/
inductive Updated (tolerance : uint32) : LocalSupervision → LocalSupervision → Prop
  | kept (sv : LocalSupervision) : Updated tolerance sv sv
  | expires (status : LocalSupervisionStatus) (cycles : uint32) :
    Updated tolerance ⟨status, cycles⟩ ⟨.expired, cycles⟩
  | fails {status : LocalSupervisionStatus} (cycles : uint32)
    (hstatus : status = .ok ∨ status = .deactivated) (htolerance : tolerance ≠ 0) :
    Updated tolerance ⟨status, cycles⟩ ⟨.failed, cycles + 1⟩
  | failsAgain {cycles : uint32} (hcycles : cycles < tolerance) :
    Updated tolerance ⟨.failed, cycles⟩ ⟨.failed, cycles + 1⟩
  | improves {cycles : uint32} (hcycles : 1 < cycles) :
    Updated tolerance ⟨.failed, cycles⟩ ⟨.failed, cycles - 1⟩
  | recovers {cycles : uint32} (hcycles : ¬ 1 < cycles) :
    Updated tolerance ⟨.failed, cycles⟩ ⟨.ok, cycles - 1⟩
  | activated (cycles : uint32) : Updated tolerance ⟨.deactivated, cycles⟩ ⟨.ok, cycles⟩
  | reset (sv : LocalSupervision) {status : LocalSupervisionStatus}
    (hstatus : status = .ok ∨ status = .deactivated) : Updated tolerance sv ⟨status, 0⟩

variable (tolerance : uint32) (sv : LocalSupervision)

theorem updated_firstAliveResult {status : LocalSupervisionStatus}
    (hstatus : status = .ok ∨ status = .deactivated) (cycles : uint32)
    (baseStatus : BaseSupervisionStatus) :
    Updated tolerance ⟨status, cycles⟩ (firstAliveResult tolerance ⟨status, cycles⟩ baseStatus) := by
  cases baseStatus with
  | correct =>
    rcases hstatus with rfl | rfl
    · exact .kept _
    · exact .activated cycles
  | inCorrect =>
    simp only [firstAliveResult]
    split_ifs with hzero
    · exact .expires status cycles
    · exact .fails cycles hstatus hzero

theorem updated_result (type : BaseSupervisionType) (baseStatus : BaseSupervisionStatus) :
    Updated tolerance sv (sv.baseSupervisionStatusUpdated tolerance type baseStatus) := by
  obtain ⟨status, cycles⟩ := sv
  have hexpires : Updated tolerance ⟨status, cycles⟩
      (if baseStatus = .inCorrect then ⟨.expired, cycles⟩ else ⟨status, cycles⟩) := by
    split_ifs
    · exact .expires status cycles
    · exact .kept _
  cases status with
  | expired => exact .kept _
  | ok =>
    cases type with
    | alive => exact updated_firstAliveResult tolerance (.inl rfl) cycles baseStatus
    | deadline | logical => exact hexpires
  | deactivated =>
    cases type with
    | alive => exact updated_firstAliveResult tolerance (.inr rfl) cycles baseStatus
    | deadline | logical => exact hexpires
  | failed =>
    cases type with
    | alive =>
      cases baseStatus with
      | correct =>
        simp only [baseSupervisionStatusUpdated]
        split_ifs with hcycles
        · exact .improves hcycles
        · exact .recovers hcycles
      | inCorrect =>
        simp only [baseSupervisionStatusUpdated]
        split_ifs with hcycles
        · exact .failsAgain hcycles
        · exact .expires _ cycles
    | deadline | logical => exact hexpires

theorem updated_switchMode (baseSupervision : List BaseSupervision) :
    Updated tolerance sv (sv.switchSupervisionMode tolerance baseSupervision) := by
  obtain ⟨status, cycles⟩ := sv
  unfold switchSupervisionMode
  generalize baseSupervision.filter (fun base => base.active) = active
  by_cases hactive : active ≠ []
  · simp only [if_pos hactive]
    cases status with
    | ok => exact .kept _
    | deactivated => exact .activated cycles
    | failed =>
      simp only
      split_ifs
      · exact .reset _ (.inl rfl)
      · exact .kept _
    | expired =>
      simp only
      split_ifs
      · exact .kept _
      · exact .reset _ (.inl rfl)
  · simp only [if_neg hactive]
    exact .reset _ (.inr rfl)

theorem updated_step (event : Event) : Updated tolerance sv (step tolerance sv event) := by
  cases event with
  | result type baseStatus => exact updated_result tolerance sv type baseStatus
  | switchMode baseSupervision => exact updated_switchMode tolerance sv baseSupervision

/-- While it fails, the number of failed cycles is between one and the tolerance;
while it does not, it is zero. -/
def Counted (tolerance : uint32) (sv : LocalSupervision) : Prop :=
  match sv.status with
  | .ok | .deactivated => sv.failedSupervisionReferenceCycles = 0
  | .failed => 0 < sv.failedSupervisionReferenceCycles ∧
      sv.failedSupervisionReferenceCycles ≤ tolerance
  | .expired => sv.failedSupervisionReferenceCycles ≤ tolerance

theorem Counted.updated {tolerance : uint32} {sv after : LocalSupervision}
    (h : Counted tolerance sv) (hupdated : Updated tolerance sv after) :
    Counted tolerance after ∧ after.failedSupervisionReferenceCycles.toNat ≤
      sv.failedSupervisionReferenceCycles.toNat + 1 := by
  cases hupdated with
  | kept => exact ⟨h, Nat.le_succ _⟩
  | expires status cycles =>
    refine ⟨?_, Nat.le_succ _⟩
    cases status <;> simp only [Counted] at h ⊢ <;> bv_omega
  | fails cycles hstatus htolerance =>
    have hzero : cycles = 0 := by rcases hstatus with rfl | rfl <;> exact h
    simp only [Counted]
    bv_omega
  | failsAgain hcycles =>
    simp only [Counted] at h ⊢
    bv_omega
  | improves hcycles =>
    simp only [Counted] at h ⊢
    bv_omega
  | recovers hcycles =>
    simp only [Counted] at h ⊢
    bv_omega
  | activated cycles => exact ⟨h, Nat.le_succ _⟩
  | reset sv hstatus => rcases hstatus with rfl | rfl <;> simp [Counted]

theorem Counted.run {tolerance : uint32} {sv : LocalSupervision} (h : Counted tolerance sv)
    (history : List Event) : Counted tolerance (history.foldl (step tolerance) sv) := by
  induction history generalizing sv with
  | nil => exact h
  | cons event rest ih => exact ih (h.updated (updated_step tolerance sv event)).1

section

/-- The walk that counts incorrect results up and correct ones down to zero. -/
def walk : ℕ → List BaseSupervisionStatus → ℕ
  | n, [] => n
  | n, .inCorrect :: rest => walk (n + 1) rest
  | n, .correct :: rest => walk (n - 1) rest

/-- The walk from `n` has exceeded the tolerance at some of the results. -/
def Exceeds (tolerance n : ℕ) (results : List BaseSupervisionStatus) : Prop :=
  ∃ seen, seen <+: results ∧ tolerance < walk n seen

def aliveResults (tolerance : uint32) (sv : LocalSupervision)
    (results : List BaseSupervisionStatus) : LocalSupervision :=
  results.foldl (fun sv result => sv.baseSupervisionStatusUpdated tolerance .alive result) sv

variable {tolerance : uint32} {sv : LocalSupervision} {n : ℕ}

theorem walk_cons (n : ℕ) (result : BaseSupervisionStatus) (rest : List BaseSupervisionStatus) :
    walk n (result :: rest) = walk (walk n [result]) rest := by
  cases result <;> rfl

theorem exceeds_cons {tolerance : ℕ} (hn : n ≤ tolerance) (result : BaseSupervisionStatus)
    (rest : List BaseSupervisionStatus) :
    Exceeds tolerance n (result :: rest) ↔ Exceeds tolerance (walk n [result]) rest := by
  constructor
  · rintro ⟨seen, hseen, hlt⟩
    cases seen with
    | nil => exact absurd hlt (Nat.not_lt.mpr hn)
    | cons first seen =>
      obtain ⟨rfl, hrest⟩ := List.cons_prefix_cons.mp hseen
      exact ⟨seen, hrest, walk_cons n first seen ▸ hlt⟩
  · rintro ⟨seen, hseen, hlt⟩
    exact ⟨result :: seen, List.cons_prefix_cons.mpr ⟨rfl, hseen⟩, walk_cons n result seen ▸ hlt⟩

/-- Status and counter where the walk is at `n`. -/
structure AtWalk (tolerance : uint32) (sv : LocalSupervision) (n : ℕ) : Prop where
  le : n ≤ tolerance.toNat
  cycles : sv.failedSupervisionReferenceCycles.toNat = n
  status : sv.status = if n = 0 then .ok else .failed

theorem updated_of_expired (tolerance : uint32) (hstatus : sv.status = .expired)
    (type : BaseSupervisionType) (result : BaseSupervisionStatus) :
    sv.baseSupervisionStatusUpdated tolerance type result = sv := by
  unfold baseSupervisionStatusUpdated
  rw [hstatus]

theorem aliveResults_of_expired (tolerance : uint32) (hstatus : sv.status = .expired)
    (results : List BaseSupervisionStatus) : aliveResults tolerance sv results = sv := by
  induction results with
  | nil => rfl
  | cons result rest ih =>
    rw [aliveResults, List.foldl_cons, updated_of_expired tolerance hstatus]
    exact ih

section

variable (h : AtWalk tolerance sv n)

include h

/-- One result is one step of the walk, until it exceeds the tolerance. -/
theorem AtWalk.result (result : BaseSupervisionStatus) :
    if walk n [result] ≤ tolerance.toNat then
      AtWalk tolerance (sv.baseSupervisionStatusUpdated tolerance .alive result) (walk n [result])
    else (sv.baseSupervisionStatusUpdated tolerance .alive result).status = .expired := by
  obtain ⟨status, cycles⟩ := sv
  obtain ⟨hle, rfl, hstatus⟩ := h
  by_cases hzero : cycles.toNat = 0
  · obtain rfl : status = .ok := hstatus.trans (if_pos hzero)
    cases result with
    | correct =>
      simp only [hzero]
      exact ⟨Nat.zero_le _, hzero, rfl⟩
    | inCorrect =>
      simp only [walk, baseSupervisionStatusUpdated, firstAliveResult]
      by_cases htolerance : tolerance = 0
      · rw [if_neg (by bv_omega), if_pos htolerance]
      · rw [if_pos (by bv_omega), if_neg htolerance]
        exact ⟨by bv_omega, by bv_omega, rfl⟩
  · obtain rfl : status = .failed := hstatus.trans (if_neg hzero)
    cases result with
    | correct =>
      simp only [walk, baseSupervisionStatusUpdated] at *
      rw [if_pos (by omega)]
      by_cases hone : 1 < cycles
      · rw [if_pos hone]
        exact ⟨by omega, by bv_omega, (if_neg (by bv_omega)).symm⟩
      · rw [if_neg hone]
        exact ⟨by omega, by bv_omega, (if_pos (by bv_omega)).symm⟩
    | inCorrect =>
      simp only [walk, baseSupervisionStatusUpdated] at *
      by_cases hlt : cycles < tolerance
      · rw [if_pos (by bv_omega), if_pos hlt]
        exact ⟨by bv_omega, by bv_omega, (if_neg (by omega)).symm⟩
      · rw [if_neg (by bv_omega), if_neg hlt]

theorem AtWalk.run (results : List BaseSupervisionStatus) :
    ((aliveResults tolerance sv results).status = .expired ↔ Exceeds tolerance.toNat n results) ∧
    (¬ Exceeds tolerance.toNat n results →
      AtWalk tolerance (aliveResults tolerance sv results) (walk n results)) := by
  induction results generalizing sv n with
  | nil =>
    have hnot : ¬ Exceeds tolerance.toNat n [] := by
      rintro ⟨seen, hseen, hlt⟩
      obtain rfl := List.prefix_nil.mp hseen
      exact absurd hlt (Nat.not_lt.mpr h.le)
    refine ⟨?_, fun _ => h⟩
    simp only [hnot, iff_false]
    intro hexpired
    have hstatus := h.status
    rw [show sv.status = .expired from hexpired] at hstatus
    split_ifs at hstatus
  | cons result rest ih =>
    have hone := h.result result
    rw [exceeds_cons h.le, walk_cons n result rest]
    split_ifs at hone with hle
    · exact ih hone
    · have hexceeds : Exceeds tolerance.toNat (walk n [result]) rest :=
        ⟨[], List.nil_prefix, Nat.lt_of_not_le hle⟩
      have hafter : aliveResults tolerance sv (result :: rest) =
          sv.baseSupervisionStatusUpdated tolerance .alive result :=
        aliveResults_of_expired tolerance hone rest
      exact ⟨iff_of_true (hafter ▸ hone) hexceeds, fun hnot => absurd hexceeds hnot⟩

theorem AtWalk.status_ok_iff : sv.status = .ok ↔ n = 0 := by
  rw [h.status]
  split_ifs with hzero <;> simp [hzero]

theorem AtWalk.status_failed_iff : sv.status = .failed ↔ n ≠ 0 := by
  rw [h.status]
  split_ifs with hzero <;> simp [hzero]

end

end

/-- After any history of results and mode switches: without a failure the counter
is zero; it never rises by more than one, so it never wraps below zero; no result
leaves `Expired`; and from `OK` the alive results follow the walk, with `Expired`
from the first result on at which it exceeds the tolerance. -/
theorem localSupervision_follows_walk (tolerance : uint32) (history : List Event) :
    let sv := history.foldl (step tolerance) create
    (sv.status = .ok ∨ sv.status = .deactivated → sv.failedSupervisionReferenceCycles = 0) ∧
    (∀ event, (step tolerance sv event).failedSupervisionReferenceCycles.toNat ≤
      sv.failedSupervisionReferenceCycles.toNat + 1) ∧
    (sv.status = .expired → ∀ type result,
      sv.baseSupervisionStatusUpdated tolerance type result = sv) ∧
    (sv.status = .ok → ∀ results,
      ((aliveResults tolerance sv results).status = .expired ↔ Exceeds tolerance.toNat 0 results) ∧
      (¬ Exceeds tolerance.toNat 0 results →
        ((aliveResults tolerance sv results).status = .ok ↔ walk 0 results = 0) ∧
        ((aliveResults tolerance sv results).status = .failed ↔ walk 0 results ≠ 0))) := by
  intro sv
  have hcreate : Counted tolerance create := rfl
  have hcounted : Counted tolerance sv := hcreate.run history
  have hzero : sv.status = .ok ∨ sv.status = .deactivated →
      sv.failedSupervisionReferenceCycles = 0 := by
    unfold Counted at hcounted
    rintro (hstatus | hstatus) <;> simpa [hstatus] using hcounted
  refine ⟨hzero, ?_, ?_, ?_⟩
  · intro event
    exact (hcounted.updated (updated_step tolerance sv event)).2
  · intro hstatus type result
    exact updated_of_expired tolerance hstatus type result
  · intro hstatus results
    have hstart : AtWalk tolerance sv 0 :=
      ⟨Nat.zero_le _, by rw [hzero (.inl hstatus)]; rfl, hstatus⟩
    obtain ⟨hexpired, hwalk⟩ := hstart.run results
    refine ⟨hexpired, fun hnot => ?_⟩
    exact ⟨(hwalk hnot).status_ok_iff, (hwalk hnot).status_failed_iff⟩

theorem localSupervision_follows_walk_toleranceOne :
    (aliveResults 1 (step 1 create (.switchMode [⟨true, .correct, .alive⟩]))
      [.inCorrect, .inCorrect]).status = .expired := by
  have hwalk := localSupervision_follows_walk 1 [.switchMode [⟨true, .correct, .alive⟩]]
  have hexceeds : Exceeds 1 0 [.inCorrect, .inCorrect] := ⟨_, List.prefix_rfl, by decide⟩
  exact (hwalk.2.2.2 rfl _).1.mpr hexceeds

end LocalSupervision

end AdaptivePlatform.Phm
