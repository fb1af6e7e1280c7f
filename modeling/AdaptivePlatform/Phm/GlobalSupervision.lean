import AdaptivePlatform.Phm.LocalSupervision

/-!
# Global supervision

In each supervision cycle a global supervision derives its status from those of
its local supervisions. It counts the cycles that saw an expired one and stops
when they exceed the tolerance. A cycle that finds all local supervisions
deactivated deactivates it, and no later cycle changes that: only a mode switch
does. A mode switch also lets a failed or an expired supervision return to `OK`.
-/
namespace AdaptivePlatform.Phm

inductive GlobalSupervisionStatus
  | deactivated
  | ok
  | failed
  | expired
  | stopped
  deriving DecidableEq, Repr

/-- The members of `GlobalSupervision` that a cycle changes. -/
structure GlobalSupervision where
  status : GlobalSupervisionStatus
  expiredSupervisionCycle : uint32

namespace GlobalSupervision

def AllDeactivated (locals : List LocalSupervisionStatus) : Prop :=
  ∀ status ∈ locals, status = .deactivated

instance decidableAllDeactivated (locals : List LocalSupervisionStatus) :
    Decidable (AllDeactivated locals) :=
  inferInstanceAs (Decidable (∀ status ∈ locals, status = .deactivated))

variable (tolerance : uint32) (sv : GlobalSupervision)

/-- The branch for the status `OK`, and in another order for `Failed`. -/
def determineRunning (localIsFailed localIsExpired : Bool) : GlobalSupervision :=
  if ¬ localIsExpired ∧ ¬ localIsFailed then { sv with status := .ok }
  else if localIsFailed ∧ ¬ localIsExpired then { sv with status := .failed }
  else if localIsExpired ∧ 0 < tolerance then
    { status := .expired, expiredSupervisionCycle := sv.expiredSupervisionCycle + 1 }
  else if localIsExpired ∧ tolerance = 0 then { sv with status := .stopped }
  else sv

/-- The branch for the status `Expired`. -/
def determineExpired (localIsExpired : Bool) : GlobalSupervision :=
  if localIsExpired ∧ sv.expiredSupervisionCycle < tolerance then
    { status := .expired, expiredSupervisionCycle := sv.expiredSupervisionCycle + 1 }
  else if localIsExpired ∧ sv.expiredSupervisionCycle = tolerance then
    { sv with status := .stopped }
  else sv

/-- `_determineStatus`, for the statuses of the local supervisions. -/
def determineStatus (locals : List LocalSupervisionStatus) : GlobalSupervision :=
  let localIsFailed := locals.any (· = .failed)
  let localIsExpired := locals.any (· = .expired)
  if AllDeactivated locals then { status := .deactivated, expiredSupervisionCycle := 0 }
  else
    match sv.status with
    | .ok | .failed => determineRunning tolerance sv localIsFailed localIsExpired
    | .expired => determineExpired tolerance sv localIsExpired
    | .stopped | .deactivated => sv

/-- The cycles that saw an expired local supervision. -/
def expiredCycles (cycles : List (List LocalSupervisionStatus)) : ℕ :=
  cycles.countP fun locals => locals.any (· = .expired)

/-- The status and the counter from which the cycles are watched. -/
def running : GlobalSupervision where
  status := .ok
  expiredSupervisionCycle := 0

/-- Status and counter after `n` cycles that saw an expired local supervision. -/
inductive Counts (tolerance : uint32) : GlobalSupervision → ℕ → Prop
  | running {status : GlobalSupervisionStatus} (hstatus : status = .ok ∨ status = .failed) :
    Counts tolerance ⟨status, 0⟩ 0
  | expired {cycle : uint32} (hpos : 0 < cycle) (hle : cycle ≤ tolerance) :
    Counts tolerance ⟨.expired, cycle⟩ cycle.toNat
  | stopped (cycle : uint32) {n : ℕ} (hlt : tolerance.toNat < n) :
    Counts tolerance ⟨.stopped, cycle⟩ n

variable {tolerance sv} {n : ℕ}
  {locals : List LocalSupervisionStatus} {cycles : List (List LocalSupervisionStatus)}

theorem counts_determineRunning (tolerance : uint32) (status : GlobalSupervisionStatus)
    (localIsFailed localIsExpired : Bool) :
    Counts tolerance (determineRunning tolerance ⟨status, 0⟩ localIsFailed localIsExpired)
      localIsExpired.toNat := by
  cases localIsExpired with
  | false =>
    cases localIsFailed with
    | false => exact .running (.inl rfl)
    | true => exact .running (.inr rfl)
  | true =>
    by_cases htolerance : tolerance = 0
    · have hafter : determineRunning tolerance ⟨status, 0⟩ localIsFailed true = ⟨.stopped, 0⟩ := by
        simp [determineRunning, htolerance]
      rw [hafter, htolerance]
      exact .stopped 0 Nat.one_pos
    · have hpos : 0#32 < tolerance := by bv_omega
      have hafter : determineRunning tolerance ⟨status, 0⟩ localIsFailed true = ⟨.expired, 1⟩ := by
        simp [determineRunning, hpos]
      rw [hafter]
      exact .expired (by decide) (by bv_omega)

theorem counts_determineExpired {cycle : uint32} (hpos : 0 < cycle) (hle : cycle ≤ tolerance)
    (localIsExpired : Bool) :
    Counts tolerance (determineExpired tolerance ⟨.expired, cycle⟩ localIsExpired)
      (cycle.toNat + localIsExpired.toNat) := by
  cases localIsExpired with
  | false => exact .expired hpos hle
  | true =>
    simp only [determineExpired, true_and, Bool.toNat_true]
    split_ifs with hlt heq
    · have hsucc : cycle.toNat + 1 = (cycle + 1).toNat := by bv_omega
      rw [hsucc]
      exact .expired (by bv_omega) (by bv_omega)
    · exact .stopped cycle (by bv_omega)
    · bv_omega

theorem Counts.determineStatus (h : Counts tolerance sv n) (hlocals : ¬ AllDeactivated locals) :
    Counts tolerance (sv.determineStatus tolerance locals)
      (n + (locals.any (· = .expired)).toNat) := by
  rw [GlobalSupervision.determineStatus, if_neg hlocals]
  cases h with
  | running hstatus =>
    rw [Nat.zero_add]
    rcases hstatus with rfl | rfl <;> exact counts_determineRunning tolerance _ _ _
  | expired hpos hle => exact counts_determineExpired hpos hle _
  | stopped cycle hlt => exact .stopped cycle (by omega)

theorem determineStatus_of_allDeactivated (tolerance : uint32) (sv : GlobalSupervision)
    (h : AllDeactivated locals) : sv.determineStatus tolerance locals = ⟨.deactivated, 0⟩ :=
  if_pos h

theorem determineStatus_deactivated (tolerance : uint32) (locals : List LocalSupervisionStatus) :
    determineStatus tolerance ⟨.deactivated, 0⟩ locals = ⟨.deactivated, 0⟩ := by
  unfold determineStatus
  split_ifs <;> rfl

def run (tolerance : uint32) (sv : GlobalSupervision)
    (cycles : List (List LocalSupervisionStatus)) : GlobalSupervision :=
  cycles.foldl (determineStatus tolerance) sv

theorem run_deactivated (tolerance : uint32) (cycles : List (List LocalSupervisionStatus)) :
    run tolerance ⟨.deactivated, 0⟩ cycles = ⟨.deactivated, 0⟩ := by
  induction cycles with
  | nil => rfl
  | cons locals rest ih =>
    rw [run, List.foldl_cons, determineStatus_deactivated]
    exact ih

theorem run_of_allDeactivated (tolerance : uint32) (sv : GlobalSupervision)
    (h : ∃ locals ∈ cycles, AllDeactivated locals) :
    run tolerance sv cycles = ⟨.deactivated, 0⟩ := by
  obtain ⟨locals, hmem, hlocals⟩ := h
  obtain ⟨before, after, rfl⟩ := List.append_of_mem hmem
  rw [run, List.foldl_append, List.foldl_cons,
    determineStatus_of_allDeactivated tolerance _ hlocals]
  exact run_deactivated tolerance after

theorem Counts.run (h : Counts tolerance sv n)
    (hcycles : ∀ locals ∈ cycles, ¬ AllDeactivated locals) :
    Counts tolerance (run tolerance sv cycles) (n + expiredCycles cycles) := by
  induction cycles generalizing sv n with
  | nil => exact h
  | cons locals rest ih =>
    have hone := h.determineStatus (hcycles locals List.mem_cons_self)
    have hrest := ih hone fun l hl => hcycles l (List.mem_cons_of_mem _ hl)
    have hcount : n + expiredCycles (locals :: rest) =
        n + (locals.any (· = .expired)).toNat + expiredCycles rest := by
      rw [expiredCycles, List.countP_cons, expiredCycles]
      cases locals.any (· = .expired) with
      | false => simp
      | true =>
        simp only [if_true, Bool.toNat_true]
        omega
    rw [hcount]
    exact hrest

theorem Counts.stopped_iff (h : Counts tolerance sv n) :
    sv.status = .stopped ↔ tolerance.toNat < n := by
  cases h with
  | running hstatus => rcases hstatus with rfl | rfl <;> simp
  | expired hpos hle =>
    simp only [reduceCtorEq, false_iff]
    bv_omega
  | stopped cycle hlt => simp [hlt]

theorem Counts.expired_iff (h : Counts tolerance sv n) :
    sv.status = .expired ↔ 0 < n ∧ n ≤ tolerance.toNat := by
  cases h with
  | running hstatus => rcases hstatus with rfl | rfl <;> simp
  | expired hpos hle =>
    simp only [true_iff]
    bv_omega
  | stopped cycle hlt =>
    simp only [reduceCtorEq, false_iff]
    omega

/-- Until a cycle finds all local supervisions deactivated, the status is `Stopped`
from the cycle on in which the expired cycles exceed the tolerance, and `Expired`
from the first one until then. That cycle deactivates it, and later cycles leave
it so. -/
theorem globalSupervision_counts_expired (tolerance : uint32)
    (cycles : List (List LocalSupervisionStatus)) :
    ((∀ locals ∈ cycles, ¬ AllDeactivated locals) →
      ((run tolerance running cycles).status = .stopped ↔ tolerance.toNat < expiredCycles cycles) ∧
      ((run tolerance running cycles).status = .expired ↔
        0 < expiredCycles cycles ∧ expiredCycles cycles ≤ tolerance.toNat) ∧
      ∀ more, (∀ locals ∈ more, ¬ AllDeactivated locals) →
        ((run tolerance running cycles).status = .stopped →
          (run tolerance running (cycles ++ more)).status = .stopped) ∧
        ((run tolerance running cycles).status = .expired →
          (run tolerance running (cycles ++ more)).status = .expired ∨
            (run tolerance running (cycles ++ more)).status = .stopped)) ∧
    ((∃ locals ∈ cycles, AllDeactivated locals) →
      run tolerance running cycles = { status := .deactivated, expiredSupervisionCycle := 0 }) := by
  have hstart : Counts tolerance running 0 := .running (.inl rfl)
  refine ⟨fun hcycles => ?_, run_of_allDeactivated tolerance running⟩
  have hcounts := Nat.zero_add (expiredCycles cycles) ▸ hstart.run hcycles
  refine ⟨hcounts.stopped_iff, hcounts.expired_iff, fun more hmore => ?_⟩
  have hafter : Counts tolerance (run tolerance running (cycles ++ more))
      (expiredCycles cycles + expiredCycles more) := by
    rw [run, List.foldl_append]
    exact hcounts.run hmore
  rw [hcounts.stopped_iff, hcounts.expired_iff, hafter.stopped_iff, hafter.expired_iff]
  omega

/-- The expired cycles since the last cycle that found all deactivated. -/
def expiredCyclesSince (cycles : List (List LocalSupervisionStatus)) : ℕ :=
  expiredCycles (cycles.reverse.takeWhile fun locals => ¬ AllDeactivated locals)

/-- After a deactivated cycle an expired one does not stop even with tolerance zero. -/
theorem deactivated_never_stops :
    ¬ ((run 0 running [[.deactivated], [.expired]]).status = .stopped ↔
      (0 : uint32).toNat < expiredCyclesSince [[.deactivated], [.expired]]) := by
  decide

theorem globalSupervision_counts_expired_toleranceOne :
    (run 1 running [[.ok, .expired], [.failed], [.expired]]).status = .stopped := by
  have hcycles : ∀ locals ∈ [[LocalSupervisionStatus.ok, .expired], [.failed], [.expired]],
      ¬ AllDeactivated locals := by decide
  exact ((globalSupervision_counts_expired 1 _).1 hcycles).1.mpr (by decide)

inductive TimerCall
  | start
  | stop

/-- `SwitchSupervisionMode`, with its call on the supervision timer. -/
def switchSupervisionMode (sv : GlobalSupervision) (locals : List LocalSupervisionStatus) :
    GlobalSupervision × Option TimerCall :=
  let atLeastOneLocalSupervisionIsActive := locals.any (· ≠ .deactivated)
  -- as in the source, these two are set by a local supervision of another status
  let atLeastOneLocalSupervisionIsFailed := locals.any (· ≠ .failed)
  let alLeastOneLocalSupervisionIsExpired := locals.any (· ≠ .expired)
  let recovered : GlobalSupervision := { status := .ok, expiredSupervisionCycle := 0 }
  if atLeastOneLocalSupervisionIsActive then
    match sv.status with
    | .deactivated => ({ sv with status := .ok }, some .start)
    | .failed => (if atLeastOneLocalSupervisionIsFailed then sv else recovered, none)
    | .expired => (if alLeastOneLocalSupervisionIsExpired then sv else recovered, none)
    | .ok | .stopped => (sv, none)
  else ({ status := .deactivated, expiredSupervisionCycle := 0 }, some .stop)

/-- A mode switch returns to `OK` from `Failed` or `Expired` only when no local
supervision is against it, and does so when all of them are `OK`. -/
def RecoversSoundly (sv : GlobalSupervision) (locals : List LocalSupervisionStatus) : Prop :=
  let after := (sv.switchSupervisionMode locals).1.status
  (sv.status = .failed → after = .ok → ∀ l ∈ locals, l ≠ .failed ∧ l ≠ .expired) ∧
    (sv.status = .expired → after = .ok → ∀ l ∈ locals, l ≠ .expired) ∧
    ((∀ l ∈ locals, l = .ok) → after = .ok)

/-- From `Failed` the switch asks for all `Failed`, from `Expired` for all `Expired`. -/
theorem switchSupervisionMode_status (sv : GlobalSupervision)
    (locals : List LocalSupervisionStatus) :
    (sv.switchSupervisionMode locals).1.status = .ok ↔
      (∃ l ∈ locals, l ≠ .deactivated) ∧ sv.status ≠ .stopped ∧
        (sv.status = .failed → ∀ l ∈ locals, l = .failed) ∧
        (sv.status = .expired → ∀ l ∈ locals, l = .expired) := by
  obtain ⟨status, cycle⟩ := sv
  by_cases hactive : ∃ l ∈ locals, l ≠ .deactivated
  · cases status <;> simp [switchSupervisionMode, hactive, apply_ite GlobalSupervision.status]
  · simp [switchSupervisionMode, hactive]

/-- Where all local supervisions are `Failed` the switch recovers wrongly, where all
are `OK` it does not recover. -/
theorem recoversSoundly_iff (sv : GlobalSupervision) (hlocals : locals ≠ []) :
    RecoversSoundly sv locals ↔
      (sv.status = .failed → (∃ l ∈ locals, l ≠ .failed) ∧ ∃ l ∈ locals, l ≠ .ok) ∧
      (sv.status = .expired → (∃ l ∈ locals, l ≠ .expired) ∧ ∃ l ∈ locals, l ≠ .ok) ∧
      (sv.status = .stopped → ∃ l ∈ locals, l ≠ .ok) := by
  -- of one local supervision at most one of the conditions on all of them is true
  obtain ⟨l, hl⟩ := List.exists_mem_of_ne_nil locals hlocals
  simp only [RecoversSoundly, switchSupervisionMode_status]
  cases hstatus : sv.status <;> grind

theorem recoversSoundly_mixed : RecoversSoundly ⟨.failed, 0⟩ [.ok, .failed] :=
  (recoversSoundly_iff ⟨.failed, 0⟩ (by decide)).mpr (by decide)

/-- With its only local supervision failed, a failed global supervision returns to `OK`. -/
theorem not_recoversSoundly_failed : ¬ RecoversSoundly ⟨.failed, 0⟩ [.failed] := by
  unfold RecoversSoundly
  decide

end GlobalSupervision

end AdaptivePlatform.Phm
