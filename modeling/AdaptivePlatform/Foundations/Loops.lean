import Mathlib.Order.WellFounded

/-!
# Loops

The body of a loop leaves it with a result or comes back to its head with a new
state. `run` takes a bound on the number of passes; a loop that ends does so for
every bound that is large enough, and one that comes back to a state it has been in
never ends.
-/
namespace AdaptivePlatform.Loops

variable {σ β : Type*} {body : σ → β ⊕ σ} {s t : σ} {b : β}

def run (body : σ → β ⊕ σ) : ℕ → σ → Option β
  | 0, _ => none
  | fuel + 1, s => (body s).elim some (run body fuel)

/-- The states in which the head of the loop is reached. -/
def Visits (body : σ → β ⊕ σ) : σ → σ → Prop := Relation.ReflTransGen fun s t => body s = .inr t

def Returns (body : σ → β ⊕ σ) (s : σ) (b : β) : Prop := ∃ fuel, run body fuel s = some b

def Ends (body : σ → β ⊕ σ) (s : σ) : Prop := ∃ b, Returns body s b

theorem returns_of_inl (h : body s = .inl b) : Returns body s b := ⟨1, by simp [run, h]⟩

theorem returns_iff_of_inr (h : body s = .inr t) : Returns body s b ↔ Returns body t b := by
  constructor
  · rintro ⟨fuel, hrun⟩
    cases fuel with
    | zero => simp [run] at hrun
    | succ fuel => exact ⟨fuel, by simpa [run, h] using hrun⟩
  · rintro ⟨fuel, hrun⟩
    exact ⟨fuel + 1, by simpa [run, h] using hrun⟩

theorem Visits.ends_iff (h : Visits body s t) : Ends body s ↔ Ends body t := by
  induction h with
  | refl => exact Iff.rfl
  | tail _ hstep ih => exact ih.trans (exists_congr fun _ => returns_iff_of_inr hstep)

theorem Returns.exists_inl (h : Returns body s b) : ∃ t, body t = .inl b := by
  obtain ⟨fuel, hrun⟩ := h
  induction fuel generalizing s with
  | zero => simp [run] at hrun
  | succ fuel ih =>
    rcases hbody : body s with r | t
    · simp only [run, hbody, Sum.elim_inl, Option.some.injEq] at hrun
      exact ⟨s, by rw [hbody, hrun]⟩
    · simp only [run, hbody] at hrun
      exact ih hrun

/-- A loop whose measure goes down from pass to pass ends. -/
theorem ends_of_decreases (f : σ → ℕ)
    (h : ∀ t u, Visits body s t → body t = .inr u → f u < f t) : Ends body s := by
  induction hn : f s using Nat.strong_induction_on generalizing s with
  | _ n ih =>
    rcases hbody : body s with b | t
    · exact ⟨b, returns_of_inl hbody⟩
    · have hlt : f t < n := hn ▸ h s t .refl hbody
      have ht : Ends body t := ih _ hlt (fun u v hu => h u v (.head hbody hu)) rfl
      obtain ⟨b, hb⟩ := ht
      exact ⟨b, (returns_iff_of_inr hbody).2 hb⟩

theorem not_ends_of_fixed (h : body s = .inr s) : ¬ Ends body s := by
  rintro ⟨b, fuel, hrun⟩
  induction fuel with
  | zero => simp [run] at hrun
  | succ fuel ih => exact ih (by simpa [run, h] using hrun)

/-- The loop ends, and each pass that comes back to its head has moved the position forward, to
one between 0 and `stop`. -/
def Advances (body : σ → β ⊕ σ) (pos : σ → ℤ) (stop : ℤ) (s : σ) : Prop :=
  Ends body s ∧ ∀ t u, Visits body s t → body t = .inr u → pos t < pos u ∧ 0 ≤ pos u ∧ pos u ≤ stop

theorem advances_of_visits {pos : σ → ℤ} {stop : ℤ}
    (h : ∀ t u, Visits body s t → body t = .inr u → pos t < pos u ∧ 0 ≤ pos u ∧ pos u ≤ stop) :
    Advances body pos stop s := by
  constructor
  · apply ends_of_decreases fun t => (stop - pos t).toNat
    intro t u ht hu
    have := h t u ht hu
    omega
  · exact h

end AdaptivePlatform.Loops
