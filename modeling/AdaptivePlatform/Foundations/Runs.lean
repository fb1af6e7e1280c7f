import Mathlib.Data.List.Basic

/-!
# Runs of a partial step function

A component is a step function `step : σ → ι → Option σ`; `none` is a step the
component cannot take (an access outside an array, for instance). A run feeds a
list of inputs to it. `Always` says that a run takes every step and that a
property holds in each state it reaches, `Along` that a condition on a state
and the next input holds at each step. The rules below turn one-step facts into
facts about whole runs.
-/
namespace AdaptivePlatform.Runs

open Option

variable {σ ι : Type*}

/-- The state after a run, if every step can be taken. -/
def exec (step : σ → ι → Option σ) : σ → List ι → Option σ
  | s, [] => some s
  | s, i :: is => (step s i).bind fun s' => exec step s' is

/-- Every step of the run is taken and `Q` holds in every state reached. -/
def Always (step : σ → ι → Option σ) (Q : σ → Prop) : σ → List ι → Prop
  | s, [] => Q s
  | s, i :: is => Q s ∧ ∃ s', step s i = some s' ∧ Always step Q s' is

/-- `C` holds of the state before each step and the input of that step. -/
def Along (step : σ → ι → Option σ) (C : σ → ι → Prop) : σ → List ι → Prop
  | _, [] => True
  | s, i :: is => C s i ∧ ∀ s', step s i = some s' → Along step C s' is

variable {step : σ → ι → Option σ} {Q I : σ → Prop} {C D : σ → ι → Prop} {s t : σ} {is : List ι}
  {J : σ → Prop}

theorem exec_append (s : σ) (is js : List ι) :
    exec step s (is ++ js) = (exec step s is).bind fun t => exec step t js := by
  induction is generalizing s with
  | nil => rfl
  | cons i is ih =>
    cases hs : step s i with
    | none => simp [exec, hs]
    | some s' => simp [exec, hs, ih]

theorem Always.head (h : Always step Q s is) : Q s := by
  cases is with
  | nil => exact h
  | cons i is => exact h.1

theorem Along.mono (hcd : ∀ s i, C s i → D s i) (h : Along step C s is) : Along step D s is := by
  induction is generalizing s with
  | nil => trivial
  | cons i is ih => exact ⟨hcd s i h.1, fun s' hs => ih (h.2 s' hs)⟩

theorem Along.of_append {js : List ι} (h : Along step C s (is ++ js)) :
    Along step C s is ∧ ∀ t, exec step s is = some t → Along step C t js := by
  induction is generalizing s with
  | nil => simpa [Along, exec] using h
  | cons i is ih =>
    refine ⟨⟨h.1, fun s' hs => (ih (h.2 s' hs)).1⟩, fun t ht => ?_⟩
    obtain ⟨s', hs, ht⟩ := bind_eq_some_iff.mp ht
    exact (ih (h.2 s' hs)).2 t ht

theorem along_true (step : σ → ι → Option σ) (s : σ) (is : List ι) :
    Along step (fun _ _ => True) s is := by
  induction is generalizing s with
  | nil => trivial
  | cons i is ih => exact ⟨trivial, fun s' _ => ih s'⟩

theorem along_and : Along step (fun s i => C s i ∧ D s i) s is ↔
    Along step C s is ∧ Along step D s is := by
  induction is generalizing s with
  | nil => exact (and_self_iff).symm
  | cons i is ih =>
    simp only [Along, ih]
    constructor
    · rintro ⟨⟨hc, hd⟩, h⟩
      exact ⟨⟨hc, fun s' hs => (h s' hs).1⟩, hd, fun s' hs => (h s' hs).2⟩
    · rintro ⟨⟨hc, h⟩, hd, h'⟩
      exact ⟨⟨hc, hd⟩, fun s' hs => ⟨h s' hs, h' s' hs⟩⟩

instance decidableAlong [∀ s i, Decidable (C s i)] :
    ∀ (s : σ) (is : List ι), Decidable (Along step C s is)
  | _, [] => isTrue trivial
  | s, i :: is =>
    match hs : step s i with
    | none => decidable_of_iff (C s i)
        ⟨fun hc => ⟨hc, fun _ h => absurd (hs.symm.trans h) (Option.some_ne_none _).symm⟩, And.left⟩
    | some s' =>
      have := decidableAlong s' is
      decidable_of_iff (C s i ∧ Along step C s' is)
        ⟨fun h => ⟨h.1, fun _ ht => Option.some.inj (hs.symm.trans ht) ▸ h.2⟩,
          fun h => ⟨h.1, h.2 s' hs⟩⟩

/-- The invariant rule for the last state of a run whose steps all meet a condition. -/
theorem invariant_of_along (hstep : ∀ s i s', I s → C s i → step s i = some s' → I s') (hs : I s)
    (h : Along step C s is) (he : exec step s is = some t) : I t := by
  induction is generalizing s with
  | nil =>
    cases he
    exact hs
  | cons i is ih =>
    obtain ⟨s', hs', he⟩ := bind_eq_some_iff.mp he
    exact ih (hstep s i s' hs h.1 hs') (h.2 s' hs') he

/-- The invariant rule for runs whose steps all meet a condition. -/
theorem always_of_along (hstep : ∀ s i, I s → C s i → ∃ s', step s i = some s' ∧ I s') (hs : I s)
    (h : Along step C s is) : Always step I s is := by
  induction is generalizing s with
  | nil => exact hs
  | cons i is ih =>
    obtain ⟨s', he, hi⟩ := hstep s i hs h.1
    exact ⟨hs, s', he, ih hi (h.2 s' he)⟩

theorem Always.mono (hq : ∀ s, I s → Q s) (h : Always step I s is) : Always step Q s is := by
  induction is generalizing s with
  | nil => exact hq s h
  | cons i is ih =>
    obtain ⟨hi, s', he, h⟩ := h
    exact ⟨hq s hi, s', he, ih h⟩

theorem Always.last (h : Always step Q s is) (he : exec step s is = some t) : Q t := by
  induction is generalizing s with
  | nil =>
    cases he
    exact h
  | cons i is ih =>
    obtain ⟨_, s', hs, h⟩ := h
    refine ih h ?_
    simpa [exec, hs] using he

theorem Always.exists_exec (h : Always step Q s is) : ∃ t, exec step s is = some t := by
  induction is generalizing s with
  | nil => exact ⟨s, rfl⟩
  | cons i is ih =>
    obtain ⟨-, s', hs, h⟩ := h
    obtain ⟨t, ht⟩ := ih h
    exact ⟨t, by rw [exec, hs, bind_some, ht]⟩

/-- Where each step into a state with `Q` has met `C`, and such steps keep `I`. -/
theorem along_of_always (hstep : ∀ s i s', I s → C s i → step s i = some s' → I s')
    (hneeds : ∀ s i s', I s → step s i = some s' → Q s' → C s i) (hs : I s)
    (h : Always step Q s is) : Along step C s is := by
  induction is generalizing s with
  | nil => trivial
  | cons i is ih =>
    obtain ⟨_, s', he, h⟩ := h
    have hc : C s i := hneeds s i s' hs he h.head
    refine ⟨hc, fun t ht => ?_⟩
    obtain rfl : s' = t := some.inj (he.symm.trans ht)
    exact ih (hstep s i s' hs hc he) h

/-- The exact form of the invariant rule for a property that is weaker than the
invariant: each step that meets `C` keeps `I`, and a step into a state with `Q`
has met `C`. -/
theorem always_iff_along_of_strengthening (hweak : ∀ s, I s → Q s)
    (hstep : ∀ s i, I s → C s i → ∃ s', step s i = some s' ∧ I s')
    (hneeds : ∀ s i s', I s → step s i = some s' → Q s' → C s i) (hs : I s) :
    Always step Q s is ↔ Along step C s is := by
  refine ⟨along_of_always (fun s i s' hi hc he => ?_) hneeds hs,
    fun h => (always_of_along hstep hs h).mono hweak⟩
  obtain ⟨u, hu, hi'⟩ := hstep s i hi hc
  obtain rfl : s' = u := some.inj (he.symm.trans hu)
  exact hi'

/-- The exact form of the invariant rule. `J` is kept by every step; where `J`
holds, a step keeps `Q` precisely under `C`. Then a run keeps `Q` precisely
when all its steps meet `C`. -/
theorem always_iff_along (hinv : ∀ s i s', J s → Q s → step s i = some s' → J s')
    (hstep : ∀ s i, J s → Q s → ((∃ s', step s i = some s' ∧ Q s') ↔ C s i)) (hj : J s) (hq : Q s) :
    Always step Q s is ↔ Along step C s is := by
  apply always_iff_along_of_strengthening (I := fun s => J s ∧ Q s) (fun _ hs => hs.2) ?_ ?_
    ⟨hj, hq⟩
  · intro s i hs hc
    obtain ⟨s', he, hq'⟩ := (hstep s i hs.1 hs.2).mpr hc
    exact ⟨s', he, hinv s i s' hs.1 hs.2 he, hq'⟩
  · intro s i s' hs he hq'
    exact (hstep s i hs.1 hs.2).mp ⟨s', he, hq'⟩

theorem always_iff_along_of_exec (hweak : ∀ s, I s → Q s)
    (hstep : ∀ s i s', I s → C s i → step s i = some s' → I s')
    (hneeds : ∀ s i s', I s → step s i = some s' → Q s' → C s i) (hs : I s)
    (he : exec step s is = some t) : Always step Q s is ↔ Along step C s is := by
  refine ⟨along_of_always hstep hneeds hs, fun h => ?_⟩
  induction is generalizing s with
  | nil => exact hweak s hs
  | cons i is ih =>
    obtain ⟨s', hs', he⟩ := bind_eq_some_iff.mp he
    exact ⟨hweak s hs, s', hs', ih (hstep s i s' hs h.1 hs') he (h.2 s' hs')⟩

/-- An invariant that mentions the inputs seen so far. -/
theorem exec_history {J : List ι → σ → Prop}
    (hstep : ∀ seen s i s', J seen s → C s i → step s i = some s' → J (seen ++ [i]) s')
    {seen : List ι} {s' : σ} (hj : J seen s) (h : Along step C s is)
    (he : exec step s is = some s') : J (seen ++ is) s' := by
  induction is generalizing s seen with
  | nil =>
    cases he
    simpa using hj
  | cons i is ih =>
    obtain ⟨t, ht, he⟩ := bind_eq_some_iff.mp he
    have := ih (hstep seen s i t hj h.1 ht) (h.2 t ht) he
    simpa using this

theorem along_congr (hinv : ∀ s i s', J s → step s i = some s' → J s')
    (hiff : ∀ s i s', J s → step s i = some s' → (C s i ↔ D s i)) (hj : J s)
    (he : exec step s is = some t) : Along step C s is ↔ Along step D s is := by
  induction is generalizing s with
  | nil => exact Iff.rfl
  | cons i is ih =>
    obtain ⟨s', hs, he⟩ := bind_eq_some_iff.mp he
    have htail := ih (hinv s i s' hj hs) he
    refine and_congr (hiff s i s' hj hs) ?_
    simp only [hs, some.injEq, forall_eq']
    exact htail

/-- Two conditions that agree where `J` holds, if a step that meets the second keeps `J`. -/
theorem along_iff_along (hinv : ∀ s i s', J s → D s i → step s i = some s' → J s')
    (hiff : ∀ s i, J s → (C s i ↔ D s i)) (hj : J s) : Along step C s is ↔ Along step D s is := by
  induction is generalizing s with
  | nil => exact Iff.rfl
  | cons i is ih =>
    rw [Along, Along, hiff s i hj]
    exact and_congr_right fun hd => forall₂_congr fun s' hs => ih (hinv s i s' hj hd hs)

end AdaptivePlatform.Runs
