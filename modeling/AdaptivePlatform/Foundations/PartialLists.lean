import Mathlib.Data.List.Basic

/-!
# Lists computed by partial functions

Where a step may have no result, neither has the fold or the map over a list
that takes it. If there is a result, what holds of each step holds of the whole.
-/
namespace AdaptivePlatform.PartialLists

variable {α β γ : Type*} {l : List α} {f : α → Option γ}

/-- A buffer to which each item may add something is empty in the end if it was empty at the start
and no item adds anything. -/
theorem foldlM_ne_nil_iff (adds : α → Prop) {f : List β → α → Option (List β)}
    (hstep : ∀ a ∈ l, ∀ r r', f r a = some r' → (r' ≠ [] ↔ r ≠ [] ∨ adds a)) {r r' : List β}
    (h : l.foldlM f r = some r') : r' ≠ [] ↔ r ≠ [] ∨ ∃ a ∈ l, adds a := by
  induction l generalizing r with
  | nil =>
    obtain rfl : r = r' := Option.some.inj h
    simp
  | cons a l ih =>
    obtain ⟨hhead, htail⟩ := List.forall_mem_cons.mp hstep
    obtain ⟨mid, hmid, hrest⟩ := Option.bind_eq_some_iff.mp h
    rw [ih htail hrest, hhead r mid hmid, List.exists_mem_cons_iff, or_assoc]

/-- The items of a mapped list that are kept, by the keys they were made from. -/
theorem map_filter_of_mapM {key : γ → α} {keep : γ → Bool} {p : α → Bool} {data : List γ}
    (h : l.mapM f = some data) (hf : ∀ a ∈ l, ∀ c, f a = some c → key c = a ∧ keep c = p a) :
    (data.filter keep).map key = l.filter p := by
  induction l generalizing data with
  | nil =>
    obtain rfl : [] = data := Option.some.inj h
    rfl
  | cons a l ih =>
    obtain ⟨hhead, htail⟩ := List.forall_mem_cons.mp hf
    rw [List.mapM_cons] at h
    obtain ⟨c, hc, h⟩ := Option.bind_eq_some_iff.mp h
    obtain ⟨rest, hrest, h⟩ := Option.bind_eq_some_iff.mp h
    obtain rfl : c :: rest = data := Option.some.inj h
    obtain ⟨hkey, hkeep⟩ := hhead c hc
    rw [List.filter_cons, List.filter_cons, hkeep]
    split_ifs
    · rw [List.map_cons, hkey, ih hrest htail]
    · exact ih hrest htail

theorem eq_nil_of_mapM_eq_nil (h : l.mapM f = some []) : l = [] := by
  cases l with
  | nil => rfl
  | cons a l =>
    rw [List.mapM_cons] at h
    obtain ⟨c, -, h⟩ := Option.bind_eq_some_iff.mp h
    obtain ⟨rest, -, h⟩ := Option.bind_eq_some_iff.mp h
    exact absurd (Option.some.inj h) (List.cons_ne_nil c rest)

end AdaptivePlatform.PartialLists
