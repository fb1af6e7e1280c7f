import Mathlib.Data.List.Basic

/-!
# Concatenated parts

A message body is the concatenation of the parts that the items of a list
contribute. When do two lists, or two ways to write an item, give the same body?
-/
namespace AdaptivePlatform.FlatMaps

open List

variable {α β γ : Type*} (f : α → List β) (keep : α → Bool) (l : List α)

theorem length_flatMap_filter_le : ((l.filter keep).flatMap f).length ≤ (l.flatMap f).length := by
  induction l with
  | nil => exact Nat.le_refl _
  | cons a l ih =>
    rw [filter_cons]
    split_ifs
    all_goals
      simp only [flatMap_cons, length_append]
      omega

/-- Leaving items out changes nothing precisely if they contribute nothing. -/
theorem flatMap_filter_eq_iff :
    (l.filter keep).flatMap f = l.flatMap f ↔ ∀ a ∈ l, keep a = false → f a = [] := by
  induction l with
  | nil => simp
  | cons a l ih =>
    rw [filter_cons, forall_mem_cons, ← ih]
    cases hkeep : keep a with
    | true => simp
    | false =>
      simp only [Bool.false_eq_true, if_false, flatMap_cons, forall_const]
      constructor
      · intro h
        have hlen := congrArg List.length h
        have hle := length_flatMap_filter_le f keep l
        rw [length_append] at hlen
        have hnil : f a = [] := eq_nil_of_length_eq_zero (by omega)
        exact ⟨hnil, by rw [h, hnil, nil_append]⟩
      · rintro ⟨hnil, h⟩
        rw [hnil, nil_append, h]

/-- Parts of equal lengths concatenate to the same only if they are the same. -/
theorem flatMap_congr_iff {f g : α → List β} {l : List α}
    (hlen : ∀ a ∈ l, (f a).length = (g a).length) :
    l.flatMap f = l.flatMap g ↔ ∀ a ∈ l, f a = g a := by
  induction l with
  | nil => simp
  | cons a l ih =>
    obtain ⟨ha, hl⟩ := forall_mem_cons.mp hlen
    rw [flatMap_cons, flatMap_cons, forall_mem_cons, ← ih hl]
    exact ⟨fun h => append_inj h ha, fun ⟨h, h'⟩ => by rw [h, h']⟩

theorem flatMap_filterMap (f : α → Option γ) (g : γ → List β) (l : List α) :
    (l.filterMap f).flatMap g = l.flatMap fun a => (f a).elim [] g := by
  induction l with
  | nil => rfl
  | cons a l ih =>
    rw [filterMap_cons, flatMap_cons]
    cases f a with
    | none => simpa using ih
    | some b => simp [ih]

end AdaptivePlatform.FlatMaps
