import Mathlib.Order.Lattice
import Mathlib.Data.List.Induction

/-!
# Running maximum

A scan over a list keeps the best value seen and the item it came from; an item
replaces the one kept only if it is strictly better. It ends with the first of
the best items, and with none if no item beats the value it started from. The
best items themselves are a filter of the list.
-/
namespace AdaptivePlatform.RunningMaximum

open List

variable {α β : Type*} [LinearOrder β] (f : α → β) (b : β) (l : List α)

def improve (found : β × List α) (a : α) : β × List α := if found.1 < f a then (f a, [a]) else found

def scan (b : β) (l : List α) : β × List α := l.foldl (improve f) (b, [])

/-- The items of `l` above `b` that no item of `l` exceeds. -/
def best (b : β) (l : List α) : List α := l.filter fun a => b < f a ∧ ∀ x ∈ l, f x ≤ f a

theorem mem_best {b : β} {l : List α} {a : α} :
    a ∈ best f b l ↔ a ∈ l ∧ b < f a ∧ ∀ x ∈ l, f x ≤ f a := by
  simp [best]

theorem scan_append_singleton (a : α) : scan f b (l ++ [a]) = improve f (scan f b l) a := by
  simp [scan]

theorem scan_fst : (scan f b l).1 = l.foldl (fun b a => max b (f a)) b := by
  refine (foldl_hom Prod.fst fun found a => ?_).symm
  unfold improve
  split_ifs with h
  · exact max_eq_right h.le
  · exact max_eq_left (not_lt.mp h)

/-- The value that is kept is the largest, starting from `b`. -/
theorem scan_value :
    b ≤ (scan f b l).1 ∧ (∀ x ∈ l, f x ≤ (scan f b l).1) ∧
      ((scan f b l).1 = b ∨ ∃ x ∈ l, f x = (scan f b l).1) := by
  induction l using List.reverseRecOn with
  | nil => exact ⟨le_rfl, forall_mem_nil _, Or.inl rfl⟩
  | append_singleton l a ih =>
    obtain ⟨hb, hle, hreached⟩ := ih
    rw [scan_append_singleton]
    unfold improve
    split_ifs with h
    · refine ⟨hb.trans h.le, ?_, Or.inr ⟨a, by simp, rfl⟩⟩
      intro x hx
      rcases mem_append.mp hx with hx | hx
      · exact (hle x hx).trans h.le
      · rw [mem_singleton.mp hx]
    · refine ⟨hb, ?_, ?_⟩
      · intro x hx
        rcases mem_append.mp hx with hx | hx
        · exact hle x hx
        · rw [mem_singleton.mp hx]
          exact not_lt.mp h
      · rcases hreached with heq | ⟨x, hx, heq⟩
        · exact Or.inl heq
        · exact Or.inr ⟨x, mem_append_left _ hx, heq⟩

/-- The best items are those that reach the value, if it is above `b`. -/
theorem mem_best_iff_value {b : β} {l : List α} {a : α} :
    a ∈ best f b l ↔ a ∈ l ∧ b < f a ∧ f a = (scan f b l).1 := by
  obtain ⟨hb, hle, hreached⟩ := scan_value f b l
  rw [mem_best]
  refine and_congr_right fun ha => and_congr_right fun hlt => ?_
  constructor
  · intro hmax
    rcases hreached with heq | ⟨x, hx, heq⟩
    · exact absurd (hlt.trans_le (hle a ha)) (by rw [heq]; exact lt_irrefl b)
    · exact le_antisymm (hle a ha) (heq ▸ hmax x hx)
  · intro heq x hx
    rw [heq]
    exact hle x hx

theorem scan_items : (scan f b l).2 = (best f b l).take 1 := by
  induction l using List.reverseRecOn with
  | nil => rfl
  | append_singleton l a ih =>
    obtain ⟨hb, hle, hreached⟩ := scan_value f b l
    rw [scan_append_singleton]
    unfold improve
    split_ifs with h
    · -- `a` beats every item before it
      have hbest : best f b (l ++ [a]) = [a] := by
        have hnone : l.filter (fun x => b < f x ∧ ∀ y ∈ l ++ [a], f y ≤ f x) = [] := by
          refine filter_eq_nil_iff.mpr fun x hx hmax => ?_
          have hax : f a ≤ f x := (of_decide_eq_true hmax).2 a (by simp)
          exact absurd (hax.trans (hle x hx)) (not_le.mpr h)
        have ha : b < f a ∧ ∀ y ∈ l ++ [a], f y ≤ f a := by
          refine ⟨hb.trans_lt h, fun y hy => ?_⟩
          rcases mem_append.mp hy with hy | hy
          · exact (hle y hy).trans h.le
          · rw [mem_singleton.mp hy]
        rw [best, filter_append, hnone]
        simpa using ha
      rw [hbest]
      rfl
    · -- `a` may be a further best item, but then it is not the first
      have hold : l.filter (fun x => b < f x ∧ ∀ y ∈ l ++ [a], f y ≤ f x) = best f b l := by
        refine filter_congr fun x hx => decide_eq_decide.mpr ?_
        refine and_congr_right fun hlt => ⟨fun hmax y hy => hmax y (by simp [hy]), ?_⟩
        intro hmax y hy
        have hvalue := ((mem_best_iff_value f).mp ((mem_best f).mpr ⟨hx, hlt, hmax⟩)).2.2
        rcases mem_append.mp hy with hy | hy
        · exact hmax y hy
        · rw [mem_singleton.mp hy, hvalue]
          exact not_lt.mp h
      have hbest : best f b (l ++ [a]) = best f b l ++
          [a].filter (fun x => b < f x ∧ ∀ y ∈ l ++ [a], f y ≤ f x) := by
        rw [best, filter_append, hold]
      rw [ih, hbest]
      cases hfirst : best f b l with
      | cons x xs => simp
      | nil =>
        have hnone : [a].filter (fun x => b < f x ∧ ∀ y ∈ l ++ [a], f y ≤ f x) = [] := by
          refine filter_eq_nil_iff.mpr fun x hx hmax => ?_
          obtain rfl := mem_singleton.mp hx
          have hlt : b < (scan f b l).1 := (of_decide_eq_true hmax).1.trans_le (not_lt.mp h)
          obtain ⟨y, hy, heq⟩ := hreached.resolve_left hlt.ne'
          have : y ∈ best f b l := (mem_best_iff_value f).mpr ⟨hy, heq ▸ hlt, heq⟩
          rw [hfirst] at this
          exact absurd this not_mem_nil
        rw [hnone]
        rfl

end AdaptivePlatform.RunningMaximum
