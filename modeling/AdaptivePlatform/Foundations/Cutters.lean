import Mathlib.Tactic.Common

/-!
# Cutting a stream

A cutter looks at the start of a stream and finds an item of a certain length,
or that more of the stream is needed, or that the stream is not acceptable. It
may remember something from one item to the next. `cut` takes items off a
stream as long as there are any.
-/
namespace AdaptivePlatform

variable {σ α β : Type*}

/-- What a cutter finds at the start of a stream. -/
inductive Found (σ β : Type*)
  | more
  | fail
  | item (b : β) (length : ℕ) (next : σ)

structure Cutter (σ α β : Type*) where
  find : σ → List α → Found σ β
  length_le : ∀ {s l b n s'}, find s l = .item b n s' → 0 < n ∧ n ≤ l.length

/-- The items of a stream, and whether what follows them is not acceptable. -/
@[ext] structure Cut (β : Type*) where
  items : List β := []
  failed : Bool := false

def Cut.after (bs : List β) (later : Cut β) : Cut β := { later with items := bs ++ later.items }

@[simp] theorem Cut.after_after (bs bs' : List β) (later : Cut β) :
    (later.after bs').after bs = later.after (bs ++ bs') := by
  simp [after]

theorem Cut.after_inj (bs : List β) {later later' : Cut β} :
    later.after bs = later'.after bs ↔ later = later' := by
  constructor
  · intro heq
    have hitems := List.append_cancel_left (congrArg Cut.items heq)
    have hfailed := congrArg Cut.failed heq
    exact Cut.ext hitems hfailed
  · rintro rfl
    rfl

namespace Cutter

variable (c : Cutter σ α β)

def cut (s : σ) (l : List α) : Cut β :=
  match _h : c.find s l with
  | .more => {}
  | .fail => { failed := true }
  | .item b n s' => (cut s' (l.drop n)).after [b]
termination_by l.length
decreasing_by
  have := c.length_le _h
  rw [List.length_drop]
  omega

variable {c} {s s' : σ} {l : List α} {b : β} {n : ℕ}

theorem cut_of_more (h : c.find s l = .more) : c.cut s l = {} := by
  rw [cut]
  split <;> simp_all

theorem cut_of_fail (h : c.find s l = .fail) : c.cut s l = { failed := true } := by
  rw [cut]
  split <;> simp_all

theorem cut_of_item (h : c.find s l = .item b n s') :
    c.cut s l = (c.cut s' (l.drop n)).after [b] := by
  rw [cut]
  split <;> simp_all

theorem cut_congr (h : c.find s l = c.find s' l) : c.cut s l = c.cut s' l := by
  cases hfound : c.find s' l with
  | more => rw [cut_of_more hfound, cut_of_more (h.trans hfound)]
  | fail => rw [cut_of_fail hfound, cut_of_fail (h.trans hfound)]
  | item b n t =>
    have hsame := cut_of_item (h.trans hfound)
    rw [hsame, cut_of_item hfound]

end Cutter

end AdaptivePlatform
