import Mathlib.Tactic

/-!
# Ranges tiled by pieces

Pieces of given sizes are laid side by side from a position on. Every position of
the range lies in exactly one of them, and a stretch of the row can be replaced by
other pieces of the same total size.
-/
namespace AdaptivePlatform.Tilings

open List

/-- A piece of a row. -/
structure Piece (κ : Type*) where
  size : ℕ
  kind : κ
  deriving DecidableEq

variable {κ : Type*} {a x : ℕ} {p : Piece κ} {ps as bs : List (Piece κ)}

/-- What a row of pieces measures. -/
def total (ps : List (Piece κ)) : ℕ := (ps.map Piece.size).sum

/-- The pieces with the positions they are laid at. -/
def place : ℕ → List (Piece κ) → List (ℕ × Piece κ)
  | _, [] => []
  | a, p :: ps => (a, p) :: place (a + p.size) ps

@[simp] theorem total_nil : total ([] : List (Piece κ)) = 0 := rfl

@[simp] theorem total_cons (p : Piece κ) (ps : List (Piece κ)) :
    total (p :: ps) = p.size + total ps := by
  simp [total]

@[simp] theorem total_append (ps qs : List (Piece κ)) : total (ps ++ qs) = total ps + total qs := by
  simp [total]

theorem place_append (a : ℕ) (ps qs : List (Piece κ)) :
    place a (ps ++ qs) = place a ps ++ place (a + total ps) qs := by
  induction ps generalizing a with
  | nil => simp [place]
  | cons p ps ih => simp [place, ih, Nat.add_assoc]

theorem exists_split_of_mem (h : (x, p) ∈ place a ps) :
    ∃ as bs, ps = as ++ p :: bs ∧ x = a + total as := by
  induction ps generalizing a with
  | nil => simp [place] at h
  | cons q ps ih =>
    rcases mem_cons.1 h with h | h
    · cases h
      exact ⟨[], ps, rfl, by simp⟩
    · obtain ⟨as, bs, rfl, rfl⟩ := ih h
      exact ⟨q :: as, bs, rfl, by simp [Nat.add_assoc]⟩

theorem mem_place_append : (a + total as, p) ∈ place a (as ++ p :: bs) := by
  rw [place_append]
  exact mem_append_right _ mem_cons_self

theorem mem_of_mem_place (h : (x, p) ∈ place a ps) : p ∈ ps := by
  obtain ⟨as, bs, rfl, -⟩ := exists_split_of_mem h
  simp

theorem le_of_mem (h : (x, p) ∈ place a ps) : a ≤ x := by
  obtain ⟨as, bs, -, rfl⟩ := exists_split_of_mem h
  exact Nat.le_add_right _ _

theorem end_le_of_mem (h : (x, p) ∈ place a ps) : x + p.size ≤ a + total ps := by
  obtain ⟨as, bs, rfl, rfl⟩ := exists_split_of_mem h
  simp only [total_append, total_cons]
  omega

theorem length_le_total (hpos : ∀ p ∈ ps, 0 < p.size) : ps.length ≤ total ps := by
  induction ps with
  | nil => simp
  | cons p ps ih =>
    have hp := hpos p mem_cons_self
    have hps := ih fun q hq => hpos q (mem_cons_of_mem p hq)
    rw [total_cons, length_cons]
    omega

theorem eq_of_overlap {x' y : ℕ} {p' : Piece κ} (h : (x, p) ∈ place a ps)
    (h' : (x', p') ∈ place a ps) (hy : x ≤ y ∧ y < x + p.size) (hy' : x' ≤ y ∧ y < x' + p'.size) :
    x = x' ∧ p = p' := by
  induction ps generalizing a with
  | nil => simp [place] at h
  | cons q ps ih =>
    rcases mem_cons.1 h with h | h
    · rcases mem_cons.1 h' with h' | h'
      · cases h
        cases h'
        exact ⟨rfl, rfl⟩
      · cases h
        have := le_of_mem h'
        omega
    · rcases mem_cons.1 h' with h' | h'
      · cases h'
        have := le_of_mem h
        omega
      · exact ih h h'

theorem exists_mem_of_lt {y : ℕ} (hle : a ≤ y) (hlt : y < a + total ps) :
    ∃ x p, (x, p) ∈ place a ps ∧ x ≤ y ∧ y < x + p.size := by
  induction ps generalizing a with
  | nil => simp at hlt; omega
  | cons q ps ih =>
    rw [total_cons] at hlt
    by_cases hq : y < a + q.size
    · exact ⟨a, q, mem_cons_self, hle, hq⟩
    · obtain ⟨x, p, hmem, hx⟩ := ih (a := a + q.size) (by omega) (by omega)
      exact ⟨x, p, mem_cons_of_mem _ hmem, hx⟩

theorem rel_of_adjacent {R : Piece κ → Piece κ → Prop} {q : Piece κ} (hchain : ps.IsChain R)
    (hpos : ∀ r ∈ ps, 0 < r.size) (hp : (x, p) ∈ place a ps) (hq : (x + p.size, q) ∈ place a ps) :
    R p q := by
  have hpsize := hpos p (mem_of_mem_place hp)
  obtain ⟨as, bs, rfl, rfl⟩ := exists_split_of_mem hp
  rw [place_append, mem_append, place, mem_cons] at hq
  rcases hq with hq | heq | hq
  · have := end_le_of_mem hq
    omega
  · rw [Prod.mk.injEq] at heq
    omega
  · cases bs with
    | nil => simp [place] at hq
    | cons b bs =>
      rw [place, mem_cons, Prod.mk.injEq] at hq
      rcases hq with ⟨-, rfl⟩ | hq
      · rw [isChain_append, isChain_cons_cons] at hchain
        exact hchain.2.1.1
      · have hb := hpos b (by simp)
        have := le_of_mem hq
        omega

/-- A stretch of the row is replaced: outside of it the pieces are the same. -/
theorem mem_place_replace {mid mid' : List (Piece κ)} (hpos : ∀ q ∈ as ++ mid ++ bs, 0 < q.size)
    (hsize : total mid' = total mid) :
    (x, p) ∈ place a (as ++ mid' ++ bs) ↔
      (x, p) ∈ place a (as ++ mid ++ bs) ∧ ¬ (a + total as ≤ x ∧ x < a + total as + total mid) ∨
      (x, p) ∈ place (a + total as) mid' := by
  have hfront : (x, p) ∈ place a as → x < a + total as := by
    intro h
    have := end_le_of_mem h
    have := hpos p (by simp [mem_of_mem_place h])
    omega
  have hback : (x, p) ∈ place (a + total as + total mid) bs → a + total as + total mid ≤ x :=
    le_of_mem
  have hmid : (x, p) ∈ place (a + total as) mid →
      a + total as ≤ x ∧ x < a + total as + total mid := by
    intro h
    have := end_le_of_mem h
    have := hpos p (by simp [mem_of_mem_place h])
    exact ⟨le_of_mem h, by omega⟩
  simp only [place_append, mem_append, total_append, hsize, ← Nat.add_assoc]
  constructor
  · rintro ((h | h) | h)
    · exact .inl ⟨.inl (.inl h), fun hin => absurd (hfront h) (by omega)⟩
    · exact .inr h
    · exact .inl ⟨.inr h, fun hin => absurd (hback h) (by omega)⟩
  · rintro (⟨(h | h) | h, hout⟩ | h)
    · exact .inl (.inl h)
    · exact absurd (hmid h) hout
    · exact .inr h
    · exact .inl (.inr h)

end AdaptivePlatform.Tilings
