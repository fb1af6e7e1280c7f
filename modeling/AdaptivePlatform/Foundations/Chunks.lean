import Mathlib.Data.List.Perm.Subperm
import Mathlib.Algebra.Order.BigOperators.Group.List
import Mathlib.Algebra.Order.Ring.Nat

/-!
# Chunks of a list

A list is cut into pieces of one size, of which only the last may be shorter.
The empty list is one empty piece. The `i`-th piece begins at `i * size`, and
pieces of which none is missing are as long as the list.
-/
namespace AdaptivePlatform.Chunks

open List

variable {α : Type*} (l : List α) (size : ℕ)

def chunk (i : ℕ) : List α := (l.drop (i * size)).take size

def count : ℕ := (l.length - 1) / size + 1

/-- Where the `i`-th piece ends. -/
def stop (i : ℕ) : ℕ := i * size + (chunk l size i).length

variable {l size}

theorem length_chunk (i : ℕ) : (chunk l size i).length = min size (l.length - i * size) := by
  rw [chunk, length_take, length_drop]

theorem flatten_map_chunk_range (n : ℕ) :
    ((List.range n).map (chunk l size)).flatten = l.take (n * size) := by
  induction n with
  | zero => simp
  | succ n ih =>
    rw [range_succ, map_append, flatten_append, ih, map_singleton,
      flatten_singleton, chunk, Nat.succ_mul, take_add]

section

variable (hsize : 0 < size)

include hsize

variable {i : ℕ}

theorem lt_count_iff : i < count l size ↔ i = 0 ∨ i * size < l.length := by
  rw [count, Nat.lt_succ_iff, Nat.le_div_iff_mul_le hsize]
  rcases Nat.eq_zero_or_pos i with rfl | hi
  · simp
  · have : 0 < i * size := Nat.mul_pos hi hsize
    omega

theorem length_le_count_mul : l.length ≤ count l size * size := by
  have hdiv := Nat.div_add_mod (l.length - 1) size
  have hmod := Nat.mod_lt (l.length - 1) hsize
  rw [count, Nat.succ_mul, Nat.mul_comm]
  omega

theorem flatten_chunks : ((List.range (count l size)).map (chunk l size)).flatten = l := by
  rw [flatten_map_chunk_range, take_of_length_le (length_le_count_mul hsize)]

theorem mul_le_length_of_lt_count (hi : i < count l size) : i * size ≤ l.length := by
  rcases (lt_count_iff hsize).mp hi with rfl | h
  · simp
  · exact h.le

theorem stop_of_succ_lt (hi : i + 1 < count l size) : stop l size i = (i + 1) * size := by
  have hnext := mul_le_length_of_lt_count hsize hi
  rw [Nat.succ_mul] at hnext ⊢
  rw [stop, length_chunk]
  omega

theorem stop_last : stop l size (count l size - 1) = l.length := by
  have hlast : count l size - 1 < count l size := Nat.sub_lt (Nat.succ_pos _) Nat.one_pos
  have hle := mul_le_length_of_lt_count hsize hlast
  have hcount := length_le_count_mul (l := l) hsize
  have hmul : count l size * size = (count l size - 1) * size + size := by
    rw [← Nat.succ_mul]
    rfl
  rw [stop, length_chunk]
  omega

theorem stop_le_mul_of_lt {j : ℕ} (hij : i < j) (hj : j < count l size) :
    stop l size i ≤ j * size := by
  rw [stop_of_succ_lt hsize (by omega)]
  exact Nat.mul_le_mul_right size hij

theorem lt_stop (hl : 0 < l.length) (hi : i < count l size) : i * size < stop l size i := by
  have hi : i * size < l.length := by
    rcases (lt_count_iff hsize).mp hi with rfl | h
    · simpa using hl
    · exact h
  rw [stop, length_chunk]
  omega

end

def total (l : List α) (size : ℕ) (idx : List ℕ) : ℕ :=
  (idx.map fun i => (chunk l size i).length).sum

theorem total_range (hsize : 0 < size) : total l size (List.range (count l size)) = l.length := by
  have h := congrArg List.length (flatten_chunks (l := l) hsize)
  rw [length_flatten, map_map] at h
  exact h

variable {idx : List ℕ}

theorem total_le (hsize : 0 < size) (hnodup : idx.Nodup) (hidx : ∀ i ∈ idx, i < count l size) :
    total l size idx ≤ l.length := by
  have hsub : idx.Subperm (List.range (count l size)) :=
    hnodup.subperm fun i hi => mem_range.mpr (hidx i hi)
  obtain ⟨idx', hperm, hsublist⟩ := hsub
  calc total l size idx = total l size idx' := ((hperm.map _).sum_eq).symm
    _ ≤ total l size (List.range (count l size)) :=
        (hsublist.map _).sum_le_sum fun _ _ => Nat.zero_le _
    _ = l.length := total_range hsize

theorem total_eq_length_iff (hsize : 0 < size) (hl : 0 < l.length) (hnodup : idx.Nodup)
    (hidx : ∀ i ∈ idx, i < count l size) :
    total l size idx = l.length ↔ ∀ i < count l size, i ∈ idx := by
  constructor
  · intro htotal i hi
    by_contra hmissing
    have hle := total_le hsize (nodup_cons.mpr ⟨hmissing, hnodup⟩) (forall_mem_cons.mpr ⟨hi, hidx⟩)
    have hpos := lt_stop hsize hl hi
    rw [total, map_cons, sum_cons, ← total] at hle
    rw [stop] at hpos
    omega
  · intro hall
    have hperm : idx.Perm (List.range (count l size)) := by
      refine (perm_ext_iff_of_nodup hnodup nodup_range).mpr fun i => ?_
      rw [mem_range]
      exact ⟨hidx i, hall i⟩
    rw [← total_range hsize]
    exact (hperm.map _).sum_eq

end AdaptivePlatform.Chunks
