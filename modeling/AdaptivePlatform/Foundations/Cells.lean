import Mathlib.Data.List.Count

/-!
# Arrays accessed cell by cell

An array is a list of cells. A write or a read outside it has no result, so a
loop over an index range has one only when the range lies inside the array.
The lemmas give the value of each loop on such ranges.
-/
namespace AdaptivePlatform.Cells

open List Option

variable {α : Type*} {cells : List α}

/-- `cells[i] = v` -/
def write (cells : List α) (i : ℕ) (v : α) : Option (List α) :=
  if i < cells.length then some (cells.set i v) else none

/-- `for (index = 0; index < n; index++) cells[index] = v` -/
def fill (v : α) : ℕ → List α → Option (List α)
  | 0, cells => some cells
  | n + 1, cells => (fill v n cells).bind fun filled => write filled n v

/-- `for (index = 0; index < n; index++) if (cells[index] == v) count++` -/
def countUpTo [DecidableEq α] (v : α) (cells : List α) : ℕ → Option ℕ
  | 0 => some 0
  | n + 1 =>
    (countUpTo v cells n).bind fun count =>
      cells[n]?.map fun cell => if cell = v then count + 1 else count

theorem write_eq {i : ℕ} (h : i < cells.length) (v : α) :
    write cells i v = some (cells.set i v) := by
  simp [write, h]

theorem write_eq_none {i : ℕ} (h : cells.length ≤ i) (v : α) : write cells i v = none := by
  simp [write, h]

theorem fill_eq (v : α) {n : ℕ} (h : n ≤ cells.length) :
    fill v n cells = some (List.replicate n v ++ cells.drop n) := by
  induction n with
  | zero => simp [fill]
  | succ n ih =>
    have hlen : n < (List.replicate n v ++ cells.drop n).length := by simp; omega
    simp only [fill, ih (by omega), bind_some, write_eq hlen]
    rw [set_append_right _ _ (by simp), length_replicate, Nat.sub_self,
      drop_eq_getElem_cons (by omega), set_cons_zero, replicate_succ']
    simp

theorem countUpTo_eq [DecidableEq α] (v : α) {n : ℕ} (h : n ≤ cells.length) :
    countUpTo v cells n = some ((cells.take n).count v) := by
  induction n with
  | zero => simp [countUpTo]
  | succ n ih =>
    have hn : n < cells.length := by omega
    simp only [countUpTo, ih (by omega), getElem?_eq_getElem hn, map_some,
      take_succ_eq_append_getElem hn, count_append, count_singleton, beq_iff_eq]
    split_ifs <;> rfl

section

variable [DecidableEq α] {cells : List α} {m n : ℕ} {blank : α}

theorem count_take_mono (h : m ≤ n) (v : α) : (cells.take m).count v ≤ (cells.take n).count v :=
  (take_sublist_take_left h).count_le v

theorem count_take_set_le (i : ℕ) (a v : α) :
    ((cells.set i a).take n).count v ≤ (cells.take n).count v + [a].count v := by
  rw [take_set, count_singleton]
  by_cases hi : i < (cells.take n).length
  · rw [count_set hi]
    omega
  · rw [set_eq_of_length_le (by omega)]
    omega

theorem count_take_blank_le {v : α} (hv : blank ≠ v) :
    ((List.replicate m blank ++ cells.drop m).take n).count v ≤ (cells.take n).count v := by
  have hrep : (List.replicate (min n m) blank).count v = 0 := by
    rw [count_replicate]
    simp [hv]
  rw [take_append, take_replicate, count_append, hrep, length_replicate, Nat.zero_add, ← drop_take]
  exact (drop_sublist m _).count_le v

theorem count_take_le_of_blank {v : α} (hv : blank ≠ v)
    (h : ∀ i, m ≤ i → i < n → cells[i]? = some blank) :
    (cells.take n).count v ≤ (cells.take m).count v := by
  induction n with
  | zero => simp
  | succ n ih =>
    have hn := ih fun i hmi hin => h i hmi (by omega)
    by_cases hm : m ≤ n
    · rw [take_add_one, h n hm (by omega), count_append]
      simpa [hv] using hn
    · exact count_take_mono (by omega) v

end

end AdaptivePlatform.Cells
