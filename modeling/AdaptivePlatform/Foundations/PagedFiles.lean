import Mathlib.Data.List.GetD
import Mathlib.Tactic

/-!
# Files of numbered pages

A file is a list of cells. Pages are runs of `len` cells, numbered from 1. A page
that reaches past the end of the file makes the file longer when it is written,
and what lies past the end reads as a filler cell.
-/
namespace AdaptivePlatform.PagedFiles

open List

variable {σ : Type*} (zero : σ) (len : ℕ) (f : List σ) (id : ℕ)

def cell (i : ℕ) : σ := f.getD i zero

def resize (n : ℕ) : List σ := (List.range n).map (cell zero f)

def overwrite (pos : ℕ) (data : List σ) : List σ := f.take pos ++ data ++ f.drop (pos + data.length)

def read (pos len : ℕ) : List σ := (List.range len).map fun i => cell zero f (pos + i)

/-- Page `id` is written, into a file that is made longer if it is too short. -/
def writePage (page : List σ) : List σ :=
  overwrite (if f.length < id * len then resize zero f (id * len) else f) ((id - 1) * len) page

def readPage : List σ := read zero f ((id - 1) * len) len

variable {zero} (f : List σ) {data : List σ} {pos : ℕ} {a : σ}

@[simp] theorem length_resize (n : ℕ) : (resize zero f n).length = n := by simp [resize]

@[simp] theorem length_read (pos len : ℕ) : (read zero f pos len).length = len := by simp [read]

@[simp] theorem length_readPage : (readPage zero len f id).length = len := length_read f _ len

theorem readPage_nil (len id : ℕ) : readPage zero len [] id = List.replicate len zero := by
  simp [readPage, read, cell]

theorem cell_resize (n i : ℕ) :
    cell zero (resize zero f n) i = if i < n then cell zero f i else zero := by
  by_cases h : i < n
  · simp [cell, resize, h]
  · simp [cell, h]

theorem length_overwrite {f : List σ} (h : pos + data.length ≤ f.length) :
    (overwrite f pos data).length = f.length := by
  simp only [overwrite, length_append, length_take, length_drop]
  omega

theorem cell_overwrite {f : List σ} (h : pos ≤ f.length) (i : ℕ) :
    cell zero (overwrite f pos data) i =
      if pos ≤ i ∧ i < pos + data.length then cell zero data (i - pos) else cell zero f i := by
  have htake : (f.take pos).length = pos := length_take_of_le h
  simp only [cell, overwrite, getD_eq_getElem?_getD]
  by_cases hlow : i < pos
  · rw [getElem?_append_left (by rw [length_append, htake]; omega),
      getElem?_append_left (by rw [htake]; exact hlow), getElem?_take_of_lt hlow,
      if_neg (by omega)]
  by_cases hin : i < pos + data.length
  · rw [getElem?_append_left (by rw [length_append, htake]; omega),
      getElem?_append_right (by rw [htake]; omega), htake, if_pos ⟨by omega, hin⟩]
  · rw [getElem?_append_right (by rw [length_append, htake]; omega), getElem?_drop,
      length_append, htake, if_neg (fun c => hin c.2)]
    congr 2
    omega

theorem cell_mem (i : ℕ) : cell zero f i = zero ∨ cell zero f i ∈ f := by
  rcases lt_or_ge i f.length with hi | hi
  · right
    rw [cell, getD_eq_getElem f zero hi]
    exact getElem_mem hi
  · left
    exact getD_eq_default f zero hi

theorem mem_resize {f : List σ} {n : ℕ} (h : a ∈ resize zero f n) : a = zero ∨ a ∈ f := by
  obtain ⟨i, -, rfl⟩ := mem_map.1 h
  exact cell_mem f i

theorem mem_overwrite {f : List σ} (h : a ∈ overwrite f pos data) : a ∈ f ∨ a ∈ data := by
  rcases mem_append.1 h with h | h
  · rcases mem_append.1 h with h | h
    · exact .inl (mem_of_mem_take h)
    · exact .inr h
  · exact .inl (mem_of_mem_drop h)

theorem mem_read {f : List σ} {len : ℕ} (h : a ∈ read zero f pos len) : a = zero ∨ a ∈ f := by
  obtain ⟨i, -, rfl⟩ := mem_map.1 h
  exact cell_mem f (pos + i)

section

variable {len : ℕ} {f page : List σ} {id : ℕ}

theorem le_length_fill (f : List σ) (n : ℕ) :
    n ≤ (if f.length < n then resize zero f n else f).length := by
  split_ifs with h
  · simp
  · omega

theorem page_end (len : ℕ) (hid : 1 ≤ id) : (id - 1) * len + len = id * len := by
  obtain ⟨k, rfl⟩ := Nat.exists_eq_add_of_le' hid
  rw [Nat.add_sub_cancel, Nat.succ_mul]

theorem length_writePage (hid : 1 ≤ id) (hpage : page.length = len) :
    (writePage zero len f id page).length = max f.length (id * len) := by
  have hend := page_end len hid
  rw [writePage, length_overwrite (by rw [hpage, hend]; exact le_length_fill f _)]
  split_ifs with h
  · simp only [length_resize]; omega
  · omega

theorem cell_fill (f : List σ) (n i : ℕ) :
    cell zero (if f.length < n then resize zero f n else f) i = cell zero f i := by
  split_ifs with h
  · rw [cell_resize]
    split_ifs with hi
    · rfl
    · exact (getD_eq_default f zero (by omega)).symm
  · rfl

theorem readPage_writePage_of_ne {id' : ℕ} (hid : 1 ≤ id) (hid' : 1 ≤ id') (hne : id' ≠ id)
    (hpage : page.length = len) :
    readPage zero len (writePage zero len f id page) id' = readPage zero len f id' := by
  have hend := page_end len hid
  have hend' := page_end len hid'
  have hroom : (id - 1) * len ≤
      (if f.length < id * len then resize zero f (id * len) else f).length :=
    le_trans (by omega) (le_length_fill f (id * len))
  apply map_congr_left
  intro i hi
  rw [mem_range] at hi
  -- the two pages are apart: one of them ends where the other begins, or before
  have hapart : id' * len ≤ (id - 1) * len ∨ id * len ≤ (id' - 1) * len := by
    rcases Nat.lt_or_gt_of_ne hne with h | h
    · exact .inl (Nat.mul_le_mul_right len (by omega))
    · exact .inr (Nat.mul_le_mul_right len (by omega))
  rw [writePage, cell_overwrite hroom, if_neg (by omega), cell_fill]

end

end AdaptivePlatform.PagedFiles
