import Mathlib.Tactic

/-!
# Positions in a ring

Items are numbered from 0 on, and item `i` stands in slot `i % q` of a ring of `q`
slots. A program keeps the slots only. As long as the items in question lie in a
window of `q` numbers, the slots tell them apart, and the distance between two
items can be computed from their slots, up to the case of equal slots: the items
are then the same or a whole ring apart.
-/
namespace AdaptivePlatform.RingIndex

variable {q : ℕ}

def succ (q x : ℕ) : ℕ := if q ≤ x + 1 then 0 else x + 1

/-- How far slot `i` lies behind the slot `head`; a whole ring if they are the same. -/
def behind (q head i : ℕ) : ℕ := if i < head then head - i else head + (q - i)

/-- The slot that lies `n` behind the slot `head`. -/
def back (q head n : ℕ) : ℕ :=
  if n ≤ head then head - n
  else if q ≤ head + (q - n) then head + (q - n) - q else head + (q - n)

theorem add_mod_of_le {r d : ℕ} (hr : r < q) (hd : d ≤ q) :
    (r + d) % q = if r + d < q then r + d else r + d - q := by
  split_ifs with h
  · exact Nat.mod_eq_of_lt h
  · rw [Nat.mod_eq_sub_mod (Nat.le_of_not_lt h), Nat.mod_eq_of_lt (by omega)]

theorem succ_mod (hq : 0 < q) (n : ℕ) : succ q (n % q) = (n + 1) % q := by
  have hr := Nat.mod_lt n hq
  rw [← Nat.mod_add_mod, add_mod_of_le hr hq, succ]
  split_ifs <;> omega

/-- Slots tell the items of a window apart. -/
theorem eq_of_mod_eq {a i j : ℕ} (hi : a ≤ i) (hi' : i < a + q) (hj : a ≤ j) (hj' : j < a + q)
    (h : i % q = j % q) : i = j := by
  apply Nat.mod_injOn_Ico a q
  · exact Finset.mem_coe.mpr (Finset.mem_Ico.mpr ⟨hi, hi'⟩)
  · exact Finset.mem_coe.mpr (Finset.mem_Ico.mpr ⟨hj, hj'⟩)
  · exact h

theorem behind_mod {i n : ℕ} (hlt : i < n) (hle : n ≤ i + q) :
    behind q (n % q) (i % q) = n - i := by
  obtain ⟨d, rfl⟩ := Nat.exists_eq_add_of_le hlt.le
  have hr := Nat.mod_lt i (by omega : 0 < q)
  rw [← Nat.mod_add_mod, add_mod_of_le hr (by omega), behind]
  split_ifs <;> omega

theorem behind_self {x : ℕ} (hx : x ≤ q) : behind q x x = q := by
  rw [behind, if_neg (lt_irrefl x)]
  omega

theorem back_mod {n k : ℕ} (hq : 0 < q) (hk : k ≤ q) (hn : k ≤ n) :
    back q (n % q) k = (n - k) % q := by
  obtain ⟨i, rfl⟩ := Nat.exists_eq_add_of_le' hn
  have hr := Nat.mod_lt i hq
  rw [Nat.add_sub_cancel, ← Nat.mod_add_mod, add_mod_of_le hr hk, back]
  split_ifs <;> omega

end AdaptivePlatform.RingIndex
