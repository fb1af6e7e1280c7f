import Mathlib.Logic.Function.Iterate
import Mathlib.Tactic.Common

/-!
# Shift registers of cyclic redundancy checks

The register of width `w` is divided by `poly` one bit at a time, most
significant bit first. A step is linear over exclusive or, so the eight steps of
one byte split into a shift of the register and a table entry that depends on
the top byte only. Bit reversal carries this to registers that are shifted the
other way.
-/
namespace AdaptivePlatform.CrcRegister

open BitVec Function
open BitVec (allOnes msb)

variable {w : ℕ} (poly : BitVec w) (r : BitVec w)

def bit : BitVec w := if r.msb then (r <<< 1) ^^^ poly else r <<< 1

def atTop (w : ℕ) (b : BitVec 8) : BitVec w := b.setWidth w <<< (w - 8)

def topByte : BitVec 8 := (r >>> (w - 8)).setWidth 8

def feed (b : BitVec 8) : BitVec w := (bit poly)^[8] (r ^^^ atTop w b)

def tableEntry (i : BitVec 8) : BitVec w := (bit poly)^[8] (atTop w i)

theorem bit_xor (a b : BitVec w) : bit poly (a ^^^ b) = bit poly a ^^^ bit poly b := by
  have hcancel : ∀ x y : BitVec w, x ^^^ y = (x ^^^ poly) ^^^ (y ^^^ poly) := by
    intro x y
    rw [BitVec.xor_comm y poly, ← BitVec.xor_assoc, BitVec.xor_assoc x, BitVec.xor_self, xor_zero]
  unfold bit
  rw [msb_xor, shiftLeft_xor_distrib]
  cases a.msb <;> cases b.msb
  · rfl
  · exact BitVec.xor_assoc _ _ _
  · simp only [Bool.xor_false, ↓reduceIte, Bool.false_eq_true]
    rw [BitVec.xor_assoc, BitVec.xor_comm _ poly, ← BitVec.xor_assoc]
  · exact hcancel _ _

theorem bits_xor (n : ℕ) (a b : BitVec w) :
    (bit poly)^[n] (a ^^^ b) = (bit poly)^[n] a ^^^ (bit poly)^[n] b := by
  induction n generalizing a b with
  | zero => rfl
  | succ n ih => rw [iterate_succ_apply, iterate_succ_apply, iterate_succ_apply, bit_xor, ih]

theorem bits_of_clear {r : BitVec w} (n : ℕ) (hclear : ∀ i, w - n ≤ i → r.getLsbD i = false) :
    (bit poly)^[n] r = r <<< n := by
  induction n with
  | zero => simp
  | succ n ih =>
    have htop : (r <<< n).msb = false := by
      rw [msb_eq_getLsbD_last, getLsbD_shiftLeft]
      rw [hclear (w - 1 - n) (by omega)]
      simp
    rw [iterate_succ_apply', ih fun i hi => hclear i (by omega), bit, htop, shiftLeft_add]
    rfl

theorem getLsbD_atTop (hw : 8 ≤ w) (b : BitVec 8) (i : ℕ) :
    (atTop w b).getLsbD i = (decide (w - 8 ≤ i) && b.getLsbD (i - (w - 8))) := by
  unfold atTop
  rw [getLsbD_shiftLeft, getLsbD_setWidth]
  by_cases hi : i < w
  · by_cases hlow : i < w - 8
    · rw [decide_eq_false (show ¬ w - 8 ≤ i by omega)]
      simp [hlow]
    · rw [decide_eq_true (show w - 8 ≤ i by omega)]
      simp [hi, hlow, show i - (w - 8) < w by omega]
  · rw [getLsbD_of_ge b (i - (w - 8)) (by omega)]
    simp

theorem getLsbD_topByte (i : ℕ) :
    (topByte r).getLsbD i = (decide (i < 8) && r.getLsbD (w - 8 + i)) := by
  unfold topByte
  rw [getLsbD_setWidth, getLsbD_ushiftRight]

def rest : BitVec w := (r.setWidth (w - 8)).setWidth w

theorem getLsbD_rest (i : ℕ) : (rest r).getLsbD i = (decide (i < w - 8) && r.getLsbD i) := by
  unfold rest
  by_cases hi : i < w
  · simp [hi]
  · simp [show ¬ i < w - 8 by omega]

theorem atTop_topByte_xor_rest (hw : 8 ≤ w) (r : BitVec w) :
    atTop w (topByte r) ^^^ rest r = r := by
  apply eq_of_getLsbD_eq
  intro i hi
  rw [getLsbD_xor, getLsbD_atTop hw, getLsbD_topByte r, getLsbD_rest]
  by_cases hlow : i < w - 8
  · simp [hlow, show ¬ w - 8 ≤ i by omega]
  · simp [hlow, show w - 8 ≤ i by omega, show i - (w - 8) < 8 by omega]

theorem atTop_xor (a b : BitVec 8) : atTop w (a ^^^ b) = atTop w a ^^^ atTop w b := by
  unfold atTop
  rw [setWidth_xor, shiftLeft_xor_distrib]

theorem rest_shiftLeft : rest r <<< 8 = r <<< 8 := by
  apply eq_of_getLsbD_eq
  intro i hi
  rw [getLsbD_shiftLeft, getLsbD_shiftLeft, getLsbD_rest]
  by_cases hlow : i < 8
  · simp [hlow]
  · simp [show i - 8 < w - 8 by omega]

/-- One byte moves the register up and adds the entry of its top byte. -/
theorem feed_eq (hw : 8 ≤ w) (r : BitVec w) (b : BitVec 8) :
    feed poly r b = (r <<< 8) ^^^ tableEntry poly (topByte r ^^^ b) := by
  have hsplit : r ^^^ atTop w b = rest r ^^^ atTop w (topByte r ^^^ b) := by
    calc r ^^^ atTop w b = (atTop w (topByte r) ^^^ rest r) ^^^ atTop w b := by
          rw [atTop_topByte_xor_rest hw]
      _ = rest r ^^^ (atTop w (topByte r) ^^^ atTop w b) := by
          rw [BitVec.xor_comm (atTop w (topByte r)), BitVec.xor_assoc]
      _ = rest r ^^^ atTop w (topByte r ^^^ b) := by rw [atTop_xor]
  have hclear : ∀ i, w - 8 ≤ i → (rest r).getLsbD i = false := by
    intro i hi
    rw [getLsbD_rest]
    simp [show ¬ i < w - 8 by omega]
  rw [feed, hsplit, bits_xor, bits_of_clear poly 8 hclear, rest_shiftLeft, tableEntry]

section

theorem reverse_xor (a b : BitVec w) : (a ^^^ b).reverse = a.reverse ^^^ b.reverse := by
  apply eq_of_getLsbD_eq
  intro i hi
  simp [getLsbD_reverse]

theorem reverse_allOnes : (allOnes w).reverse = allOnes w := by
  apply eq_of_getLsbD_eq
  intro i hi
  rw [getLsbD_reverse, getMsbD_eq_getLsbD, getLsbD_allOnes, getLsbD_allOnes]
  simp [show w - 1 - i < w by omega]

variable (input : BitVec w)

theorem reverse_shiftLeft (n : ℕ) : (r <<< n).reverse = r.reverse >>> n := by
  apply eq_of_getLsbD_eq
  intro i hi
  rw [getLsbD_reverse, getLsbD_ushiftRight, getLsbD_reverse, getMsbD_shiftLeft, Nat.add_comm]

theorem topByte_eq_reverse (hw : 8 ≤ w) (r : BitVec w) :
    topByte r = (r.reverse.setWidth 8).reverse := by
  apply eq_of_getLsbD_eq
  intro i hi
  rw [getLsbD_topByte r, getLsbD_reverse, getMsbD_eq_getLsbD,
    getLsbD_setWidth, getLsbD_reverse, getMsbD_eq_getLsbD]
  have hidx : w - 1 - (8 - 1 - i) = w - 8 + i := by omega
  simp [hidx, show 8 - 1 - i < w by omega, show 8 - 1 - i < 8 by omega]

/-- One step of the division on a reversed register. -/
def bitLow (poly r : BitVec w) : BitVec w := if r.getLsbD 0 then (r >>> 1) ^^^ poly else r >>> 1

def tableEntryLow (poly : BitVec w) (i : BitVec 8) : BitVec w := (bitLow poly)^[8] (i.setWidth w)

theorem reverse_bit : (bit poly r).reverse = bitLow poly.reverse r.reverse := by
  have hmsb : r.reverse.getLsbD 0 = r.msb := by rw [getLsbD_reverse, msb]
  unfold bit bitLow
  rw [hmsb]
  split_ifs
  · rw [reverse_xor, reverse_shiftLeft]
  · rw [reverse_shiftLeft]

theorem reverse_bits (n : ℕ) (r : BitVec w) :
    ((bit poly)^[n] r).reverse = (bitLow poly.reverse)^[n] r.reverse := by
  induction n generalizing r with
  | zero => rfl
  | succ n ih => rw [iterate_succ_apply, iterate_succ_apply, ih, reverse_bit]

theorem reverse_atTop (hw : 8 ≤ w) (b : BitVec 8) : (atTop w b.reverse).reverse = b.setWidth w := by
  apply eq_of_getLsbD_eq
  intro i hi
  rw [getLsbD_reverse, getMsbD_eq_getLsbD, getLsbD_atTop hw, getLsbD_reverse,
    getMsbD_eq_getLsbD, getLsbD_setWidth]
  by_cases hlow : i < 8
  · have hidx : 8 - 1 - (w - 1 - i - (w - 8)) = i := by omega
    simp [hidx, show w - 8 ≤ w - 1 - i by omega, show w - 1 - i - (w - 8) < 8 by omega]
  · rw [getLsbD_of_ge b i (by omega), decide_eq_false (show ¬ w - 8 ≤ w - 1 - i by omega)]
    simp

/-- The reversed register after one reversed byte, in terms of the reversed
register: it moves down and adds the entry of its low byte. -/
theorem reverse_feed (hw : 8 ≤ w) (r : BitVec w) (b : BitVec 8) :
    (feed poly r b.reverse).reverse =
      (r.reverse >>> 8) ^^^ tableEntryLow poly.reverse (r.reverse.setWidth 8 ^^^ b) := by
  rw [feed_eq poly hw, reverse_xor, reverse_shiftLeft, topByte_eq_reverse hw, ← reverse_xor,
    tableEntry, reverse_bits, reverse_atTop hw, tableEntryLow]

/-- `for (i = 0; i < n; i++) result |= ((input >> i) & 1) << (w - 1 - i)` -/
def reflectUpTo (input : BitVec w) : ℕ → BitVec w
  | 0 => 0
  | n + 1 => reflectUpTo input n ||| (((input >>> n) &&& 1#w) <<< (w - 1 - n))

theorem getLsbD_bitAt {n j : ℕ} (hn : n < w) (hj : j < w) :
    (((input >>> n) &&& 1#w) <<< (w - 1 - n)).getLsbD j =
      (decide (w - 1 - j = n) && input.getLsbD n) := by
  by_cases hjn : j < w - 1 - n
  · simp [hjn, show w - 1 - j ≠ n by omega]
  · by_cases heq : w - 1 - j = n
    · have : j - (w - 1 - n) = 0 := by omega
      simp [hj, hjn, heq, this]
    · have : j - (w - 1 - n) ≠ 0 := by omega
      simp [heq, this]

theorem getLsbD_reflectUpTo {n j : ℕ} (hn : n ≤ w) (hj : j < w) :
    (reflectUpTo input n).getLsbD j = (decide (w - 1 - j < n) && input.getLsbD (w - 1 - j)) := by
  induction n with
  | zero => simp [reflectUpTo]
  | succ n ih =>
    rw [reflectUpTo, getLsbD_or, ih (by omega), getLsbD_bitAt input (by omega) hj]
    rcases Nat.lt_trichotomy (w - 1 - j) n with hlt | heq | hgt
    · simp [hlt, show w - 1 - j < n + 1 by omega, show w - 1 - j ≠ n by omega]
    · simp [heq]
    · simp [show ¬ w - 1 - j < n by omega, show ¬ w - 1 - j < n + 1 by omega,
        show w - 1 - j ≠ n by omega]

theorem reflectUpTo_width : reflectUpTo input w = input.reverse := by
  apply eq_of_getLsbD_eq
  intro j hj
  rw [getLsbD_reflectUpTo input (Nat.le_refl w) hj, getLsbD_reverse, getMsbD_eq_getLsbD]
  simp [hj, show w - 1 - j < w by omega]

end

end AdaptivePlatform.CrcRegister
