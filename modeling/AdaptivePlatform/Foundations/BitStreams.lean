import AdaptivePlatform.Foundations.Bytes

/-!
# Bits of byte buffers

Position `k` of a buffer is bit `k % 8` of byte `k / 8`, the most significant bit of a
byte first. `Window data start len out` says that `out` holds the `len` bits of `data`
from position `start` on, aligned to its first byte and filled up with zeros to whole
bytes. A window is determined by its bits, so two routines that produce the same window
produce the same bytes.
-/
namespace AdaptivePlatform.BitStreams

open Bytes List BitVec

def bytesFor (n : ℕ) : ℕ := (n + 7) / 8

theorem le_bytesFor (n : ℕ) : n ≤ 8 * bytesFor n := by
  unfold bytesFor
  omega

/-- Bit `k` of the buffer; past its end the bits are zero. -/
def bitAt (data : List uint8) (k : ℕ) : Bool := (data.getD (k / 8) 0).getMsbD (k % 8)

section

variable {data xs ys : List uint8} {k n : ℕ} (b : uint8) {w : ℕ} (bs : List uint8)

theorem bitAt_cons_of_lt (h : k < 8) : bitAt (b :: data) k = b.getMsbD k := by
  have hdiv : k / 8 = 0 := by omega
  have hmod : k % 8 = k := by omega
  simp [bitAt, hdiv, hmod]

theorem bitAt_cons_add (k : ℕ) : bitAt (b :: data) (8 + k) = bitAt data k := by simp [bitAt]

theorem bitAt_drop (data : List uint8) (n k : ℕ) :
    bitAt (data.drop n) k = bitAt data (8 * n + k) := by
  have hdiv : (8 * n + k) / 8 = n + k / 8 := by omega
  simp [bitAt, hdiv]

theorem bitAt_take (h : k < 8 * n) : bitAt (data.take n) k = bitAt data k := by
  have hdiv : k / 8 < n := by omega
  simp [bitAt, getElem?_take_of_lt hdiv]

theorem bitAt_append_left (h : k < 8 * xs.length) : bitAt (xs ++ ys) k = bitAt xs k := by
  have hdiv : k / 8 < xs.length := by omega
  simp [bitAt, getElem?_append_left hdiv]

theorem bitAt_append_right (xs ys : List uint8) (k : ℕ) :
    bitAt (xs ++ ys) (8 * xs.length + k) = bitAt ys k := by
  rw [← bitAt_drop, drop_left]

theorem bitAt_replicate_zero (n k : ℕ) : bitAt (List.replicate n 0) k = false := by
  rw [bitAt, getD_eq_getElem?_getD, getElem?_replicate]
  split_ifs <;> simp

theorem bitAt_eight_mul_add (i : ℕ) (h : k < 8) :
    bitAt data (8 * i + k) = (data.getD i 0).getMsbD k := by
  have hdiv : (8 * i + k) / 8 = i := by omega
  have hmod : (8 * i + k) % 8 = k := by omega
  rw [bitAt, hdiv, hmod]

theorem eq_of_bitAt_eq (hlen : xs.length = ys.length)
    (h : ∀ k < 8 * xs.length, bitAt xs k = bitAt ys k) : xs = ys := by
  apply ext_getElem hlen
  intro i hx hy
  apply eq_of_getMsbD_eq
  intro k hk
  have hbit := h (8 * i + k) (by omega)
  rw [bitAt_eight_mul_add i hk, bitAt_eight_mul_add i hk] at hbit
  simpa [hx, hy] using hbit

theorem bitAt_beBytes (x : BitVec w) (h : k < 8 * n) :
    bitAt (beBytes n x) k = x.getLsbD (8 * n - 1 - k) := by
  induction n generalizing k with
  | zero => omega
  | succ n ih =>
    rw [beBytes]
    rcases Nat.lt_or_ge k 8 with hk | hk
    · have hpos : 8 * (n + 1) - 1 - k = 8 * n + (7 - k) := by omega
      have hlt : 7 - k < 8 := by omega
      rw [bitAt_cons_of_lt _ hk, getMsbD_eq_getLsbD, hpos]
      simp [hk, hlt]
    · obtain ⟨j, rfl⟩ := Nat.exists_eq_add_of_le hk
      have hpos : 8 * (n + 1) - 1 - (8 + j) = 8 * n - 1 - j := by omega
      rw [bitAt_cons_add, ih (by omega), hpos]

theorem mul_add_lt_mul {a b c x : ℕ} (hb : b < c) (hx : x < a) : a * b + x < a * c :=
  calc a * b + x < a * b + a := by omega
    _ = a * (b + 1) := rfl
    _ ≤ a * c := Nat.mul_le_mul_left a hb

theorem toNat_beWord_cons (h : 8 * (bs.length + 1) ≤ w)
    (hbs : (beWord w bs).toNat < 2 ^ (8 * bs.length)) :
    (beWord w (b :: bs)).toNat = 2 ^ (8 * bs.length) * b.toNat + (beWord w bs).toNat := by
  have hb : b.toNat < 2 ^ 8 := b.isLt
  have hpow : 2 ^ (8 * bs.length) * 2 ^ 8 ≤ 2 ^ w := by
    rw [← Nat.pow_add]
    apply Nat.pow_le_pow_right (by decide)
    omega
  have hsum : 2 ^ (8 * bs.length) * b.toNat + (beWord w bs).toNat < 2 ^ w :=
    (mul_add_lt_mul hb hbs).trans_le hpow
  have hwide : b.toNat < 2 ^ w := lt_of_lt_of_le hb (Nat.pow_le_pow_right (by decide) (by omega))
  rw [beWord, toNat_add, toNat_shiftLeft, Nat.shiftLeft_eq, toNat_setWidth,
    Nat.mod_eq_of_lt hwide, Nat.mul_comm, Nat.mod_add_mod, Nat.mod_eq_of_lt hsum]

theorem toNat_beWord_lt (h : 8 * bs.length ≤ w) : (beWord w bs).toNat < 2 ^ (8 * bs.length) := by
  induction bs with
  | nil => simp [beWord]
  | cons b bs ih =>
    rw [length_cons] at h ⊢
    have hbs := ih (by omega)
    rw [toNat_beWord_cons b bs h hbs, Nat.mul_succ, Nat.pow_add]
    exact mul_add_lt_mul b.isLt hbs

theorem getLsbD_beWord {bs : List uint8} (h : 8 * bs.length ≤ w) (hk : k < 8 * bs.length) :
    (beWord w bs).getLsbD (8 * bs.length - 1 - k) = bitAt bs k := by
  induction bs generalizing k with
  | nil => simp at hk
  | cons b bs ih =>
    rw [length_cons] at h hk ⊢
    have hbs := toNat_beWord_lt (w := w) bs (by omega)
    rw [BitVec.getLsbD, toNat_beWord_cons b bs h hbs, Nat.testBit_two_pow_mul_add _ hbs]
    rcases Nat.lt_or_ge k 8 with hk8 | hk8
    · have hpos : 8 * (bs.length + 1) - 1 - k - 8 * bs.length = 8 - 1 - k := by omega
      rw [if_neg (by omega), hpos, bitAt_cons_of_lt _ hk8, getMsbD_eq_getLsbD]
      simp [hk8, BitVec.getLsbD]
    · obtain ⟨j, rfl⟩ := Nat.exists_eq_add_of_le hk8
      have hpos : 8 * (bs.length + 1) - 1 - (8 + j) = 8 * bs.length - 1 - j := by omega
      rw [if_pos (by omega), hpos, bitAt_cons_add, ← ih (by omega) (by omega), BitVec.getLsbD]

end

/-- `out` is the window of `len` bits from position `start` on. -/
structure Window (data : List uint8) (start len : ℕ) (out : List uint8) : Prop where
  length_eq : out.length = bytesFor len
  bit_eq : ∀ k < 8 * out.length, bitAt out k = (decide (k < len) && bitAt data (start + k))

namespace Window

variable {data data' out out' : List uint8} {start start' len : ℕ}

theorem single {b : uint8} (hpos : 0 < len) (hle : len ≤ 8)
    (hb : ∀ k < 8, b.getMsbD k = (decide (k < len) && bitAt data (start + k))) :
    Window data start len [b] := by
  refine ⟨?_, fun k hk => ?_⟩
  · rw [bytesFor, length_singleton]
    omega
  · rw [bitAt_cons_of_lt _ (show k < 8 from hk), hb k hk]

theorem cons {b : uint8} {len' : ℕ} (hstart : start + 8 = start') (hlen : 8 + len = len')
    (h : Window data start' len out) (hb : ∀ k < 8, b.getMsbD k = bitAt data (start + k)) :
    Window data start len' (b :: out) := by
  subst hstart hlen
  refine ⟨?_, fun k hk => ?_⟩
  · rw [length_cons, h.length_eq, bytesFor, bytesFor]
    omega
  · rw [length_cons] at hk
    rcases Nat.lt_or_ge k 8 with hk8 | hk8
    · rw [bitAt_cons_of_lt _ hk8, hb k hk8, decide_eq_true (by omega), Bool.true_and]
    · obtain ⟨m, rfl⟩ := Nat.exists_eq_add_of_le hk8
      simp [bitAt_cons_add, h.bit_eq m (by omega), Nat.add_assoc]

theorem bit_of_lt (h : Window data start len out) {k : ℕ} (hk : k < len) :
    bitAt out k = bitAt data (start + k) := by
  have hbytes := le_bytesFor len
  rw [h.bit_eq k (by rw [h.length_eq]; omega), decide_eq_true hk, Bool.true_and]

end Window

end AdaptivePlatform.BitStreams
