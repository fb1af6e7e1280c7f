import AdaptivePlatform.Secoc.Helper
import AdaptivePlatform.Secoc.Profile

/-!
# The freshness value manager

A freshness value is a counter or a time in seconds. It travels in a container of eight
bytes, its most significant bit first and filled up with zeros to whole bytes. The receiver
gets the low bits only and rebuilds the whole value from its stored counter or its clock.

The language leaves the result of shifting a 64-bit word by 64 or more open; `Shifts` is
what the machine does in that case, and no result below depends on it.
-/
namespace AdaptivePlatform.Secoc

open Bytes BitStreams BitVec Nat
open Function (update)

/-- The machine's shifts by 64 or more. -/
structure Shifts where
  left : uint64 → ℕ → uint64
  right : uint64 → ℕ → uint64

def Shifts.shl (m : Shifts) (x : uint64) (n : ℕ) : uint64 := if n < 64 then x <<< n else m.left x n

def Shifts.shr (m : Shifts) (x : uint64) (n : ℕ) : uint64 := if n < 64 then x >>> n else m.right x n

structure FVContainer where
  length : ℕ
  value : List uint8

inductive SecOcFvmErrc
  | kFVInitializeFailed
  | kUnknownError

/-- The maps of the manager. The word of a freshness identifier holds the mode in its high
byte, `0` for a counter and `1` for a timestamp, and the length of the value in its low byte. -/
structure FVM where
  modeAndLength : uint16 → Option uint16
  counter : uint16 → Option uint64
  counterRx : uint16 → Option uint64

/-- The first number above `old` that is `low` modulo `M`. -/
def nextWith (M old low : ℕ) : ℕ :=
  if old % M < low then old / M * M + low else (old / M + 1) * M + low

section

variable {M old low s : ℕ}

theorem lt_nextWith (old : ℕ) (hlow : low < M) : old < nextWith M old low := by
  have hsplit := div_add_mod' old M
  have hmod : old % M < M := mod_lt _ (by omega)
  unfold nextWith
  split_ifs
  · omega
  · rw [Nat.succ_mul]
    omega

theorem nextWith_mod (old : ℕ) (hlow : low < M) : nextWith M old low % M = low := by
  unfold nextWith
  split_ifs
  all_goals rw [mul_add_mod', mod_eq_of_lt hlow]

theorem nextWith_le (old : ℕ) (hlow : low < M) : nextWith M old low ≤ old + M := by
  have hsplit := div_add_mod' old M
  unfold nextWith
  split_ifs
  · omega
  · rw [Nat.succ_mul]
    omega

/-- A number not more than `M` above `old` is found from its residue. -/
theorem nextWith_residue (hlt : old < s) (hle : s ≤ old + M) (hM : 0 < M) :
    nextWith M old (s % M) = s := by
  have hlow : s % M < M := mod_lt _ hM
  have hgt := lt_nextWith old hlow
  have hmax := nextWith_le old hlow
  have hmod := nextWith_mod old hlow
  rcases Nat.lt_trichotomy (nextWith M old (s % M)) s with hless | heq | hmore
  · have hdvd := dvd_of_mod_eq_zero (sub_mod_eq_zero_of_mod_eq hmod.symm)
    have := le_of_dvd (by omega) hdvd
    omega
  · exact heq
  · have hdvd := dvd_of_mod_eq_zero (sub_mod_eq_zero_of_mod_eq hmod)
    have := le_of_dvd (by omega) hdvd
    omega

end

/-- An or, above and below the bit `i`. -/
theorem or_eq_parts (i a b : ℕ) :
    a ||| b = 2 ^ i * (a / 2 ^ i ||| b / 2 ^ i) + (a % 2 ^ i ||| b % 2 ^ i) := by
  rw [← or_div_two_pow, ← or_mod_two_pow, div_add_mod]

theorem mod_or_ones (e a : ℕ) : a % 2 ^ e ||| (2 ^ e - 1) = 2 ^ e - 1 := by
  have hpos := Nat.two_pow_pos e
  have hlt : a % 2 ^ e ||| (2 ^ e - 1) < 2 ^ e := or_lt_two_pow (mod_lt _ hpos) (by omega)
  have hle : 2 ^ e - 1 ≤ a % 2 ^ e ||| (2 ^ e - 1) := right_le_or
  omega

theorem or_ones (e a : ℕ) : a ||| (2 ^ e - 1) = 2 ^ e * (a / 2 ^ e) + (2 ^ e - 1) := by
  have hlt : 2 ^ e - 1 < 2 ^ e := Nat.sub_lt (Nat.two_pow_pos e) (by decide)
  rw [or_eq_parts e, Nat.div_eq_of_lt hlt, Nat.or_zero, mod_eq_of_lt hlt, mod_or_ones]

/-- At the lowest set bit `j` of `b`: or-ed with `b` and with `b - 1`, the bits above `j` are the same,
bit `j` is set or that of `a`, and the bits below are those of `a` or all set. -/
theorem or_lowest {a b j : ℕ} (hlowest : b % 2 ^ (j + 1) = 2 ^ j) : ∃ c,
    a ||| b = 2 ^ j * (2 * c + 1) + a % 2 ^ j ∧
      a ||| (b - 1) = 2 ^ j * (2 * c + a / 2 ^ j % 2) + (2 ^ j - 1) := by
  have hpos := Nat.two_pow_pos j
  obtain ⟨q, hb⟩ : ∃ q, b = 2 ^ j * (2 * q + 1) := by
    refine ⟨b / 2 ^ (j + 1), ?_⟩
    have hsplit := div_add_mod b (2 ^ (j + 1))
    rw [hlowest, pow_succ] at hsplit
    rw [Nat.pow_succ, Nat.mul_add, ← Nat.mul_assoc, Nat.mul_one]
    exact hsplit.symm
  have hpred : b - 1 = 2 ^ j * (2 * q) + (2 ^ j - 1) := by
    rw [hb, Nat.mul_add]
    omega
  have hdiv : b / 2 ^ j = 2 * q + 1 := by rw [hb, Nat.mul_div_cancel_left _ hpos]
  have hmod : b % 2 ^ j = 0 := by rw [hb, mul_mod_right]
  have hdiv' : (b - 1) / 2 ^ j = 2 * q := by
    rw [hpred, Nat.mul_add_div hpos, Nat.div_eq_of_lt (by omega), Nat.add_zero]
  have hmod' : (b - 1) % 2 ^ j = 2 ^ j - 1 := by
    rw [hpred, mul_add_mod, mod_eq_of_lt (by omega)]
  have hodd : a / 2 ^ j ||| (2 * q + 1) = 2 * (a / 2 ^ j / 2 ||| q) + 1 := by
    have hone : a / 2 ^ j % 2 ^ 1 ||| 1 = 1 := mod_or_ones 1 _
    rw [or_eq_parts 1, show (2 * q + 1) / 2 ^ 1 = q by omega,
      show (2 * q + 1) % 2 ^ 1 = 1 by omega, hone, pow_one]
  have heven : a / 2 ^ j ||| 2 * q = 2 * (a / 2 ^ j / 2 ||| q) + a / 2 ^ j % 2 := by
    rw [or_eq_parts 1, show 2 * q / 2 ^ 1 = q by omega, show 2 * q % 2 ^ 1 = 0 by omega,
      Nat.or_zero, pow_one]
  refine ⟨a / 2 ^ j / 2 ||| q, ?_, ?_⟩
  · rw [or_eq_parts j a b, hdiv, hmod, hodd, Nat.or_zero]
  · rw [or_eq_parts j a (b - 1), hdiv', hmod', heven, mod_or_ones]

namespace FVM

def modeOf (word : uint16) : uint16 := word >>> 8

def bitLengthOf (word : uint16) : ℕ := (word &&& 0xFF#16).toNat

/-- The word stored for a profile. -/
def wordOf (profile : SecOCProfile) : uint16 :=
  (if profile.useFreshnessTimestamp then 1#16 <<< 8 else 0#16 <<< 8) +
    (profile.freshnessValueLength.setWidth 8).setWidth 16

variable (m : Shifts) (now : uint64) (fvm : FVM) (id : uint16)

/-- One turn of the loop of `ImplInitialize`. -/
def register (profile : SecOCProfile) : FVM :=
  let id := profile.freshnessId
  if profile.useFreshnessTimestamp then
    { fvm with modeAndLength := update fvm.modeAndLength id (some (wordOf profile)) }
  else
    { counterRx := update fvm.counterRx id (some 0)
      counter := update fvm.counter id (some 0)
      modeAndLength := update fvm.modeAndLength id (some (wordOf profile)) }

/-- The manager after `ImplInitialize`, for the profiles of the freshness identifiers. -/
def implInitialize (profiles : List SecOCProfile) : FVM :=
  profiles.foldl register ⟨fun _ => none, fun _ => none, fun _ => none⟩

variable (bitLength : ℕ) (x : uint64)

/-- The container of a value: shifted to the top of its bytes, most significant byte first. -/
def encodeValue : List uint8 :=
  let byteLength := calcByteNum bitLength
  beBytes byteLength (x <<< (byteLength * 8 - bitLength)) ++ List.replicate (8 - byteLength) 0

/-- The value of the first bits of a container. -/
def decodeValue (value : List uint8) : uint64 :=
  let byteLength := calcByteNum bitLength
  beWord 64 (value.take byteLength) >>> (byteLength * 8 - bitLength)

def container : FVContainer := ⟨bitLength, encodeValue bitLength x⟩

def implGetTxFreshness : Except SecOcFvmErrc (FVContainer × FVM) :=
  match fvm.modeAndLength id with
  | none => .error .kFVInitializeFailed
  | some word =>
    let fvBitLength := bitLengthOf word
    if modeOf word = 0 then
      match fvm.counter id with
      | none => .error .kFVInitializeFailed
      | some stored =>
        let counter := stored + 1
        if 64 < fvBitLength then .error .kFVInitializeFailed
        else
          let kept := m.shr (m.shl counter (64 - fvBitLength)) (64 - fvBitLength)
          .ok (container fvBitLength counter,
            { fvm with counter := update fvm.counter id (some kept) })
    else if modeOf word = 1 then
      let timestamp := m.shr (m.shl now (64 - fvBitLength)) (64 - fvBitLength)
      if 64 < fvBitLength then .error .kFVInitializeFailed
      else .ok (container fvBitLength timestamp, fvm)
    else .error .kFVInitializeFailed

def lowBits (n : ℕ) : uint64 := m.shr (m.shl x (64 - n)) (64 - n)

/-- The upper part of a value of `fv` bits whose low `tx` bits are sent. -/
def upperBits (fv tx : ℕ) : uint64 := m.shr (m.shl x (64 - fv)) (64 - fv + tx)

/-- The value the receiver assumes for a counter: the next one with the low bits received. -/
def guessCounter (fv tx : ℕ) (oldCounter fvTxValue : uint64) : uint64 :=
  let mostSignificantCounter := upperBits m oldCounter fv tx
  if lowBits m oldCounter tx < fvTxValue then m.shl mostSignificantCounter tx ||| fvTxValue
  else m.shl (mostSignificantCounter + 1) tx ||| fvTxValue

/-- The value the receiver assumes for a time. The window of three seconds is applied to the
upper part or-ed with the low part. -/
def guessTimestamp (fv tx : ℕ) (timestamp fvTxValue : uint64) : uint64 :=
  let least := lowBits m timestamp tx
  let most := upperBits m timestamp fv tx
  let windowCompare := if 3 < (most ||| least) then (most ||| least) - 3 else 0
  if windowCompare ≤ (most ||| fvTxValue) ∧ (most ||| fvTxValue) ≤ (most ||| least) then
    m.shl most tx ||| fvTxValue
  else
    let mostTmp := m.shr (m.shl (most - 1) (64 + tx - fv)) (64 + tx - fv)
    m.shl mostTmp tx ||| fvTxValue

def implGetRxFreshness (truncated : FVContainer) : Except SecOcFvmErrc FVContainer :=
  let fvTxBitLength := truncated.length
  if 64 < fvTxBitLength then .error .kFVInitializeFailed
  else
    match fvm.modeAndLength id with
    | none => .error .kFVInitializeFailed
    | some word =>
      let fvBitLength := bitLengthOf word
      let fvTxValue := decodeValue fvTxBitLength truncated.value
      if modeOf word = 0 then
        match fvm.counterRx id with
        | none => .error .kFVInitializeFailed
        | some oldCounter =>
          if fvBitLength = fvTxBitLength then
            if fvTxValue ≤ lowBits m oldCounter fvTxBitLength then .error .kUnknownError
            else .ok truncated
          else
            .ok (container fvBitLength
              (guessCounter m fvBitLength fvTxBitLength oldCounter fvTxValue))
      else if modeOf word = 1 then
        if fvBitLength = fvTxBitLength then
          if 3 ≤ lowBits m now fvTxBitLength - fvTxValue then .error .kFVInitializeFailed
          else .ok truncated
        else
          .ok (container fvBitLength (guessTimestamp m fvBitLength fvTxBitLength now fvTxValue))
      else .error .kFVInitializeFailed

/-- The verified value becomes the stored counter. -/
def implVerificationSuccessCallout (freshness : FVContainer) : FVM :=
  match fvm.modeAndLength id, fvm.counterRx id with
  | some word, some _ =>
    if modeOf word = 0 ∧ freshness.length = bitLengthOf word ∧ freshness.length ≤ 64 then
      { fvm with
        counterRx := update fvm.counterRx id
          (some (decodeValue freshness.length freshness.value)) }
    else fvm
  | _, _ => fvm

section

variable {profile : SecOCProfile}

theorem toNat_wordOf (h : profile.Valid) : (wordOf profile).toNat =
    (if profile.useFreshnessTimestamp then 256 else 0) + profile.freshnessValueLength.toNat := by
  have hle := h.freshness_le
  have hlow : ((profile.freshnessValueLength.setWidth 8).setWidth 16).toNat =
      profile.freshnessValueLength.toNat := by
    bv_omega
  unfold wordOf
  rw [toNat_add, hlow]
  cases profile.useFreshnessTimestamp with
  | true =>
    have hmode : (1#16 <<< 8).toNat = 256 := rfl
    rw [if_pos rfl, if_pos rfl, hmode]
    omega
  | false =>
    have hmode : (0#16 <<< 8).toNat = 0 := rfl
    rw [if_neg (by decide), if_neg (by decide), hmode]
    omega

theorem bitLengthOf_wordOf (h : profile.Valid) :
    bitLengthOf (wordOf profile) = profile.freshnessValueLength.toNat := by
  have hle := h.freshness_le
  rw [bitLengthOf, toNat_and_mask (n := 8) rfl, toNat_wordOf h]
  split_ifs <;> omega

theorem modeOf_wordOf (h : profile.Valid) :
    modeOf (wordOf profile) = if profile.useFreshnessTimestamp then 1 else 0 := by
  have hle := h.freshness_le
  apply eq_of_toNat_eq
  rw [modeOf, toNat_ushiftRight, toNat_wordOf h, shiftRight_eq_div_pow]
  split_ifs
  · rw [Nat.div_eq_of_lt_le (k := 1) (by omega) (by omega)]
    rfl
  · rw [div_eq_of_lt (by omega)]
    rfl

end

section

variable {m : Shifts} {x y : uint64} {n fv tx : ℕ}

theorem toNat_upperBits (htx : tx < fv) (hfv : fv ≤ 64) :
    (upperBits m x fv tx).toNat = x.toNat % 2 ^ fv / 2 ^ tx := by
  have hpow : 2 ^ (64 - fv) * 2 ^ fv = 2 ^ 64 := pow_sub_mul_pow 2 hfv
  have hlt : 64 - fv < 64 := by omega
  have hlt' : 64 - fv + tx < 64 := by omega
  rw [upperBits, Shifts.shl, Shifts.shr, if_pos hlt, if_pos hlt', toNat_ushiftRight,
    toNat_shiftLeft, Nat.shiftLeft_eq, shiftRight_eq_div_pow, Nat.mul_comm, ← hpow,
    mul_mod_mul_left, Nat.pow_add, ← Nat.div_div_eq_div_mul,
    Nat.mul_div_cancel_left _ (Nat.two_pow_pos _)]

theorem toNat_lowBits (hn : 0 < n) (hle : n ≤ 64) : (lowBits m x n).toNat = x.toNat % 2 ^ n := by
  have hnone := toNat_upperBits (m := m) (x := x) hn hle
  rwa [Nat.pow_zero, Nat.div_one] at hnone

theorem byteLength_bounds (hn : n ≤ 64) : n ≤ calcByteNum n * 8 ∧ calcByteNum n ≤ 8 := by
  rw [calcByteNum_eq, bytesFor]
  omega

theorem take_encodeValue (n : ℕ) (x : uint64) : (encodeValue n x).take (calcByteNum n) =
    beBytes (calcByteNum n) (x <<< (calcByteNum n * 8 - n)) :=
  List.take_left' (length_beBytes _ _)

theorem toNat_decodeValue_encodeValue (hn : n ≤ 64) (x : uint64) :
    (decodeValue n (encodeValue n x)).toNat = x.toNat % 2 ^ n := by
  obtain ⟨hle, hbytes⟩ := byteLength_bounds hn
  have hpow : 2 ^ (calcByteNum n * 8 - n) * 2 ^ n = 2 ^ (8 * calcByteNum n) := by
    rw [pow_sub_mul_pow 2 hle, Nat.mul_comm]
  have hmod : 2 ^ 64 % 2 ^ (8 * calcByteNum n) = 0 := by
    apply mod_eq_zero_of_dvd
    apply Nat.pow_dvd_pow
    omega
  rw [decodeValue, take_encodeValue, toNat_ushiftRight,
    toNat_beWord_beBytes (by omega), toNat_shiftLeft, Nat.shiftLeft_eq,
    shiftRight_eq_div_pow, mod_mod_of_dvd _ (dvd_of_mod_eq_zero hmod), ← hpow,
    Nat.mul_comm x.toNat, mul_mod_mul_left, Nat.mul_div_cancel_left _ (Nat.two_pow_pos _)]

theorem toNat_decodeValue_lt (hn : n ≤ 64) (value : List uint8) :
    (decodeValue n value).toNat < 2 ^ n := by
  obtain ⟨hle, hbytes⟩ := byteLength_bounds hn
  have htake := List.length_take_le (calcByteNum n) value
  have hlt : (beWord 64 (value.take (calcByteNum n))).toNat < 2 ^ (calcByteNum n * 8) := by
    apply lt_of_lt_of_le (toNat_beWord_lt _ (by omega))
    apply Nat.pow_le_pow_right (by decide)
    omega
  rw [decodeValue, toNat_ushiftRight, shiftRight_eq_div_pow]
  apply Nat.div_lt_of_lt_mul
  rwa [pow_sub_mul_pow 2 hle]

theorem getLsbD_decodeValue {value : List uint8} {j : ℕ} (hn : n ≤ 64)
    (hlen : calcByteNum n ≤ value.length) (hj : j < n) :
    (decodeValue n value).getLsbD j = bitAt value (n - 1 - j) := by
  obtain ⟨hle, hbytes⟩ := byteLength_bounds hn
  have htake : (value.take (calcByteNum n)).length = calcByteNum n := by
    rw [List.length_take]
    omega
  have hpos : calcByteNum n * 8 - n + j = 8 * calcByteNum n - 1 - (n - 1 - j) := by omega
  have hin : n - 1 - j < 8 * calcByteNum n := by omega
  have hbit := getLsbD_beWord (w := 64) (k := n - 1 - j)
    (by rw [htake]; omega) (by rw [htake]; exact hin)
  rw [htake] at hbit
  rw [decodeValue, getLsbD_ushiftRight, hpos, hbit, bitAt_take hin]

/-- A value read from a container depends on its first bits only. -/
theorem decodeValue_congr {value value' : List uint8} (hn : n ≤ 64)
    (hlen : calcByteNum n ≤ value.length) (hlen' : calcByteNum n ≤ value'.length)
    (hbits : ∀ k < n, bitAt value k = bitAt value' k) :
    decodeValue n value = decodeValue n value' := by
  have hlt := toNat_decodeValue_lt hn value
  have hlt' := toNat_decodeValue_lt hn value'
  apply eq_of_getLsbD_eq
  intro j _
  rcases Nat.lt_or_ge j n with hj | hj
  · rw [getLsbD_decodeValue hn hlen hj, getLsbD_decodeValue hn hlen' hj, hbits _ (by omega)]
  · have hpow : 2 ^ n ≤ 2 ^ j := Nat.pow_le_pow_right (by decide) hj
    rw [BitVec.getLsbD, BitVec.getLsbD, testBit_lt_two_pow (by omega),
      testBit_lt_two_pow (by omega)]

theorem toNat_join {most low : uint64} (htx : tx < 64) (hlow : low.toNat < 2 ^ tx) :
    (m.shl most tx ||| low).toNat = (most.toNat * 2 ^ tx + low.toNat) % 2 ^ 64 := by
  have hpow : 2 ^ tx * 2 ^ (64 - tx) = 2 ^ 64 := pow_mul_pow_sub 2 htx.le
  have hshift : (most <<< tx).toNat = 2 ^ tx * (most.toNat % 2 ^ (64 - tx)) := by
    rw [toNat_shiftLeft, Nat.shiftLeft_eq, Nat.mul_comm, ← hpow, mul_mod_mul_left]
  have hsum : 2 ^ tx * (most.toNat % 2 ^ (64 - tx)) + low.toNat < 2 ^ 64 :=
    hpow ▸ mul_add_lt_mul (mod_lt _ (Nat.two_pow_pos _)) hlow
  have hjoin : (most <<< tx ||| low).toNat = 2 ^ tx * (most.toNat % 2 ^ (64 - tx)) + low.toNat := by
    rw [toNat_or, hshift, two_pow_add_eq_or_of_lt hlow]
  have hsplit : most.toNat * 2 ^ tx = 2 ^ 64 * (most.toNat / 2 ^ (64 - tx)) +
      2 ^ tx * (most.toNat % 2 ^ (64 - tx)) := by
    rw [← hpow, Nat.mul_assoc, ← Nat.mul_add, div_add_mod, Nat.mul_comm]
  rw [Shifts.shl, if_pos htx, hjoin, hsplit, Nat.add_assoc, mul_add_mod, mod_eq_of_lt hsum]

/-- The guess is the next value with the low bits received, cut to the length of the value. -/
theorem toNat_guessCounter {old v : uint64} (htx : 0 < tx) (hlt : tx < fv) (hfv : fv ≤ 64)
    (hold : old.toNat < 2 ^ fv) (hv : v.toNat < 2 ^ tx) :
    (guessCounter m fv tx old v).toNat % 2 ^ fv = nextWith (2 ^ tx) old.toNat v.toNat % 2 ^ fv := by
  have hdvd : 2 ^ fv ∣ 2 ^ 64 := Nat.pow_dvd_pow 2 hfv
  have hlow : (lowBits m old tx).toNat = old.toNat % 2 ^ tx := toNat_lowBits htx (by omega)
  have hmost : (upperBits m old fv tx).toNat = old.toNat / 2 ^ tx := by
    rw [toNat_upperBits hlt hfv, mod_eq_of_lt hold]
  have hnext : (upperBits m old fv tx + 1).toNat = old.toNat / 2 ^ tx + 1 := by
    have hsmall : old.toNat / 2 ^ tx < 2 ^ 63 := by
      apply Nat.div_lt_of_lt_mul
      calc old.toNat < 2 ^ 64 := old.isLt
        _ = 2 ^ 1 * 2 ^ 63 := by norm_num
        _ ≤ 2 ^ tx * 2 ^ 63 := Nat.mul_le_mul_right _ (Nat.pow_le_pow_right (by decide) htx)
    have hone : (1 : uint64).toNat = 1 := rfl
    bv_omega
  unfold guessCounter nextWith
  simp only [lt_def, hlow]
  split_ifs
  · rw [toNat_join (by omega) hv, hmost, mod_mod_of_dvd _ hdvd]
  · rw [toNat_join (by omega) hv, hnext, mod_mod_of_dvd _ hdvd]

/-- The test of the receiver for a time whose upper part is that of its own clock. -/
def InWindow (most least v : ℕ) : Prop :=
  (most ||| least) - 3 ≤ most ||| v ∧ most ||| v ≤ most ||| least

instance (most least v : ℕ) : Decidable (InWindow most least v) :=
  inferInstanceAs (Decidable (_ ∧ _))

theorem toNat_guessTimestamp {now v : uint64} (htx : 0 < tx) (hlt : tx < fv) (hfv : fv ≤ 64)
    (hv : v.toNat < 2 ^ tx) :
    (guessTimestamp m fv tx now v).toNat =
      (if InWindow (now.toNat % 2 ^ fv / 2 ^ tx) (now.toNat % 2 ^ tx) v.toNat then
        now.toNat % 2 ^ fv / 2 ^ tx
      else (now.toNat % 2 ^ fv / 2 ^ tx + (2 ^ 64 - 1)) % 2 ^ (fv - tx)) * 2 ^ tx + v.toNat := by
  have hpow : 2 ^ tx * 2 ^ (fv - tx) = 2 ^ fv := pow_mul_pow_sub 2 hlt.le
  have hmost := toNat_upperBits (m := m) (x := now) hlt hfv
  have hbound : now.toNat % 2 ^ fv / 2 ^ tx < 2 ^ (fv - tx) := by
    apply Nat.div_lt_of_lt_mul
    rw [hpow]
    exact mod_lt _ (Nat.two_pow_pos _)
  have hjoin : ∀ {most : uint64}, most.toNat < 2 ^ (fv - tx) →
      (m.shl most tx ||| v).toNat = most.toNat * 2 ^ tx + v.toNat := by
    intro most hsmall
    rw [toNat_join (by omega) hv, Nat.mul_comm, mod_eq_of_lt]
    exact (mul_add_lt_mul hsmall hv).trans_le (hpow ▸ Nat.pow_le_pow_right (by decide) hfv)
  have hwindow : ∀ x : uint64, (if 3 < x then x - 3 else 0).toNat = x.toNat - 3 := by
    intro x
    split_ifs <;> bv_omega
  have hless : ∀ x : uint64, m.shr (m.shl x (64 + tx - fv)) (64 + tx - fv) =
      lowBits m x (fv - tx) := by
    intro x
    rw [lowBits, show 64 + tx - fv = 64 - (fv - tx) by omega]
  have hone : (1 : uint64).toNat = 1 := rfl
  unfold guessTimestamp
  simp only [le_def, hwindow, toNat_or, hmost, toNat_lowBits htx (by omega : tx ≤ 64), hless]
  by_cases hin : InWindow (now.toNat % 2 ^ fv / 2 ^ tx) (now.toNat % 2 ^ tx) v.toNat
  · rw [if_pos hin, if_pos (show _ ∧ _ from hin), hjoin (hmost ▸ hbound), hmost]
  · have hlow := toNat_lowBits (m := m) (x := upperBits m now fv tx - 1) (n := fv - tx)
      (by omega) (by omega)
    rw [if_neg hin, if_neg (show ¬ (_ ∧ _) from hin), hjoin (hlow ▸ mod_lt _ (Nat.two_pow_pos _)),
      hlow, toNat_sub, hone, hmost, mod_mod_of_dvd _ (Nat.pow_dvd_pow 2 (by omega)),
      Nat.add_comm (2 ^ 64 - 1)]

/-- A time guessed from its own low bits. -/
theorem toNat_guessTimestamp_self {now v : uint64} (htx : 0 < tx) (hlt : tx < fv) (hfv : fv ≤ 64)
    (hv : v.toNat = now.toNat % 2 ^ tx) :
    (guessTimestamp m fv tx now v).toNat = now.toNat % 2 ^ fv := by
  rw [toNat_guessTimestamp htx hlt hfv (hv ▸ mod_lt _ (Nat.two_pow_pos _)), hv,
    if_pos ⟨Nat.sub_le _ _, Nat.le_refl _⟩,
    ← mod_mod_of_dvd now.toNat (Nat.pow_dvd_pow 2 (le_of_lt hlt)), div_add_mod']

/-- A small step crosses at most one multiple of `P`. -/
theorem step_cases {d P : ℕ} (s : ℕ) (hd : d < P) :
    (s + d) / P = s / P ∧ (s + d) % P = s % P + d ∨
      (s + d) / P = s / P + 1 ∧ (s + d) % P + P = s % P + d := by
  have hsplit := div_add_mod' s P
  have hsplit' := div_add_mod' (s + d) P
  rw [Nat.add_div (by omega), Nat.div_eq_of_lt hd, mod_eq_of_lt hd, Nat.add_zero] at hsplit' ⊢
  split_ifs at hsplit' ⊢
  · rw [Nat.succ_mul] at hsplit'
    omega
  · rw [Nat.add_zero] at hsplit'
    omega

/-- What the receiver is to make of the low `t` bits of the sender's time `s`: the whole time, and
where all bits are sent, nothing from other values than its last three seconds. -/
structure FindsTime (m : Shifts) (now : uint64) (fvm : FVM) (id : uint16) (n t s : ℕ)
    (value : List uint8) : Prop where
  found : ∃ c, implGetRxFreshness m now fvm id ⟨t, value⟩ = .ok c ∧ c.length = n ∧
    (decodeValue n c.value).toNat = s % 2 ^ n
  others : t = n → ∀ value',
    (∀ d ≤ 2, ((decodeValue n value').toNat + d) % 2 ^ n ≠ now.toNat % 2 ^ n) →
      ∃ e, implGetRxFreshness m now fvm id ⟨t, value'⟩ = .error e

/-- When a time of the last two seconds is found from its low `t` bits. For `t < n` it depends on
the bits of the receiver's clock, of which `now % 2 ^ n / 2 ^ t` is the upper part. -/
inductive TimeRecoverable (n t now s : ℕ) : Prop
  /-- All bits are sent and the time has not wrapped since. -/
  | whole (hall : t = n) (hwrap : now - s ≤ now % 2 ^ n)
  /-- The time of the receiver itself. -/
  | same (ht : t < n) (hs : now = s)
  /-- The low part has wrapped since, and of the low `t` bits of the upper part one is zero; after
  two seconds one above the lowest. -/
  | wrapped (k : ℕ) (ht : t < n) (hs : now = s + k) (hwrap : now % 2 ^ t < k)
      (hupper : now % 2 ^ n / 2 ^ t / k % 2 ^ (t + 1 - k) + 1 ≠ 2 ^ (t + 1 - k))
  /-- The low part has not wrapped. Its lowest set bit is `j`, after two seconds its lowest one
  without bit 0, which is left out of the upper part then as well. Where the upper part has this
  bit it has all bits below, and otherwise these are at most 2, after two seconds 0. -/
  | within (k j : ℕ) (ht : t < n) (hs : now = s + k)
      (hlowest : now % 2 ^ t / k % 2 ^ (j + 1) = 2 ^ j)
      (hupper : if now % 2 ^ n / 2 ^ t / k / 2 ^ j % 2 = 1 then
          now % 2 ^ n / 2 ^ t / k % 2 ^ j + 1 = 2 ^ j
        else k * (now % 2 ^ n / 2 ^ t / k % 2 ^ j + 1) ≤ 3)

/-- A difference of one or two seconds: the test is about the bits from `k - 1` on. -/
theorem inWindow_iff {most least v k : ℕ} (hk : k = 1 ∨ k = 2) (hrest : least % k = v % k) :
    InWindow most least v ↔ (most / k ||| v / k) ≤ (most / k ||| least / k) ∧
      k * ((most / k ||| least / k) - (most / k ||| v / k)) ≤ 3 := by
  rcases hk with rfl | rfl
  · simp only [InWindow, Nat.div_one]
    omega
  · have hleast := or_eq_parts 1 most least
    have hv := or_eq_parts 1 most v
    rw [pow_one] at hleast hv
    rw [InWindow, hleast, hv, hrest]
    omega

/-- Without a wrap of the low part, the lowest set bit `j` of it decides. -/
theorem inWindow_sub {most least k j : ℕ} (hk : k = 1 ∨ k = 2) (hle : k ≤ least)
    (hlowest : least / k % 2 ^ (j + 1) = 2 ^ j)
    (hupper : if most / k / 2 ^ j % 2 = 1 then most / k % 2 ^ j + 1 = 2 ^ j
      else k * (most / k % 2 ^ j + 1) ≤ 3) : InWindow most least (least - k) := by
  have hpos := Nat.two_pow_pos j
  have hparts : least % k = (least - k) % k ∧ (least - k) / k = least / k - 1 := by
    rcases hk with rfl | rfl <;> omega
  obtain ⟨c, hleast, hv⟩ := or_lowest (a := most / k) hlowest
  rw [inWindow_iff hk hparts.1, hparts.2, hleast, hv]
  generalize most / k % 2 ^ j = y at hupper ⊢
  rcases Nat.mod_two_eq_zero_or_one (most / k / 2 ^ j) with hbit | hbit
  · rw [hbit, if_neg (by decide)] at hupper
    rw [hbit, Nat.add_zero, Nat.mul_add, Nat.mul_one]
    have hdiff : 2 ^ j * (2 * c) + 2 ^ j + y - (2 ^ j * (2 * c) + (2 ^ j - 1)) = y + 1 := by omega
    rw [hdiff]
    exact ⟨by omega, hupper⟩
  · rw [hbit, if_pos rfl] at hupper
    rw [hbit, show y = 2 ^ j - 1 by omega, Nat.sub_self]
    omega

/-- With a wrap of the low part, the test fails unless the upper part has all bits set that the low
part of the earlier time has. -/
theorem not_inWindow_wrap {most least t k : ℕ} (hk : k = 1 ∨ k = 2) (ht : 2 ≤ t)
    (hwrap : least < k) (hupper : most / k % 2 ^ (t + 1 - k) + 1 ≠ 2 ^ (t + 1 - k)) :
    ¬ InWindow most least (least + 2 ^ t - k) := by
  obtain ⟨e, rfl⟩ : ∃ e, t = e + 1 := ⟨t - 1, by omega⟩
  have hdouble : 2 ^ (e + 1) = 2 * 2 ^ e := by rw [pow_succ, Nat.mul_comm]
  have hpos := Nat.two_pow_pos e
  have hparts : least % k = (least + 2 ^ (e + 1) - k) % k ∧ least / k = 0 ∧
      (least + 2 ^ (e + 1) - k) / k = 2 ^ (e + 1 + 1 - k) - 1 := by
    rcases hk with rfl | rfl
    · rw [show e + 1 + 1 - 1 = e + 1 by omega, Nat.div_one]
      omega
    · rw [show e + 1 + 1 - 2 = e by omega]
      omega
  rw [inWindow_iff hk hparts.1, hparts.2.1, hparts.2.2, Nat.or_zero, or_ones]
  have hsplit := div_add_mod (most / k) (2 ^ (e + 1 + 1 - k))
  have hlt : most / k % 2 ^ (e + 1 + 1 - k) < 2 ^ (e + 1 + 1 - k) := mod_lt _ (Nat.two_pow_pos _)
  omega

/-- The test tells whether the low part has wrapped. -/
theorem TimeRecoverable.inWindow_iff {n t now s : ℕ} (h : TimeRecoverable n t now s) (ht : 2 ≤ t)
    (hlt : t < n) (hnow : now ≤ s + 2) :
    InWindow (now % 2 ^ n / 2 ^ t) (now % 2 ^ t) (s % 2 ^ t) ↔ now - s ≤ now % 2 ^ t := by
  have hfour : 2 ^ 2 ≤ 2 ^ t := Nat.pow_le_pow_right (by decide) ht
  cases h with
  | whole hall => omega
  | same _ hs =>
    subst hs
    exact iff_of_true ⟨Nat.sub_le _ _, Nat.le_refl _⟩ (by omega)
  | wrapped k _ hk hwrap hupper =>
    subst hk
    have hmod : s % 2 ^ t = (s + k) % 2 ^ t + 2 ^ t - k := by
      rcases step_cases s (by omega : k < 2 ^ t) with h | h <;> omega
    rw [hmod]
    exact iff_of_false (not_inWindow_wrap (by omega) ht hwrap hupper) (by omega)
  | within k j _ hk hlowest hupper =>
    subst hk
    have hne : (s + k) % 2 ^ t / k ≠ 0 := by
      intro hzero
      rw [hzero, zero_mod] at hlowest
      exact (Nat.two_pow_pos j).ne hlowest
    obtain ⟨hpos, hle⟩ := Nat.div_ne_zero_iff.mp hne
    have hlow := mod_lt s (by omega : 0 < 2 ^ t)
    have hmod : s % 2 ^ t = (s + k) % 2 ^ t - k := by
      rcases step_cases s (by omega : k < 2 ^ t) with h | h <;> omega
    rw [hmod]
    exact iff_of_true (inWindow_sub (by omega) hle hlowest hupper) (by omega)

section

variable {now : uint64} {s t : ℕ} {value : List uint8}

/-- The guess for a time of the last two seconds. -/
theorem TimeRecoverable.guessTimestamp_eq (h : TimeRecoverable n t now.toNat s) (ht : 2 ≤ t)
    (hlt : t < n) (hn : n ≤ 64) {v : uint64} (hv : v.toNat = s % 2 ^ t) (hs : s ≤ now.toNat)
    (hnow : now.toNat ≤ s + 2) : (guessTimestamp m n t now v).toNat = s % 2 ^ n := by
  have htells := h.inWindow_iff ht hlt hnow
  obtain ⟨d, hd⟩ := Nat.exists_eq_add_of_le hs
  have hfour : 2 ^ 2 ≤ 2 ^ t := Nat.pow_le_pow_right (by decide) ht
  have hpow : 2 ^ n = 2 ^ t * 2 ^ (n - t) := (pow_mul_pow_sub 2 hlt.le).symm
  have hmost : now.toNat % 2 ^ n / 2 ^ t = now.toNat / 2 ^ t % 2 ^ (n - t) := by
    rw [hpow, Nat.mod_mul_right_div_self]
  rw [toNat_guessTimestamp (by omega) hlt hn (hv ▸ mod_lt _ (Nat.two_pow_pos _)), hv]
  have hsplit : s % 2 ^ n = s / 2 ^ t % 2 ^ (n - t) * 2 ^ t + s % 2 ^ t := by
    rw [hpow, Nat.mod_mul, Nat.add_comm, Nat.mul_comm]
  rw [hsplit]
  congr 2
  have hlow := mod_lt s (by omega : 0 < 2 ^ t)
  rcases step_cases s (by omega : d < 2 ^ t) with ⟨hdiv, hmod⟩ | ⟨hdiv, hmod⟩ <;>
    rw [← hd] at hdiv hmod
  · -- the upper part is that of the receiver's clock
    rw [if_pos (htells.mpr (by omega)), hmost, hdiv]
  · -- the upper part is one less
    obtain ⟨c, hc⟩ : 2 ^ (n - t) ∣ 2 ^ 64 := Nat.pow_dvd_pow 2 (by omega)
    have hsum : s / 2 ^ t + 1 + (2 ^ 64 - 1) = s / 2 ^ t + 2 ^ 64 := by omega
    rw [if_neg (mt htells.mp (by omega)), hmost, mod_add_mod, hdiv, hsum, hc,
      Nat.add_mul_mod_self_left]

/-- With all bits sent, the interval to the receiver's time is that of the clocks unless the time
has wrapped in between. -/
theorem interval_lt (hpos : 0 < n) (hn : n ≤ 64) (hs : s ≤ now.toNat) (hnow : now.toNat ≤ s + 2)
    (hwrap : now.toNat - s ≤ now.toNat % 2 ^ n) {v : uint64} (hv : v.toNat = s % 2 ^ n) :
    ¬ (3 : uint64) ≤ lowBits m now n - v := by
  obtain ⟨d, hd⟩ := Nat.exists_eq_add_of_le hs
  have hthree : (3 : uint64).toNat = 3 := rfl
  have hclock := mod_lt now.toNat (Nat.two_pow_pos n)
  have hlow := mod_lt s (Nat.two_pow_pos n)
  have hv64 := v.isLt
  rw [le_def, toNat_sub, hthree, toNat_lowBits hpos hn]
  rcases step_cases s (by omega : d < 2 ^ n) with ⟨-, hmod⟩ | ⟨-, hmod⟩ <;> rw [← hd] at hmod
  all_goals omega

theorem three_le_interval (hpos : 0 < n) (hn : n ≤ 64) {v : uint64}
    (hother : ∀ d ≤ 2, (v.toNat + d) % 2 ^ n ≠ now.toNat % 2 ^ n) :
    (3 : uint64) ≤ lowBits m now n - v := by
  have hlow := toNat_lowBits (m := m) (x := now) hpos hn
  by_contra hnew
  refine hother (lowBits m now n - v).toNat (by bv_omega) ?_
  have hdvd : 2 ^ n ∣ 2 ^ 64 := Nat.pow_dvd_pow 2 hn
  have hsum : (v.toNat + (lowBits m now n - v).toNat) % 2 ^ 64 = (lowBits m now n).toNat := by
    bv_omega
  rw [← mod_mod_of_dvd _ hdvd, hsum, hlow, mod_mod]

/-- Times of eight bits of which four are sent. -/
def timeManager : FVM := ⟨fun _ => some 0x108, fun _ => none, fun _ => none⟩

end

end

end FVM

end AdaptivePlatform.Secoc
