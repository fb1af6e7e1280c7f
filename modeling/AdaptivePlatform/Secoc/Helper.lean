import AdaptivePlatform.Foundations.BitStreams

/-!
# Bit copies of the secure onboard communication

`SecOCHelper` cuts freshness values and authenticators at arbitrary bits. Its copy
routines read the source byte by byte, keep the bits of one byte that belong to the next
byte written, and treat the last byte apart. A read outside the source has no result.
Each routine produces the `Window` of the bits it was asked for.
-/
namespace AdaptivePlatform.Secoc

open Bytes BitStreams List Option
open BitVec hiding fill

variable {source : List uint8} {startByte startBit bitLength i : ℕ}

def calcByteNum (bitNum : ℕ) : ℕ := if bitNum % 8 ≠ 0 then bitNum / 8 + 1 else bitNum / 8

theorem calcByteNum_eq (n : ℕ) : calcByteNum n = bytesFor n := by
  unfold calcByteNum bytesFor
  split_ifs <;> omega

def calcRemainBitNum (bitNum : ℕ) : ℕ := bitNum % 8

/-- The loop over the bytes before the last one, then the leading bits of the last one. -/
def compareBytes (s1 s2 : List uint8) (moveBit : ℕ) : ℕ → ℕ → Option Bool
  | 0, i => do
    let s1End ← s1[i]?
    let s2End ← s2[i]?
    some (s1End >>> moveBit == s2End >>> moveBit)
  | count + 1, i => do
    let x ← s1[i]?
    let y ← s2[i]?
    if x ≠ y then some false else compareBytes s1 s2 moveBit count (i + 1)

def memBlockCompare (s1 s2 : List uint8) (length : ℕ) : Option Bool :=
  if length = 0 then some false
  else
    let remainBit := if calcRemainBitNum length = 0 then 8 else calcRemainBitNum length
    compareBytes s1 s2 (8 - remainBit) (calcByteNum length - 1) 0

section

variable (source : List uint8) (startByte startBit bitLength : ℕ)

/-- The byte and the bit after `bitLength` bits; a stream of no bits ends before its first
bit, which the 8-bit counters express as `255`. -/
def newStartPosition4Stream : ℕ × ℕ :=
  let startRemainBit := 8 - startBit
  let endPosition :=
    if bitLength ≤ startRemainBit then (startByte, (startBit + bitLength + 255) % 256)
    else (startByte + calcByteNum (bitLength - startRemainBit), (startBit + bitLength - 1) % 8)
  let newStartBit := (endPosition.2 + 1) % 256
  if newStartBit = 8 then (endPosition.1 + 1, 0) else (endPosition.1, newStartBit)

/-- The loop over the bytes after the first, with `middle` bytes before the last one.
`remain` holds the bits of the byte before that are not written yet. -/
def copyRest (source : List uint8) (startBit bitLength lastRemainBit : ℕ) :
    ℕ → ℕ → uint8 → Option (List uint8)
  | 0, i, remain => do
    let byte ← source[i]?
    let fill := (8 - bitLength % 8) % 8
    let newByte := remain ||| byte >>> (8 - startBit)
    if lastRemainBit + 8 - startBit ≤ 8 then
      some [newByte >>> fill <<< fill]
    else
      some [newByte, byte <<< startBit >>> fill <<< fill]
  | middle + 1, i, remain => do
    let byte ← source[i]?
    let rest ← copyRest source startBit bitLength lastRemainBit middle (i + 1) (byte <<< startBit)
    some ((remain ||| byte >>> (8 - startBit)) :: rest)

/-- The bytes that are written from `destination` on. -/
def copyBitStream2BytePtr : Option (List uint8) := do
  let startRemainBit := 8 - startBit
  let byte ← source[startByte]?
  if bitLength ≤ startRemainBit then
    some [byte <<< startBit >>> (8 - bitLength) <<< (8 - bitLength)]
  else
    let remainBit := bitLength - startRemainBit
    let lastRemainBit := if remainBit % 8 ≠ 0 then remainBit % 8 else 8
    copyRest source startBit bitLength lastRemainBit (calcByteNum remainBit - 1) (startByte + 1)
      (byte <<< startBit)

/-- The same bytes, written into a vector of `calcByteNum bitLength` bytes. -/
def copyBitStream2ByteBuffer : Option (List uint8) := do
  let bytes ← copyBitStream2BytePtr source startByte startBit bitLength
  writeBytes (List.replicate (calcByteNum bitLength) 0) 0 bytes

/-- The position in the source after the bits that fill up the first destination byte. -/
def startAfterPick (startByte startBit destRemainBit : ℕ) : ℕ × ℕ :=
  let pickEnd :=
    if destRemainBit ≤ 8 - startBit then (startByte, startBit + destRemainBit - 1)
    else (startByte + 1, (startBit + destRemainBit - 1) % 8)
  if pickEnd.2 + 1 = 8 then (pickEnd.1 + 1, 0) else (pickEnd.1, pickEnd.2 + 1)

/-- The destination afterwards: its first byte is filled up, the rest of the bits follow
from its second byte on. -/
def copyBitStream2BitStream
    (destination : List uint8) (destStartByte destStartBit : ℕ) : Option (List uint8) := do
  let destRemainBit := 8 - destStartBit
  let pickBit := if bitLength < destRemainBit then bitLength else destRemainBit
  let pickValue ← copyBitStream2BytePtr source startByte startBit pickBit
  let old ← destination[destStartByte]?
  let kept := old >>> destRemainBit <<< destRemainBit
  let filled := kept ||| pickValue.getD 0 0 >>> ((8 - destRemainBit) % 8)
  let destination ← writeBytes destination destStartByte [filled]
  if bitLength ≤ destRemainBit then
    some destination
  else
    let newStart := startAfterPick startByte startBit destRemainBit
    let rest ← copyBitStream2BytePtr source newStart.1 newStart.2 (bitLength - destRemainBit)
    writeBytes destination (destStartByte + 1) rest

end

section

variable {k : ℕ} {fill : ℕ}

/-- A byte that takes its first bits from one source byte and the others from the next. -/
theorem getMsbD_joined (hs : startBit < 8) (hk : k < 8) :
    (source.getD i 0 <<< startBit ||| source.getD (i + 1) 0 >>> (8 - startBit)).getMsbD k =
      bitAt source (8 * i + startBit + k) := by
  rw [getMsbD_or, getMsbD_shiftLeft, getMsbD_ushiftRight]
  rcases Nat.lt_or_ge (startBit + k) 8 with hin | hin
  · have hnext : k < 8 - startBit := by omega
    rw [Nat.add_assoc, bitAt_eight_mul_add i hin, Nat.add_comm startBit k]
    simp [hnext]
  · have hnext : ¬ k < 8 - startBit := by omega
    have hpos : 8 * i + startBit + k = 8 * (i + 1) + (k - (8 - startBit)) := by omega
    have hpast : (source.getD i 0).getMsbD (k + startBit) = false := by
      apply getMsbD_of_ge
      omega
    rw [hpos, bitAt_eight_mul_add (i + 1) (by omega), hpast]
    simp [hnext, hk]

theorem getMsbD_cleared (x : uint8) (hfill : fill ≤ 8) (hk : k < 8) :
    (x >>> fill <<< fill).getMsbD k = (decide (k < 8 - fill) && x.getMsbD k) := by
  rcases Nat.lt_or_ge k (8 - fill) with hin | hin
  · have hlow : ¬ k + fill < fill := by omega
    have hlt : k + fill < 8 := by omega
    simp [hlt, hin]
  · have hlt : ¬ k + fill < 8 := by omega
    have hnot : ¬ k < 8 - fill := by omega
    simp [hlt, hnot]

/-- The last byte written, when it takes bits of two source bytes. -/
theorem getMsbD_joined_cleared (hs : startBit < 8) (hfill : fill ≤ 8) (hk : k < 8) :
    ((source.getD i 0 <<< startBit ||| source.getD (i + 1) 0 >>> (8 - startBit))
        >>> fill <<< fill).getMsbD k =
      (decide (k < 8 - fill) && bitAt source (8 * i + startBit + k)) := by
  rw [getMsbD_cleared _ hfill hk, getMsbD_joined hs hk]

/-- The last byte written, when it takes bits of one source byte only. -/
theorem getMsbD_shifted_cleared (hfill : startBit ≤ fill) (hle : fill ≤ 8) (hk : k < 8) :
    (source.getD i 0 <<< startBit >>> fill <<< fill).getMsbD k =
      (decide (k < 8 - fill) && bitAt source (8 * i + startBit + k)) := by
  rw [getMsbD_cleared _ hle hk]
  by_cases hin : k < 8 - fill
  · rw [getMsbD_shiftLeft, Nat.add_assoc, bitAt_eight_mul_add i (by omega), Nat.add_comm k]
  · simp [hin]

end

theorem getElem?_eq_getD (source : List uint8) {i : ℕ} (h : i < source.length) :
    source[i]? = some (source.getD i 0) := by
  rw [getD_eq_getElem?_getD, List.getElem?_eq_getElem h, getD_some]

/-- What the loop writes, from the bits kept of byte `j` on. -/
theorem copyRest_window (source : List uint8) (bitLength : ℕ) {lastRemainBit : ℕ}
    (hs : startBit < 8) (hlast : 0 < lastRemainBit) (hlast8 : lastRemainBit ≤ 8) (middle j : ℕ)
    (hmod : bitLength % 8 = (8 - startBit + lastRemainBit) % 8)
    (hin : j + 1 + middle < source.length) :
    ∃ out, copyRest source startBit bitLength lastRemainBit middle (j + 1)
        (source.getD j 0 <<< startBit) = some out ∧
      Window source (8 * j + startBit) (8 - startBit + 8 * middle + lastRemainBit) out := by
  have hnext : 8 * j + startBit + 8 = 8 * (j + 1) + startBit := by omega
  induction middle generalizing j with
  | zero =>
    have hread := getElem?_eq_getD source (i := j + 1) (by omega)
    simp only [copyRest, hread, bind_eq_bind, bind_some]
    by_cases hone : lastRemainBit + 8 - startBit ≤ 8
    · rw [if_pos hone]
      refine ⟨_, rfl, .single (by omega) (by omega) fun k hk => ?_⟩
      have hfill : 8 - (8 - bitLength % 8) % 8 = 8 - startBit + 8 * 0 + lastRemainBit := by omega
      rw [getMsbD_joined_cleared hs (by omega) hk, hfill]
    · rw [if_neg hone]
      have hlen : 8 + (8 - (8 - bitLength % 8) % 8) = 8 - startBit + 8 * 0 + lastRemainBit := by
        omega
      exact ⟨_, rfl, .cons hnext hlen (.single (by omega) (by omega) fun k hk =>
        getMsbD_shifted_cleared (by omega) (by omega) hk) fun k hk => getMsbD_joined hs hk⟩
  | succ middle ih =>
    obtain ⟨out, hout, hwindow⟩ := ih (j + 1) (by omega) (by omega)
    have hread := getElem?_eq_getD source (i := j + 1) (by omega)
    simp only [copyRest, hread, hout, bind_eq_bind, bind_some]
    exact ⟨_, rfl, .cons hnext (by omega) hwindow fun k hk => getMsbD_joined hs hk⟩

theorem copyBitStream2BytePtr_window (hs : startBit < 8) (hpos : 0 < bitLength)
    (hin : 8 * startByte + startBit + bitLength ≤ 8 * source.length) :
    ∃ out, copyBitStream2BytePtr source startByte startBit bitLength = some out ∧
      Window source (8 * startByte + startBit) bitLength out := by
  have hread := getElem?_eq_getD source (i := startByte) (by omega)
  simp only [copyBitStream2BytePtr, hread, bind_eq_bind, bind_some]
  by_cases hone : bitLength ≤ 8 - startBit
  · rw [if_pos hone]
    refine ⟨_, rfl, .single hpos (by omega) fun k hk => ?_⟩
    have hlen : 8 - (8 - bitLength) = bitLength := by omega
    rw [getMsbD_shifted_cleared (by omega) (by omega) hk, hlen]
  · rw [if_neg hone, calcByteNum_eq]
    have hlen : 8 - startBit + 8 * (bytesFor (bitLength - (8 - startBit)) - 1) +
        (if (bitLength - (8 - startBit)) % 8 ≠ 0 then (bitLength - (8 - startBit)) % 8 else 8) =
        bitLength := by
      unfold bytesFor
      split_ifs <;> omega
    have hlast : 0 < (if (bitLength - (8 - startBit)) % 8 ≠ 0 then
        (bitLength - (8 - startBit)) % 8 else 8) ∧ (if (bitLength - (8 - startBit)) % 8 ≠ 0 then
        (bitLength - (8 - startBit)) % 8 else 8) ≤ 8 := by
      split_ifs <;> omega
    obtain ⟨out, hout, hwindow⟩ := copyRest_window source bitLength hs hlast.1 hlast.2
      (bytesFor (bitLength - (8 - startBit)) - 1) startByte (by omega) (by omega)
    rw [hlen] at hwindow
    exact ⟨out, hout, hwindow⟩

/-- A copy of no bits writes one empty byte. -/
theorem copyBitStream2BytePtr_zero (h : 0 < source.length) :
    copyBitStream2BytePtr source 0 0 0 = some [0] := by
  have hread := getElem?_eq_getD source h
  simp only [copyBitStream2BytePtr, hread]
  simp

theorem copyBitStream2ByteBuffer_window (hs : startBit < 8) (hpos : 0 < bitLength)
    (hin : 8 * startByte + startBit + bitLength ≤ 8 * source.length) :
    ∃ out, copyBitStream2ByteBuffer source startByte startBit bitLength = some out ∧
      Window source (8 * startByte + startBit) bitLength out := by
  obtain ⟨out, hout, hwindow⟩ := copyBitStream2BytePtr_window hs hpos hin
  have hlen : out.length = calcByteNum bitLength := by rw [calcByteNum_eq, hwindow.length_eq]
  refine ⟨out, ?_, hwindow⟩
  rw [copyBitStream2ByteBuffer, hout, bind_eq_bind, bind_some,
    writeBytes_whole (by rw [length_replicate, hlen])]

theorem newStartPosition4Stream_zero (n : ℕ) : newStartPosition4Stream 0 0 n = (n / 8, n % 8) := by
  unfold newStartPosition4Stream
  simp only [calcByteNum_eq, bytesFor]
  split_ifs <;> simp only [Prod.mk.injEq] <;> omega

section

variable {dest : List uint8} {destByte destBit : ℕ} {start n : ℕ}

theorem bitAt_splice {bs : List uint8} {pos : ℕ} (h : pos + bs.length ≤ dest.length) (k : ℕ) :
    bitAt (splice dest pos bs) k =
      if k < 8 * pos then bitAt dest k
      else if k < 8 * (pos + bs.length) then bitAt bs (k - 8 * pos) else bitAt dest k := by
  have hbyte := getElem?_splice h (k / 8)
  unfold bitAt
  rw [getD_eq_getElem?_getD, hbyte]
  split_ifs with h1 h2 h3 h4 h5
  all_goals first
    | omega
    | rw [getD_eq_getElem?_getD]
  have hdiv : (k - 8 * pos) / 8 = k / 8 - pos := by omega
  have hmod : (k - 8 * pos) % 8 = k % 8 := by omega
  rw [hdiv, hmod]

/-- What a bit copy leaves in the destination: the bits before it, and the bits copied. -/
structure Placed (source : List uint8) (start len : ℕ) (dest : List uint8) (pos : ℕ)
    (dest' : List uint8) : Prop where
  length_eq : dest'.length = dest.length
  before : ∀ k < pos, bitAt dest' k = bitAt dest k
  copied : ∀ k < len, bitAt dest' (pos + k) = bitAt source (start + k)

/-- The byte at the seam: its first bits stay, the bits picked follow. -/
def filledByte (old pick : uint8) (destBit : ℕ) : uint8 :=
  old >>> (8 - destBit) <<< (8 - destBit) ||| pick >>> ((8 - (8 - destBit)) % 8)

theorem getMsbD_filledByte {k : ℕ} (old pick : uint8) (hd : destBit < 8) (hk : k < 8) :
    (filledByte old pick destBit).getMsbD k =
      if k < destBit then old.getMsbD k else pick.getMsbD (k - destBit) := by
  have hshift : (8 - (8 - destBit)) % 8 = destBit := by omega
  have hkeep : 8 - (8 - destBit) = destBit := by omega
  rw [filledByte, hshift, getMsbD_or, getMsbD_cleared _ (by omega) hk, hkeep, getMsbD_ushiftRight]
  split_ifs with hlow
  · simp [hlow]
  · simp [hlow, hk]

/-- The first step of a bit copy: the byte at the seam is filled up. -/
theorem fill_placed {pick : List uint8} (hd : destBit < 8) (hn : destBit + n ≤ 8)
    (hroom : destByte < dest.length) (hpick : Window source start n pick) :
    Placed source start n dest (8 * destByte + destBit)
      (splice dest destByte [filledByte (dest.getD destByte 0) (pick.getD 0 0) destBit]) := by
  have hlen : destByte + [filledByte (dest.getD destByte 0) (pick.getD 0 0) destBit].length ≤
      dest.length := hroom
  apply Placed.mk (length_splice hlen)
  · intro k hk
    rw [bitAt_splice hlen, length_singleton]
    split_ifs with hbefore hseam
    · rfl
    · obtain ⟨j, rfl⟩ := Nat.exists_eq_add_of_le (Nat.not_lt.mp hbefore)
      have hj : j < destBit := by omega
      rw [Nat.add_sub_cancel_left, bitAt_cons_of_lt _ (by omega),
        getMsbD_filledByte _ _ hd (by omega), if_pos hj, bitAt_eight_mul_add destByte (by omega)]
    · rfl
  · intro k hk
    have hbefore : ¬ 8 * destByte + destBit + k < 8 * destByte := by omega
    have hseam : 8 * destByte + destBit + k < 8 * (destByte + 1) := by omega
    have hpos : 8 * destByte + destBit + k - 8 * destByte = destBit + k := by omega
    have hfirst : ¬ destBit + k < destBit := by omega
    rw [bitAt_splice hlen, length_singleton, if_neg hbefore, if_pos hseam, hpos,
      bitAt_cons_of_lt _ (by omega), getMsbD_filledByte _ _ hd (by omega), if_neg hfirst,
      Nat.add_sub_cancel_left, ← hpick.bit_of_lt hk, bitAt, Nat.div_eq_of_lt (by omega),
      Nat.mod_eq_of_lt (by omega)]

/-- The second step: whole bytes follow the seam. -/
theorem Placed.extend {dest₁ rest : List uint8} {m byte : ℕ} {pos : ℕ}
    (h : Placed source start n dest pos dest₁) (halign : pos + n = 8 * byte)
    (hrest : Window source (start + n) m rest) (hroom : byte + rest.length ≤ dest.length) :
    Placed source start (n + m) dest pos (splice dest₁ byte rest) := by
  have hlen : byte + rest.length ≤ dest₁.length := by
    rw [h.length_eq]
    exact hroom
  have hbytes := le_bytesFor m
  rw [← hrest.length_eq] at hbytes
  apply Placed.mk ((length_splice hlen).trans h.length_eq)
  · intro k hk
    rw [bitAt_splice hlen, if_pos (by omega)]
    exact h.before k hk
  · intro k hk
    rw [bitAt_splice hlen]
    rcases Nat.lt_or_ge k n with hkn | hkn
    · rw [if_pos (by omega)]
      exact h.copied k hkn
    · have hpos : pos + k - 8 * byte = k - n := by omega
      have hstart : start + n + (k - n) = start + k := by omega
      rw [if_neg (by omega), if_pos (by omega), hpos, hrest.bit_of_lt (by omega), hstart]

theorem startAfterPick_spec (hs : startBit < 8) (hn : 0 < n) (hn8 : n ≤ 8) :
    8 * (startAfterPick startByte startBit n).1 + (startAfterPick startByte startBit n).2 =
        8 * startByte + startBit + n ∧
      (startAfterPick startByte startBit n).2 < 8 := by
  unfold startAfterPick
  by_cases hle : n ≤ 8 - startBit <;> simp only <;> split_ifs <;> omega

theorem copyBitStream2BitStream_placed (hs : startBit < 8) (hd : destBit < 8)
    (hpos : 0 < bitLength) (hin : 8 * startByte + startBit + bitLength ≤ 8 * source.length)
    (hroom : 8 * destByte + destBit + bitLength ≤ 8 * dest.length) :
    ∃ dest', copyBitStream2BitStream source startByte startBit bitLength dest destByte destBit =
        some dest' ∧
      Placed source (8 * startByte + startBit) bitLength dest (8 * destByte + destBit) dest' := by
  have hold := getElem?_eq_getD dest (i := destByte) (by omega)
  have hwrite : ∀ b, writeBytes dest destByte [b] = some (splice dest destByte [b]) := by
    intro b
    apply writeBytes_eq
    rw [length_singleton]
    omega
  by_cases hone : bitLength ≤ 8 - destBit
  · -- the byte at the seam takes all bits
    have hpick : (if bitLength < 8 - destBit then bitLength else 8 - destBit) = bitLength := by
      split_ifs <;> omega
    obtain ⟨pick, hcopy, hwindow⟩ := copyBitStream2BytePtr_window hs hpos hin
    have hplaced := fill_placed hd (by omega) (show destByte < dest.length by omega) hwindow
    refine ⟨_, ?_, hplaced⟩
    simp only [copyBitStream2BitStream, hpick, hcopy, hold, hwrite, hone, if_true,
      bind_eq_bind, bind_some, filledByte]
  · have hpick : (if bitLength < 8 - destBit then bitLength else 8 - destBit) = 8 - destBit := by
      split_ifs <;> omega
    obtain ⟨pick, hcopy, hwindow⟩ : ∃ pick,
        copyBitStream2BytePtr source startByte startBit (8 - destBit) = some pick ∧
          Window source (8 * startByte + startBit) (8 - destBit) pick :=
      copyBitStream2BytePtr_window hs (by omega) (by omega)
    obtain ⟨hafter, hafter8⟩ : _ ∧ _ :=
      startAfterPick_spec (n := 8 - destBit) hs (by omega) (by omega)
    obtain ⟨rest, hcopyRest, hrest⟩ : ∃ rest,
        copyBitStream2BytePtr source (startAfterPick startByte startBit (8 - destBit)).1
            (startAfterPick startByte startBit (8 - destBit)).2 (bitLength - (8 - destBit)) =
          some rest ∧ Window source _ (bitLength - (8 - destBit)) rest :=
      copyBitStream2BytePtr_window hafter8 (by omega) (by omega)
    rw [hafter] at hrest
    have hseam := fill_placed hd (by omega) (show destByte < dest.length by omega) hwindow
    have hrestLen : destByte + 1 + rest.length ≤ dest.length := by
      rw [hrest.length_eq, bytesFor]
      omega
    have hplaced := hseam.extend
      (show 8 * destByte + destBit + (8 - destBit) = 8 * (destByte + 1) by omega) hrest hrestLen
    rw [show 8 - destBit + (bitLength - (8 - destBit)) = bitLength by omega] at hplaced
    have hlen := hseam.length_eq
    refine ⟨_, ?_, hplaced⟩
    simp only [copyBitStream2BitStream, hpick, hcopy, hold, hwrite, hone, hcopyRest]
    apply writeBytes_eq
    simp only [filledByte] at hlen
    rw [hlen]
    exact hrestLen

end

section

variable {s1 s2 : List uint8} {moveBit count : ℕ}

theorem exists_compareBytes (h1 : i + count < s1.length) (h2 : i + count < s2.length) :
    ∃ b, compareBytes s1 s2 moveBit count i = some b := by
  induction count generalizing i with
  | zero =>
    have hread1 := getElem?_eq_getD s1 (i := i) h1
    have hread2 := getElem?_eq_getD s2 (i := i) h2
    simp only [compareBytes, hread1, hread2]
    exact ⟨_, rfl⟩
  | succ count ih =>
    have hread1 := getElem?_eq_getD s1 (i := i) (by omega)
    have hread2 := getElem?_eq_getD s2 (i := i) (by omega)
    obtain ⟨b, hb⟩ := ih (i := i + 1) (by omega) (by omega)
    simp only [compareBytes, hread1, hread2, hb, bind_eq_bind, bind_some]
    split_ifs
    all_goals exact ⟨_, rfl⟩

theorem compareBytes_of_bits (hmove : moveBit < 8) (h1 : i + count < s1.length)
    (h2 : i + count < s2.length)
    (hbits : ∀ k, 8 * i ≤ k → k < 8 * (i + count) + (8 - moveBit) → bitAt s1 k = bitAt s2 k) :
    compareBytes s1 s2 moveBit count i = some true := by
  have hread1 := getElem?_eq_getD s1 (i := i) (by omega)
  have hread2 := getElem?_eq_getD s2 (i := i) (by omega)
  induction count generalizing i with
  | zero =>
    have hlast : s1.getD i 0 >>> moveBit = s2.getD i 0 >>> moveBit := by
      apply eq_of_getMsbD_eq
      intro k hk
      rw [getMsbD_ushiftRight, getMsbD_ushiftRight]
      by_cases hlow : k < moveBit
      · simp [hlow]
      · have hbit := hbits (8 * i + (k - moveBit)) (by omega) (by omega)
        rw [bitAt_eight_mul_add i (by omega), bitAt_eight_mul_add i (by omega)] at hbit
        rw [hbit]
    simp only [compareBytes, hread1, hread2, hlast, bind_eq_bind, bind_some, beq_self_eq_true]
  | succ count ih =>
    have hbyte : s1.getD i 0 = s2.getD i 0 := by
      apply eq_of_getMsbD_eq
      intro k hk
      have hbit := hbits (8 * i + k) (by omega) (by omega)
      rwa [bitAt_eight_mul_add i hk, bitAt_eight_mul_add i hk] at hbit
    have hnext := ih (i := i + 1) (by omega) (by omega)
      (fun k hlo hhi => hbits k (by omega) (by omega))
      (getElem?_eq_getD s1 (by omega)) (getElem?_eq_getD s2 (by omega))
    simp only [compareBytes, hread1, hread2, hbyte, hnext, bind_eq_bind, bind_some,
      ne_eq, not_true_eq_false, if_false]

variable {length : ℕ}

theorem exists_memBlockCompare (h1 : bytesFor length ≤ s1.length)
    (h2 : bytesFor length ≤ s2.length) : ∃ b, memBlockCompare s1 s2 length = some b := by
  by_cases hzero : length = 0
  · exact ⟨false, if_pos hzero⟩
  · rw [memBlockCompare, if_neg hzero]
    have hbytes : 0 < bytesFor length := by
      unfold bytesFor
      omega
    rw [calcByteNum_eq]
    apply exists_compareBytes <;> omega

theorem memBlockCompare_of_bits (hpos : 0 < length) (h1 : bytesFor length ≤ s1.length)
    (h2 : bytesFor length ≤ s2.length) (hbits : ∀ k < length, bitAt s1 k = bitAt s2 k) :
    memBlockCompare s1 s2 length = some true := by
  have hbytes : 0 < bytesFor length := by
    unfold bytesFor
    omega
  rw [memBlockCompare, if_neg (by omega), calcByteNum_eq]
  apply compareBytes_of_bits
  · unfold calcRemainBitNum
    split_ifs <;> omega
  · omega
  · omega
  · intro k _ hk
    apply hbits
    unfold calcRemainBitNum bytesFor at hk
    split_ifs at hk <;> omega

end

end AdaptivePlatform.Secoc
