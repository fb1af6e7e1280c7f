import AdaptivePlatform.Crc.TableDriven
import AdaptivePlatform.E2E.Crc

/-!
# The bitwise and the table-driven CRC libraries agree

The tables hold the entries of the shift register: as they are for the
algorithms without reflection, with index and entry reversed for those with
reflection. One byte then has the same effect in both libraries, where a
reflecting routine of the table-driven library keeps the reversed register.
-/
namespace AdaptivePlatform.Crc

open CrcRegister E2E BitVec
open BitVec (ofNat)

section

set_option maxRecDepth 4096

theorem lookupTableCrc8_eq :
    lookupTableCrc8.toList = (List.range 256).map fun i =>
      tableEntry 0x1D#8 (ofNat 8 i) := by
  decide +kernel

theorem lookupTableCrc8H2F_eq :
    lookupTableCrc8H2F.toList = (List.range 256).map fun i =>
      tableEntry 0x2F#8 (ofNat 8 i) := by
  decide +kernel

theorem lookupTableCrc16_eq :
    lookupTableCrc16.toList = (List.range 256).map fun i =>
      tableEntry 0x1021#16 (ofNat 8 i) := by
  decide +kernel

theorem lookupTableCrc32_eq :
    lookupTableCrc32.toList = (List.range 256).map fun i =>
      tableEntryLow (0x04C11DB7#32).reverse (ofNat 8 i) := by
  decide +kernel

theorem lookupTableCrc32P4_eq :
    lookupTableCrc32P4.toList = (List.range 256).map fun i =>
      tableEntryLow (0xF4ACFB13#32).reverse (ofNat 8 i) := by
  decide +kernel

theorem lookupTableCrc64_eq :
    lookupTableCrc64.toList = (List.range 256).map fun i =>
      tableEntryLow (0x42F0E1EBA9EA3693#64).reverse (ofNat 8 i) := by
  decide +kernel

end

variable {w : ℕ} {table : Vector (BitVec w) 256} {msb : BitVec w} (data : List uint8)

theorem lookup_eq {entry : uint8 → BitVec w}
    (h : table.toList = (List.range 256).map fun i => entry (ofNat 8 i)) (i : uint8) :
    lookup table i = entry i := by
  have hi : i.toNat < 256 := i.isLt
  have hget : table.toList[i.toNat]? = some (lookup table i) := by simp [lookup, Vector.get]
  rw [h, List.getElem?_map, List.getElem?_range hi] at hget
  simpa using hget.symm

theorem and_twoPow_pos_iff (crc : BitVec w) (hw : 0 < w) :
    0 < crc &&& BitVec.twoPow w (w - 1) ↔ crc.msb = true := by
  rw [and_twoPow, msb_eq_getLsbD_last]
  have hpos : 0#w < BitVec.twoPow w (w - 1) := by
    rw [lt_def, toNat_twoPow_of_lt (by omega)]
    exact Nat.two_pow_pos _
  cases crc.getLsbD (w - 1) <;> simp [hpos]

/-- The inner loop of `Crc.c` is the division step. -/
theorem crcBit_eq (hw : 0 < w) (hmsb : msb = BitVec.twoPow w (w - 1)) (poly crc : BitVec w) :
    crcBit msb poly crc = bit poly crc := by
  unfold crcBit bit
  rw [hmsb]
  simp only [and_twoPow_pos_iff crc hw]

theorem crcByte_eq (hw : 0 < w) (hmsb : msb = BitVec.twoPow w (w - 1)) (poly crc : BitVec w)
    (byte : uint8) : crcByte msb poly (w - 8) crc byte = feed poly crc byte := by
  have hbit : crcBit msb poly = bit poly := funext (crcBit_eq hw hmsb poly)
  rw [crcByte, hbit]
  rfl

theorem runtimeCrc8_eq {table : Vector uint8 256} {poly : uint8}
    (htable : ∀ i, lookup table i = tableEntry poly i) (initValue xorValue : uint8)
    (data : List uint8) (startValue : uint8) (isFirstCall : Bool) :
    runtimeCrc8 poly initValue xorValue data startValue isFirstCall =
      tableCrc8 table initValue xorValue data isFirstCall startValue := by
  have hstep : crcByte 0x80 poly 0 = fun crc byte => lookup table (byte ^^^ crc) := by
    funext crc byte
    rw [htable, crcByte_eq (by decide : 0 < 8) (by decide), feed_eq poly (by decide)]
    have hshift : crc <<< 8 = 0#8 := by simp
    have htop : topByte crc = crc := by simp [topByte]
    rw [hshift, htop, BitVec.zero_xor, BitVec.xor_comm]
  simp only [runtimeCrc8, tableCrc8, hstep]

/-- The loop of a reflecting routine on the reversed register. -/
theorem foldl_reverse_feed {poly : BitVec w} (hw : 8 ≤ w)
    (htable : ∀ i, lookup table i = tableEntryLow poly.reverse i) (data : List uint8)
    (crc : BitVec w) :
    data.foldl (reflectedByte table) crc.reverse =
      (data.foldl (fun crc byte => feed poly crc byte.reverse) crc).reverse := by
  apply List.foldl_hom
  intro r byte
  have hindex : (byte.setWidth w ^^^ r.reverse).setWidth 8 = r.reverse.setWidth 8 ^^^ byte := by
    rw [setWidth_xor, setWidth_setWidth_of_le _ hw, setWidth_eq, BitVec.xor_comm]
  rw [reverse_feed poly hw, reflectedByte, htable, hindex, BitVec.xor_comm]

/-- A reflecting routine: the bitwise one on the register, the other on its reversal. -/
theorem runtimeCrcReflected_eq {poly : BitVec w} {reflect : BitVec w → BitVec w} (hw : 8 ≤ w)
    (htable : ∀ i, lookup table i = tableEntryLow poly.reverse i)
    (hmsb : msb = BitVec.twoPow w (w - 1)) (hreflect : ∀ x, reflect x = x.reverse)
    {initValue : BitVec w} (hinit : initValue = BitVec.allOnes w) (xorValue : BitVec w)
    (data : List uint8) (startValue : BitVec w) (isFirstCall : Bool) :
    runtimeCrcReflected reflect msb poly initValue xorValue (w - 8) data startValue isFirstCall =
      data.foldl (reflectedByte table)
        (if isFirstCall then initValue else startValue ^^^ xorValue) ^^^ xorValue := by
  have hstart : (if isFirstCall then initValue else startValue ^^^ xorValue) =
      (if isFirstCall then initValue else (startValue ^^^ xorValue).reverse).reverse := by
    cases isFirstCall
    · simp
    · simp [hinit, reverse_allOnes]
  rw [hstart, foldl_reverse_feed hw htable]
  simp [runtimeCrcReflected, hreflect, crcByte_eq (by omega : 0 < w) hmsb, crcGetReflectionChar,
    reflectUpTo_width]

theorem crcCalculateCRC16_eq (startValue : uint16) (isFirstCall : Bool) :
    crcCalculateCRC16 data startValue isFirstCall = calculateCRC16 data isFirstCall startValue := by
  have hstep : crcByte 0x8000 0x1021 8 = fun (crc : uint16) byte =>
      (crc <<< 8) ^^^ lookup lookupTableCrc16 (byte ^^^ (crc >>> 8).setWidth 8) := by
    funext crc byte
    rw [lookup_eq lookupTableCrc16_eq, crcByte_eq (by decide : 0 < 16) (by decide),
      feed_eq _ (by decide), BitVec.xor_comm byte]
    rfl
  have hstart : startValue ^^^ 0x0000 = startValue := xor_zero
  simp only [crcCalculateCRC16, calculateCRC16, hstep, hstart]

theorem crcCalculateCRC64_eq (startValue : uint64) (isFirstCall : Bool) :
    crcCalculateCRC64 data startValue isFirstCall = calculateCRC64 data isFirstCall startValue := by
  have hmask : ∀ crc : uint64, (crc >>> 8) &&& (0x00FFFFFFFFFFFFFF : uint64) = crc >>> 8 := by
    intro crc
    have hones : (0x00FFFFFFFFFFFFFF : uint64) = (BitVec.allOnes 56).setWidth 64 := by decide
    apply eq_of_getLsbD_eq
    intro i hi
    rw [hones, getLsbD_and, getLsbD_ushiftRight, getLsbD_setWidth, getLsbD_allOnes]
    by_cases hlow : i < 56
    · simp [hi, hlow]
    · simp [getLsbD_of_ge crc (8 + i) (by omega)]
  have hstep : reflectedByte lookupTableCrc64 = fun (crc : uint64) byte =>
      ((crc >>> 8) &&& 0x00FFFFFFFFFFFFFF) ^^^
        lookup lookupTableCrc64 ((byte.setWidth 64 ^^^ crc).setWidth 8) := by
    funext crc byte
    rw [hmask, BitVec.xor_comm, reflectedByte]
  unfold crcCalculateCRC64 calculateCRC64
  rw [← hstep]
  exact runtimeCrcReflected_eq (by decide : 8 ≤ 64) (lookup_eq lookupTableCrc64_eq) (by decide)
    (fun x => reflectUpTo_width x) (by decide) _ data startValue isFirstCall

/-- Each bitwise routine of the E2E library returns what the table-driven
routine returns for the same data, start value and first-call flag. -/
theorem crc_libraries_agree (data : List uint8) (isFirstCall : Bool) :
    (∀ start, crcCalculateCRC8 data start isFirstCall = calculateCRC8 data isFirstCall start) ∧
    (∀ start, crcCalculateCRC8H2F data start isFirstCall =
      calculateCRC8H2F data isFirstCall start) ∧
    (∀ start, crcCalculateCRC16 data start isFirstCall = calculateCRC16 data isFirstCall start) ∧
    (∀ start, crcCalculateCRC32 data start isFirstCall = calculateCRC32 data isFirstCall start) ∧
    (∀ start, crcCalculateCRC32P4 data start isFirstCall =
      calculateCRC32P4 data isFirstCall start) ∧
    (∀ start, crcCalculateCRC64 data start isFirstCall =
      calculateCRC64 data isFirstCall start) := by
  refine ⟨fun start => ?_, fun start => ?_, fun start => ?_, fun start => ?_, fun start => ?_,
    fun start => ?_⟩
  · exact runtimeCrc8_eq (lookup_eq lookupTableCrc8_eq) _ _ data start isFirstCall
  · exact runtimeCrc8_eq (lookup_eq lookupTableCrc8H2F_eq) _ _ data start isFirstCall
  · exact crcCalculateCRC16_eq data start isFirstCall
  · exact runtimeCrcReflected_eq (by decide : 8 ≤ 32) (lookup_eq lookupTableCrc32_eq) (by decide)
      (fun x => reflectUpTo_width x) (by decide) _ data start isFirstCall
  · exact runtimeCrcReflected_eq (by decide : 8 ≤ 32) (lookup_eq lookupTableCrc32P4_eq)
      (by decide) (fun x => reflectUpTo_width x) (by decide) _ data start isFirstCall
  · exact crcCalculateCRC64_eq data start isFirstCall

end AdaptivePlatform.Crc
