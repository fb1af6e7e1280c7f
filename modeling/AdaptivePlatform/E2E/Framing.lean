import AdaptivePlatform.E2E.Crc
import AdaptivePlatform.E2E.Sequence
import Mathlib.Data.LawfulXor.Basic

/-!
# What the profiles share

The protect functions write the header fields, compute the CRC of the data
around the CRC field and write it last; the check functions verify their inputs
in one and the same way before they read the data.
-/
namespace AdaptivePlatform.E2E

open Bytes List

section

variable {c : ℕ} (calculate : List uint8 → BitVec c → Bool → BitVec c) (start : BitVec c)

/-- The CRC over several calls: the first one starts, the others continue. -/
def crcOfParts : List (List uint8) → BitVec c
  | [] => start
  | part :: parts =>
    parts.foldl (fun crc part => calculate part crc false) (calculate part start true)

/-- A routine that may be called for one part of the data after the other. -/
structure SplitsAnywhere : Prop where
  append : ∀ a b start isFirstCall, calculate (a ++ b) start isFirstCall =
    calculate b (calculate a start isFirstCall) false
  parts : ∀ start part parts, crcOfParts calculate start (part :: parts) =
    calculate (part :: parts).flatten start true

variable {calculate} in
theorem splitsAnywhere_of_append (happend : ∀ a b start isFirstCall,
      calculate (a ++ b) start isFirstCall = calculate b (calculate a start isFirstCall) false) :
    SplitsAnywhere calculate := by
  refine ⟨happend, ?_⟩
  intro start part parts
  rw [crcOfParts, flatten_cons]
  induction parts generalizing part with
  | nil => rw [foldl_nil, flatten_nil, append_nil]
  | cons next parts ih => rw [foldl_cons, ← happend, ih, flatten_cons, append_assoc]

variable {w configOffset offset size : ℕ} {length : uint32}

theorem runtimeCrc8_splits (poly initValue xorValue : uint8) :
    SplitsAnywhere (runtimeCrc8 poly initValue xorValue) := by
  apply splitsAnywhere_of_append
  intro a b start isFirstCall
  simp [runtimeCrc8]

theorem crcCalculateCRC16_splits : SplitsAnywhere crcCalculateCRC16 := by
  apply splitsAnywhere_of_append
  intro a b start isFirstCall
  simp [crcCalculateCRC16]

/-- A continued call takes back the final exclusive or and the reflection. -/
theorem runtimeCrcReflected_splits {reflect : BitVec c → BitVec c}
    (hreflect : ∀ x, reflect (reflect x) = x) (msb poly initValue xorValue : BitVec c)
    (shift : ℕ) :
    SplitsAnywhere (runtimeCrcReflected reflect msb poly initValue xorValue shift) := by
  apply splitsAnywhere_of_append
  intro a b start isFirstCall
  simp [runtimeCrcReflected, hreflect]

theorem reflectUpTo_reflectUpTo (x : BitVec w) :
    CrcRegister.reflectUpTo (CrcRegister.reflectUpTo x w) w = x := by
  rw [CrcRegister.reflectUpTo_width, CrcRegister.reflectUpTo_width, BitVec.reverse_reverse_eq]

/-- Each routine gives the same for the parts of some data as for all of it. -/
theorem crc_splitsAnywhere :
    SplitsAnywhere crcCalculateCRC8 ∧ SplitsAnywhere crcCalculateCRC8H2F ∧
      SplitsAnywhere crcCalculateCRC16 ∧ SplitsAnywhere crcCalculateCRC32 ∧
      SplitsAnywhere crcCalculateCRC32P4 ∧ SplitsAnywhere crcCalculateCRC64 :=
  ⟨runtimeCrc8_splits _ _ _, runtimeCrc8_splits _ _ _, crcCalculateCRC16_splits,
    runtimeCrcReflected_splits reflectUpTo_reflectUpTo _ _ _ _ _,
    runtimeCrcReflected_splits reflectUpTo_reflectUpTo _ _ _ _ _,
    runtimeCrcReflected_splits reflectUpTo_reflectUpTo _ _ _ _ _⟩

/-- The CRC of the given ranges of the data, and then of bytes outside it. -/
def crcOver (data : List uint8) (ranges : List (ℕ × ℕ)) (suffix : List (List uint8)) :
    Option (BitVec c) :=
  (segments data ranges).map fun parts => crcOfParts calculate start (parts ++ suffix)

/-- The CRC calls around a CRC field of `size` bytes at `offset`, in the profiles
that have it first in the header. The lengths are computed in 32 bits. -/
def crcRanges (configOffset offset size : ℕ) (length : uint32) : List (ℕ × ℕ) :=
  if 0 < configOffset then
    [(0, offset), (offset + size, (length - BitVec.ofNat 32 offset - BitVec.ofNat 32 size).toNat)]
  else [(offset + size, (length - BitVec.ofNat 32 size).toNat)]

/-- Ranges that end at the CRC field, or begin behind it and end with the data. -/
def RangesAround (offset size length : ℕ) (ranges : List (ℕ × ℕ)) : Prop :=
  ∀ r ∈ ranges, r.1 + r.2 = offset ∨ r.1 = offset + size ∧ r.1 + r.2 = length

/-- Where the last range ends. -/
def crcStop (offset size : ℕ) (length : uint32) : ℕ :=
  offset + size + (length - BitVec.ofNat 32 offset - BitVec.ofNat 32 size).toNat

theorem crcRanges_around_stop (hzero : configOffset = 0 → offset = 0) :
    RangesAround offset size (crcStop offset size length)
      (crcRanges configOffset offset size length) := by
  unfold crcRanges crcStop
  intro r hr
  split_ifs at hr with hoffset
  · rcases mem_pair.mp hr with rfl | rfl
    · exact .inl (Nat.zero_add _)
    · exact .inr ⟨rfl, rfl⟩
  · obtain rfl := mem_singleton.mp hr
    obtain rfl := hzero (by omega)
    exact .inr ⟨rfl, by simp⟩

theorem crcStop_eq (h : offset + size ≤ length.toNat) :
    crcStop offset size length = length.toNat := by
  unfold crcStop
  bv_omega

theorem crcRanges_around
    (hzero : configOffset = 0 → offset = 0) (h : offset + size ≤ length.toNat) :
    RangesAround offset size length.toNat (crcRanges configOffset offset size length) :=
  crcStop_eq h ▸ crcRanges_around_stop hzero

end

/-- The part of the protect functions that writes: the header fields, then the
CRC at `pos`. -/
def sealMessage {c : ℕ} (fields : List Field) (computeCRC : List uint8 → Option (BitVec c))
    (pos : ℕ) (encode : BitVec c → List uint8) (data : List uint8) : Option (List uint8) := do
  let data ← writeFields data fields
  let computedCRC ← computeCRC data
  writeFields data [(pos, encode computedCRC)]

/-- The verification of the inputs that opens every protect function, with the
profile's own condition on `Length`. -/
def protectMessage {w : ℕ} (admitted : Prop) [Decidable admitted] (state after : ProtectState w)
    (data : Option (List uint8)) (write : List uint8 → Option (List uint8)) :
    Option (ReturnType × ProtectState w × Option (List uint8)) :=
  match data with
  | none => some (.inputErrNull, state, none)
  | some data =>
    if admitted then (write data).map fun data => (.ok, after, some data)
    else some (.inputErrWrong, state, some data)

/-- The verification of the inputs that opens every check function, with the
profile's own condition on `Length` and the part that reads the data. -/
def checkMessage {w lw : ℕ} (admitted : Prop) [Decidable admitted] (state : CheckState w)
    (data : Option (List uint8)) (length : BitVec lw)
    (check : List uint8 → Option (CheckState w)) : Option (ReturnType × CheckState w) :=
  match data with
  | none =>
    if length = 0 then some (.ok, { state with status := .noNewData })
    else some (.inputErrWrong, state)
  | some data =>
    if length ≠ 0 ∧ admitted then (check data).map fun after => (.ok, after)
    else some (.inputErrWrong, state)

section

variable {w lw : ℕ} {admitted : Prop} [Decidable admitted]

theorem protectMessage_some (h : admitted) (state after : ProtectState w) {data wire : List uint8}
    {write : List uint8 → Option (List uint8)} (hwrite : write data = some wire) :
    protectMessage admitted state after (some data) write = some (.ok, after, some wire) := by
  rw [protectMessage, if_pos h, hwrite, Option.map_some]

theorem checkMessage_some {length : BitVec lw} (hzero : length ≠ 0) (h : admitted)
    (state : CheckState w) (data : List uint8) (check : List uint8 → Option (CheckState w)) :
    checkMessage admitted state (some data) length check =
      (check data).map fun after => (.ok, after) :=
  if_pos ⟨hzero, h⟩

end

theorem ne_zero_of_room {w pos n : ℕ} {length : BitVec w} (h : pos + (n + 1) ≤ length.toNat) :
    length ≠ 0 := by
  rintro rfl
  simp at h

/-- With the header inside the data and the CRC ranges around the CRC field, the
written message carries the fields and the CRC that a later computation finds. -/
theorem exists_sealMessage {c : ℕ} (calculate : List uint8 → BitVec c → Bool → BitVec c)
    (start : BitVec c) {ranges : List (ℕ × ℕ)} (suffix : List (List uint8))
    (encode : BitVec c → List uint8) {data : List uint8} {fields : List Field} {pos n : ℕ}
    (hencode : ∀ crc, (encode crc).length = n) (hpos : pos + n ≤ data.length)
    (hin : ∀ f ∈ fields, f.stop ≤ data.length ∧ (f.stop ≤ pos ∨ pos + n ≤ f.1))
    (hdisj : fields.Pairwise fun f g => g.Avoids f.1 f.2.length)
    {stop : ℕ} (hstop : stop ≤ data.length) (hranges : RangesAround pos n stop ranges) :
    ∃ wire crc,
      sealMessage fields (crcOver calculate start · ranges suffix) pos encode data = some wire ∧
      crcOver calculate start wire ranges suffix = some crc ∧
      Written data (fields ++ [(pos, encode crc)]) wire := by
  obtain ⟨filled, hfill, hfilled⟩ := exists_writeFields (fun f hf => (hin f hf).1) hdisj
  obtain ⟨parts, hparts⟩ : ∃ parts, segments filled ranges = some parts := by
    apply exists_segments
    intro r hr
    have := hranges r hr
    rw [hfilled.length_eq]
    omega
  let crc := crcOfParts calculate start (parts ++ suffix)
  have hcrc : crcOver calculate start filled ranges suffix = some crc := by
    rw [crcOver, hparts, Option.map_some]
  have hroom : ∀ f ∈ [(pos, encode crc)], Field.stop f ≤ filled.length := by
    simpa [Field.stop, hencode, hfilled.length_eq] using hpos
  obtain ⟨wire, hwire, hsealed⟩ := exists_writeFields hroom (pairwise_singleton _ _)
  have hkeep : segments wire ranges = segments filled ranges := by
    apply hsealed.segments_eq
    intro r hr f hf
    obtain rfl := mem_singleton.mp hf
    have := hranges r hr
    simp only [Field.Avoids, Field.stop, hencode]
    omega
  refine ⟨wire, crc, ?_, ?_, hfilled.append hsealed ?_⟩
  · simp [sealMessage, hfill, hcrc, hwire]
  · rw [crcOver, hkeep, hparts, Option.map_some]
  · intro f hf g hg
    obtain rfl := mem_singleton.mp hg
    simpa [Field.Avoids, Field.stop, hencode] using (hin f hf).2

end AdaptivePlatform.E2E
