import AdaptivePlatform.E2E.Framing

/-!
# Profiles 7 and 8

The header is the CRC, then length, counter and data identifier of 32 bits each.
The profiles differ in the CRC, of 64 and of 32 bits, and in how the length of
its only call is written down when the header comes first.
-/
namespace AdaptivePlatform.E2E

open Bytes

/-- `E2E_P07ConfigType` and `E2E_P08ConfigType` -/
structure P07Config where
  dataID : uint32
  offset : uint32
  minDataLength : uint32
  maxDataLength : uint32
  maxDeltaCounter : uint32

abbrev P08Config := P07Config

namespace P07Config

def byteOffset (config : P07Config) : ℕ := (config.offset / 8).toNat

def Admits (config : P07Config) (length : uint32) : Prop :=
  config.minDataLength / 8 ≤ length ∧ length ≤ config.maxDataLength / 8

instance decidableAdmits (config : P07Config) (length : uint32) :
    Decidable (config.Admits length) :=
  inferInstanceAs (Decidable (_ ∧ _))

end P07Config

/-- The fields behind a CRC of `size` bytes. -/
def profile7Fields (config : P07Config) (size : ℕ) (counter length : uint32) : List Field :=
  [(config.byteOffset + size, beBytes 4 length), (config.byteOffset + size + 4, beBytes 4 counter),
    (config.byteOffset + size + 8, beBytes 4 config.dataID)]

def profile7Protect {c : ℕ} (size : ℕ) (computeCRC : uint32 → List uint8 → Option (BitVec c))
    (config : P07Config) (state : ProtectState 32) (data : Option (List uint8)) (length : uint32) :
    Option (ReturnType × ProtectState 32 × Option (List uint8)) :=
  protectMessage (config.Admits length) state { counter := state.counter + 1 } data <|
    sealMessage (profile7Fields config size state.counter length) (computeCRC length)
      config.byteOffset (beBytes size)

def profile7Check {c : ℕ} (size : ℕ) (computeCRC : uint32 → List uint8 → Option (BitVec c))
    (config : P07Config) (state : CheckState 32) (data : Option (List uint8)) (length : uint32) :
    Option (ReturnType × CheckState 32) :=
  checkMessage (config.Admits length) state data length fun data => do
    let offset := config.byteOffset
    let receivedLength ← readWord 32 data (offset + size) 4
    let receivedCounter ← readWord 32 data (offset + size + 4) 4
    let receivedDataID ← readWord 32 data (offset + size + 8) 4
    let receivedCRC ← readWord c data offset size
    let computedCRC ← computeCRC length data
    if receivedCRC = computedCRC ∧ receivedDataID = config.dataID ∧ receivedLength = length then
      return checkSequence32 config.maxDeltaCounter state receivedCounter
    else return { state with status := .error }

def p07CRC (config : P07Config) (length : uint32) (data : List uint8) : Option uint64 :=
  crcOver crcCalculateCRC64 0xFFFFFFFFFFFFFFFF data
    (crcRanges config.offset.toNat config.byteOffset 8 length) []

variable (config : P08Config) (length : uint32)

/-- Here the length of the only call is `Length - Offset - 4`, too. -/
def p08Ranges : List (ℕ × ℕ) :=
  if 0 < config.offset.toNat then
    [(0, config.byteOffset), (config.byteOffset + 4, (length - config.offset / 8 - 4).toNat)]
  else [(config.byteOffset + 4, (length - config.offset / 8 - 4).toNat)]

def p08CRC (data : List uint8) : Option uint32 :=
  crcOver crcCalculateCRC32P4 0xFFFFFFFF data (p08Ranges config length) []

def p07Protect (config : P07Config) := profile7Protect 8 (p07CRC config) config

def p07Check (config : P07Config) := profile7Check 8 (p07CRC config) config

def p08Protect := profile7Protect 4 (p08CRC config) config

def p08Check := profile7Check 4 (p08CRC config) config

/-- `E2E_P07ProtectInit` and `E2E_P08ProtectInit` -/
def p07ProtectInit : ProtectState 32 := { counter := 0 }

/-- `E2E_P07CheckInit` and `E2E_P08CheckInit` -/
def p07CheckInit : CheckState 32 := { status := .error, counter := 0xFFFFFFFF }

section

variable {c size : ℕ} {computeCRC : uint32 → List uint8 → Option (BitVec c)} {config : P07Config}
  {data : List uint8} {length counter : uint32}

/-- A message with correct CRC, data identifier and length. -/
structure Profile7Correct {c : ℕ} (size : ℕ)
    (computeCRC : uint32 → List uint8 → Option (BitVec c)) (config : P07Config)
    (data : List uint8) (length counter : uint32) : Prop where
  nonzero : length ≠ 0
  admitted : config.Admits length
  length_eq : readWord 32 data (config.byteOffset + size) 4 = some length
  counter_eq : readWord 32 data (config.byteOffset + size + 4) 4 = some counter
  dataID_eq : readWord 32 data (config.byteOffset + size + 8) 4 = some config.dataID
  crc_eq : ∃ crc, readWord c data config.byteOffset size = some crc ∧
    computeCRC length data = some crc

theorem profile7Check_correct (h : Profile7Correct size computeCRC config data length counter)
    (state : CheckState 32) :
    profile7Check size computeCRC config state (some data) length =
      some (.ok, checkSequence config.maxDeltaCounter state counter) := by
  obtain ⟨crc, hread, hcrc⟩ := h.crc_eq
  rw [profile7Check, checkMessage_some h.nonzero h.admitted]
  simp [h.length_eq, h.counter_eq, h.dataID_eq, hread, hcrc, checkSequence32_eq]

/-- For a CRC computed around its field, `Protect` makes a correct message and
changes the header only. -/
theorem profile7Protect_correct {calculate : List uint8 → BitVec c → Bool → BitVec c}
    {start : BitVec c} {ranges : List (ℕ × ℕ)}
    (hcompute : computeCRC length = (crcOver calculate start · ranges []))
    (hranges : RangesAround config.byteOffset size length.toNat ranges) (hsize : 8 * size = c)
    (hlen : data.length = length.toNat) (hbounds : config.Admits length)
    (hoff : config.byteOffset + (size + 12) ≤ length.toNat) (state : ProtectState 32) :
    ∃ wire, profile7Protect size computeCRC config state (some data) length =
        some (.ok, { counter := state.counter + 1 }, some wire) ∧
      Profile7Correct size computeCRC config wire length state.counter ∧
      AgreeOutside config.byteOffset (config.byteOffset + (size + 12)) data wire := by
  have hin : ∀ f ∈ profile7Fields config size state.counter length,
      Field.stop f ≤ data.length ∧
      (Field.stop f ≤ config.byteOffset ∨ config.byteOffset + size ≤ f.1) := by
    simp [profile7Fields, Field.stop]
    omega
  obtain ⟨wire, crc, hseal, hcrc, hwritten⟩ :=
    exists_sealMessage calculate start [] (beBytes size) (length_beBytes size) (by omega) hin
      (by simp [profile7Fields, Field.Avoids]) hlen.ge hranges
  have hnonzero := ne_zero_of_room hoff
  rw [← hcompute] at hseal
  refine ⟨wire, protectMessage_some hbounds _ _ hseal,
    ⟨hnonzero, hbounds, ?_, ?_, ?_, crc, ?_, ?_⟩, hwritten.agreeOutside ?_⟩
  iterate 3 exact hwritten.readWord_eq (by simp [profile7Fields]) (by decide)
  · exact hwritten.readWord_eq (by simp) hsize
  · rw [hcompute]
    exact hcrc
  · simp [profile7Fields, Field.stop]
    omega

end

section

variable {config : P07Config} {length : uint32}

theorem P07Config.byteOffset_eq_zero (h : config.offset.toNat = 0) : config.byteOffset = 0 := by
  simp [P07Config.byteOffset, h]

theorem p07Ranges_around (h : config.byteOffset + 8 ≤ length.toNat) :
    RangesAround config.byteOffset 8 length.toNat
      (crcRanges config.offset.toNat config.byteOffset 8 length) :=
  crcRanges_around P07Config.byteOffset_eq_zero h

theorem p08Ranges_eq :
    p08Ranges config length = crcRanges config.offset.toNat config.byteOffset 4 length := by
  have hoffset : BitVec.ofNat 32 config.byteOffset = config.offset / 8 := by
    rw [P07Config.byteOffset, BitVec.ofNat_toNat, BitVec.setWidth_eq]
  unfold p08Ranges crcRanges
  rw [hoffset]
  split_ifs with h
  · rfl
  · have hzero : config.byteOffset = 0 := P07Config.byteOffset_eq_zero (by omega)
    rw [← hoffset, hzero, BitVec.sub_zero]
    rfl

theorem p08Ranges_around (h : config.byteOffset + 4 ≤ length.toNat) :
    RangesAround config.byteOffset 4 length.toNat (p08Ranges config length) := by
  rw [p08Ranges_eq]
  exact crcRanges_around P07Config.byteOffset_eq_zero h

end

end AdaptivePlatform.E2E
