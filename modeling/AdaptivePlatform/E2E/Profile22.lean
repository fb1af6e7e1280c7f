import AdaptivePlatform.E2E.Framing

/-!
# Profile 22

A CRC of one byte and a counter in the lower half of the next byte. The counter
selects the data identifier that enters the CRC, and it is incremented before it
is sent.
-/
namespace AdaptivePlatform.E2E

open Bytes

/-- `E2E_P22ConfigType`, with the 16 entries of `DataIDList` that a counter can select. -/
structure P22Config where
  dataLength : uint16
  dataIDList : Vector uint8 16
  maxDeltaCounter : uint8
  offset : uint16

namespace P22Config

def byteOffset (config : P22Config) : ℕ := (config.offset / 8).toNat

def Admits (config : P22Config) (length : uint16) : Prop :=
  length = config.dataLength / 8 ∧ config.byteOffset + 2 ≤ length.toNat

instance decidableAdmits (config : P22Config) (length : uint16) :
    Decidable (config.Admits length) :=
  inferInstanceAs (Decidable (_ ∧ _))

end P22Config

variable (config : P22Config) (state : ProtectState 8) (data : Option (List uint8))
  (length : uint16)

/-- Here the only call starts at the byte `1`. -/
def p22Ranges : List (ℕ × ℕ) :=
  let offset := config.byteOffset
  if 0 < config.offset.toNat then
    [(0, offset), (offset + 1, (length.setWidth 32 - BitVec.ofNat 32 offset - 1).toNat)]
  else [(1, (length.setWidth 32 - 1#32).toNat)]

def p22CRC (counter : uint8) (data : List uint8) : Option uint8 := do
  let dataID ← config.dataIDList[counter.toNat]?
  crcOver crcCalculateCRC8H2F 0xFF data (p22Ranges config length) [[dataID]]

def p22Protect : Option (ReturnType × ProtectState 8 × Option (List uint8)) :=
  let counter := (state.counter + 1#8) % 16#8
  protectMessage (config.Admits length) state { counter := counter } data fun data => do
    let old ← data[config.byteOffset + 1]?
    sealMessage [(config.byteOffset + 1, [(old &&& 0xF0#8) + counter])]
      (p22CRC config length counter) config.byteOffset (fun crc => [crc]) data

def p22Check (state : CheckState 8) (data : Option (List uint8))
    (length : uint16) : Option (ReturnType × CheckState 8) :=
  checkMessage (config.Admits length) state data length fun data => do
    let offset := config.byteOffset
    let counterByte ← data[offset + 1]?
    let receivedCounter := counterByte &&& 0x0F#8
    let receivedCRC ← data[offset]?
    let computedCRC ← p22CRC config length receivedCounter data
    if receivedCRC = computedCRC then
      return checkSequence22 config.maxDeltaCounter state receivedCounter
    else return { state with status := .error }

def p22ProtectInit : ProtectState 8 := { counter := 0 }

def p22CheckInit : CheckState 8 := { status := .error, counter := 0xF }

/-- A message with a correct CRC, which covers the data identifier. -/
structure P22Correct (config : P22Config) (data : List uint8) (length : uint16)
    (counter : uint8) : Prop where
  nonzero : length ≠ 0
  admitted : config.Admits length
  counter_eq : ∃ byte, data[config.byteOffset + 1]? = some byte ∧ byte &&& 0x0F#8 = counter
  crc_eq : ∃ crc, data[config.byteOffset]? = some crc ∧ p22CRC config length counter data = some crc

variable {config : P22Config} {data : List uint8} {length : uint16} {counter : uint8}

theorem p22Check_correct (h : P22Correct config data length counter) (state : CheckState 8) :
    p22Check config state (some data) length =
      some (.ok, checkSequence22 config.maxDeltaCounter state counter) := by
  obtain ⟨byte, hbyte, rfl⟩ := h.counter_eq
  obtain ⟨crc, hread, hcrc⟩ := h.crc_eq
  rw [p22Check, checkMessage_some h.nonzero h.admitted]
  simp [hbyte, hread, hcrc]

theorem P22Config.byteOffset_eq_zero (h : config.offset.toNat = 0) : config.byteOffset = 0 := by
  simp [byteOffset, h]

theorem p22Ranges_eq : p22Ranges config =
    fun length => crcRanges config.offset.toNat config.byteOffset 1 (length.setWidth 32) := by
  unfold p22Ranges crcRanges
  split_ifs with hoffset
  · rfl
  · rw [config.byteOffset_eq_zero (by omega)]

theorem p22Ranges_around (h : config.byteOffset + 1 ≤ length.toNat) :
    RangesAround config.byteOffset 1 length.toNat (p22Ranges config length) := by
  rw [p22Ranges_eq]
  exact crcRanges_around config.byteOffset_eq_zero h

theorem counterByte_low (old : uint8) (hcounter : counter < 16#8) :
    ((old &&& 0xF0#8) + counter) &&& 0x0F#8 = counter := by
  have hhigh : ∀ old : uint8, (old &&& 0xF0#8).toNat % 16 = 0 := by decide +kernel
  have hold := hhigh old
  apply BitVec.eq_of_toNat_eq
  rw [toNat_and_mask (n := 4) rfl, BitVec.toNat_add]
  bv_omega

theorem p22Protect_correct (hlen : length.toNat ≤ data.length) (hlength : config.Admits length)
    (state : ProtectState 8) :
    ∃ wire, p22Protect config state (some data) length =
        some (.ok, { counter := (state.counter + 1#8) % 16#8 }, some wire) ∧
      P22Correct config wire length ((state.counter + 1#8) % 16#8) ∧
      AgreeOutside config.byteOffset (config.byteOffset + 2) data wire := by
  have hoff := hlength.2
  have hcounter : (state.counter + 1#8) % 16#8 < 16#8 := by exact Nat.mod_lt _ (by decide)
  generalize hnext : (state.counter + 1#8) % 16#8 = counter at *
  obtain ⟨old, hold⟩ : ∃ old, data[config.byteOffset + 1]? = some old :=
    ⟨_, List.getElem?_eq_getElem (by omega)⟩
  obtain ⟨dataID, hid⟩ : ∃ dataID, config.dataIDList[counter.toNat]? = some dataID :=
    ⟨_, Vector.getElem?_eq_getElem hcounter⟩
  have hcompute : p22CRC config length counter =
      (crcOver crcCalculateCRC8H2F 0xFF · (p22Ranges config length) [[dataID]]) := by
    funext data
    simp [p22CRC, hid]
  have hin : ∀ f ∈ [(config.byteOffset + 1, [(old &&& 0xF0#8) + counter])],
      Field.stop f ≤ data.length ∧
      (Field.stop f ≤ config.byteOffset ∨ config.byteOffset + 1 ≤ f.1) := by
    simp [Field.stop]
    omega
  obtain ⟨wire, crc, hseal, hcrc, hwritten⟩ :=
    exists_sealMessage (n := 1) crcCalculateCRC8H2F 0xFF [[dataID]] (fun crc => [crc])
      (fun _ => rfl) (by omega) hin (List.pairwise_singleton _ _)
      hlen (p22Ranges_around (by omega))
  rw [← hcompute] at hseal
  have hnonzero := ne_zero_of_room hoff
  refine ⟨wire, ?_, ⟨hnonzero, hlength,
    ⟨_, hwritten.cell_eq (by simp), counterByte_low old hcounter⟩, crc,
    hwritten.cell_eq (by simp), ?_⟩, hwritten.agreeOutside ?_⟩
  · simp only [p22Protect, hnext]
    apply protectMessage_some hlength
    simpa [hold] using hseal
  · rw [hcompute]
    exact hcrc
  · simp [Field.stop]

end AdaptivePlatform.E2E
