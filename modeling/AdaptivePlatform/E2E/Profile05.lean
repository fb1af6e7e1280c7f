import AdaptivePlatform.E2E.Framing

/-!
# Profiles 5 and 6

Both have a CRC of 16 bits first in the header and a counter of one byte, and
the data identifier enters the CRC but is not sent. Profile 5 has data of a fixed
length, stores the CRC low byte first and feeds the identifier low byte first;
profile 6 sends the length too and has both the other way round.
-/
namespace AdaptivePlatform.E2E

open Bytes

structure P05Config where
  offset : uint16
  dataLength : uint16
  dataID : uint16
  maxDeltaCounter : uint8

structure P06Config where
  offset : uint16
  minDataLength : uint16
  maxDataLength : uint16
  dataID : uint16
  maxDeltaCounter : uint8

variable (config : P05Config) (state : ProtectState 8) (data : Option (List uint8))
  (length : uint16)

def P05Config.byteOffset : ℕ := (config.offset / 8).toNat

def P06Config.byteOffset (config : P06Config) : ℕ := (config.offset / 8).toNat

def P05Config.Admits : Prop := length = config.dataLength / 8

def P06Config.Admits (config : P06Config) (length : uint16) : Prop :=
  config.minDataLength / 8 ≤ length ∧ length ≤ config.maxDataLength / 8

instance P05Config.decidableAdmits (config : P05Config) (length : uint16) :
    Decidable (config.Admits length) :=
  inferInstanceAs (Decidable (_ = _))

instance P06Config.decidableAdmits (config : P06Config) (length : uint16) :
    Decidable (config.Admits length) :=
  inferInstanceAs (Decidable (_ ∧ _))

/-- The data identifier enters low byte first. -/
def p05CRC (data : List uint8) : Option uint16 :=
  crcOver crcCalculateCRC16 0xFFFF data
    (crcRanges config.offset.toNat config.byteOffset 2 (length.setWidth 32))
    [[config.dataID.setWidth 8], [(config.dataID >>> 8).setWidth 8]]

/-- The data identifier enters high byte first. -/
def p06CRC (config : P06Config) (length : uint16) (data : List uint8) : Option uint16 :=
  crcOver crcCalculateCRC16 0xFFFF data
    (crcRanges config.offset.toNat config.byteOffset 2 (length.setWidth 32))
    [[(config.dataID >>> 8).setWidth 8], [config.dataID.setWidth 8]]

def p05Protect : Option (ReturnType × ProtectState 8 × Option (List uint8)) :=
  protectMessage (config.Admits length) state { counter := state.counter + 1 } data <|
    sealMessage [(config.byteOffset + 2, [state.counter])] (p05CRC config length)
      config.byteOffset (fun crc => [crc.setWidth 8, (crc >>> 8).setWidth 8])

def p05Check (state : CheckState 8) (data : Option (List uint8))
    (length : uint16) : Option (ReturnType × CheckState 8) :=
  checkMessage (config.Admits length) state data length fun data => do
    let offset := config.byteOffset
    let receivedCounter ← data[offset + 2]?
    let low ← data[offset]?
    let high ← data[offset + 1]?
    let receivedCRC : uint16 := low.setWidth 16 + high.setWidth 16 <<< 8
    let computedCRC ← p05CRC config length data
    if receivedCRC = computedCRC then
      return checkSequence config.maxDeltaCounter state receivedCounter
    else return { state with status := .error }

def p06Protect (config : P06Config) (state : ProtectState 8) (data : Option (List uint8))
    (length : uint16) : Option (ReturnType × ProtectState 8 × Option (List uint8)) :=
  protectMessage (config.Admits length) state { counter := state.counter + 1 } data <|
    sealMessage [(config.byteOffset + 2, beBytes 2 length),
        (config.byteOffset + 4, [state.counter])]
      (p06CRC config length) config.byteOffset (beBytes 2)

def p06Check (config : P06Config) (state : CheckState 8) (data : Option (List uint8))
    (length : uint16) : Option (ReturnType × CheckState 8) :=
  checkMessage (config.Admits length) state data length fun data => do
    let offset := config.byteOffset
    let receivedLength ← readWord 16 data (offset + 2) 2
    let receivedCounter ← data[offset + 4]?
    let receivedCRC ← readWord 16 data offset 2
    let computedCRC ← p06CRC config length data
    if receivedCRC = computedCRC ∧ receivedLength = length then
      return checkSequence config.maxDeltaCounter state receivedCounter
    else return { state with status := .error }

/-- `E2E_P05ProtectInit` and `E2E_P06ProtectInit` -/
def p05ProtectInit : ProtectState 8 := { counter := 0 }

/-- `E2E_P05CheckInit` and `E2E_P06CheckInit` -/
def p05CheckInit : CheckState 8 := { status := .error, counter := 0xFF }

/-- A message with a correct CRC, which covers the data identifier. -/
structure P05Correct (config : P05Config) (data : List uint8) (length : uint16)
    (counter : uint8) : Prop where
  nonzero : length ≠ 0
  admitted : config.Admits length
  counter_eq : data[config.byteOffset + 2]? = some counter
  crc_eq : ∃ low high, data[config.byteOffset]? = some low ∧
    data[config.byteOffset + 1]? = some high ∧
    p05CRC config length data = some (low.setWidth 16 + high.setWidth 16 <<< 8)

/-- A message with correct length and CRC, which covers the data identifier. -/
structure P06Correct (config : P06Config) (data : List uint8) (length : uint16)
    (counter : uint8) : Prop where
  nonzero : length ≠ 0
  admitted : config.Admits length
  length_eq : readWord 16 data (config.byteOffset + 2) 2 = some length
  counter_eq : data[config.byteOffset + 4]? = some counter
  crc_eq : ∃ crc, readWord 16 data config.byteOffset 2 = some crc ∧
    p06CRC config length data = some crc

theorem byteOffset_eq_zero {offset : uint16} (h : offset.toNat = 0) : (offset / 8).toNat = 0 := by
  simp [h]

theorem crcStop16_le {offset size n : ℕ} {length : uint16} (h : offset + size ≤ length.toNat)
    (hlen : n = length.toNat) : crcStop offset size (length.setWidth 32) ≤ n := by
  have hwide : (length.setWidth 32).toNat = length.toNat := by bv_omega
  rw [crcStop_eq (by omega), hwide, hlen]

section

variable {config : P05Config} {data : List uint8} {length : uint16} {counter : uint8}

theorem p05Check_correct (h : P05Correct config data length counter) (state : CheckState 8) :
    p05Check config state (some data) length =
      some (.ok, checkSequence config.maxDeltaCounter state counter) := by
  obtain ⟨low, high, hlow, hhigh, hcrc⟩ := h.crc_eq
  rw [p05Check, checkMessage_some h.nonzero h.admitted]
  simp [h.counter_eq, hlow, hhigh, hcrc]

theorem lowHigh_eq (x : uint16) :
    (x.setWidth 8).setWidth 16 + ((x >>> 8).setWidth 8).setWidth 16 <<< 8 = x := by
  bv_omega

theorem p05Protect_correct (hoff : config.byteOffset + 3 ≤ data.length)
    (hstop : crcStop config.byteOffset 2 (length.setWidth 32) ≤ data.length)
    (hlength : config.Admits length) (state : ProtectState 8) :
    ∃ wire, p05Protect config state (some data) length =
        some (.ok, { counter := state.counter + 1 }, some wire) ∧
      (length ≠ 0 → P05Correct config wire length state.counter) ∧
      AgreeOutside config.byteOffset (config.byteOffset + 3) data wire := by
  have hin : ∀ f ∈ [(config.byteOffset + 2, [state.counter])], Field.stop f ≤ data.length ∧
      (Field.stop f ≤ config.byteOffset ∨ config.byteOffset + 2 ≤ f.1) := by
    simp [Field.stop]
    omega
  obtain ⟨wire, crc, hseal, hcrc, hwritten⟩ := exists_sealMessage (n := 2) crcCalculateCRC16 0xFFFF
    [[config.dataID.setWidth 8], [(config.dataID >>> 8).setWidth 8]]
    (fun crc => [crc.setWidth 8, (crc >>> 8).setWidth 8]) (fun _ => rfl) (by omega) hin
    (List.pairwise_singleton _ _) hstop (crcRanges_around_stop byteOffset_eq_zero)
  have hfield := hwritten.field_eq (config.byteOffset, [crc.setWidth 8, (crc >>> 8).setWidth 8])
    (by simp)
  refine ⟨wire, protectMessage_some hlength _ _ hseal,
    fun hnonzero => ⟨hnonzero, hlength, ?_, crc.setWidth 8, (crc >>> 8).setWidth 8, ?_, ?_, ?_⟩,
    hwritten.agreeOutside ?_⟩
  · exact hwritten.cell_eq (by simp)
  · exact getElem?_of_segment (i := 0) hfield Nat.two_pos
  · exact getElem?_of_segment (i := 1) hfield Nat.one_lt_two
  · rw [lowHigh_eq]
    exact hcrc
  · simp [Field.stop]

end

section

variable {config : P06Config} {data : List uint8} {length : uint16} {counter : uint8}

theorem p06Check_correct (h : P06Correct config data length counter) (state : CheckState 8) :
    p06Check config state (some data) length =
      some (.ok, checkSequence config.maxDeltaCounter state counter) := by
  obtain ⟨crc, hread, hcrc⟩ := h.crc_eq
  rw [p06Check, checkMessage_some h.nonzero h.admitted]
  simp [h.length_eq, h.counter_eq, hread, hcrc]

theorem p06Protect_correct (hoff : config.byteOffset + 5 ≤ data.length)
    (hstop : crcStop config.byteOffset 2 (length.setWidth 32) ≤ data.length)
    (hlength : config.Admits length) (state : ProtectState 8) :
    ∃ wire, p06Protect config state (some data) length =
        some (.ok, { counter := state.counter + 1 }, some wire) ∧
      (length ≠ 0 → P06Correct config wire length state.counter) ∧
      AgreeOutside config.byteOffset (config.byteOffset + 5) data wire := by
  have hin : ∀ f ∈ [(config.byteOffset + 2, beBytes 2 length),
      (config.byteOffset + 4, [state.counter])], Field.stop f ≤ data.length ∧
      (Field.stop f ≤ config.byteOffset ∨ config.byteOffset + 2 ≤ f.1) := by
    simp [Field.stop]
    omega
  obtain ⟨wire, crc, hseal, hcrc, hwritten⟩ := exists_sealMessage crcCalculateCRC16 0xFFFF
    [[(config.dataID >>> 8).setWidth 8], [config.dataID.setWidth 8]]
    (beBytes 2) (length_beBytes 2) (by omega) hin (by simp [Field.Avoids]) hstop
    (crcRanges_around_stop byteOffset_eq_zero)
  refine ⟨wire, protectMessage_some hlength _ _ hseal,
    fun hnonzero => ⟨hnonzero, hlength, ?_, ?_, crc, ?_, hcrc⟩, hwritten.agreeOutside ?_⟩
  · exact hwritten.readWord_eq (by simp) (by decide)
  · exact hwritten.cell_eq (by simp)
  · exact hwritten.readWord_eq (by simp) (by decide)
  · simp [Field.stop]

end

end AdaptivePlatform.E2E
