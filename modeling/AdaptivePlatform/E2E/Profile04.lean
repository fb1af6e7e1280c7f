import AdaptivePlatform.E2E.Framing

/-!
# Profiles 4, 44 and 4m

The header of profile 4 lies at the configured offset: length, counter and data
identifier, then the CRC of everything else. Profile 44 differs in the types of
its configuration only. Profile 4m adds a word with source identifier, message
type and message result behind the CRC.
-/
namespace AdaptivePlatform.E2E

open Bytes

structure P04Config where
  dataID : uint32
  offset : uint16
  minDataLength : uint16
  maxDataLength : uint16
  maxDeltaCounter : uint16

structure P44Config where
  dataID : uint32
  offset : uint32
  minDataLength : uint32
  maxDataLength : uint32
  maxDeltaCounter : uint16

/-- A configuration as the functions use it, with offset and bounds in bytes. -/
structure Layout4 where
  dataID : uint32
  offset : ℕ
  minLength : ℕ
  maxLength : ℕ
  maxDeltaCounter : uint16

def P04Config.layout (config : P04Config) : Layout4 where
  dataID := config.dataID
  offset := (config.offset / 8).toNat
  minLength := (config.minDataLength / 8).toNat
  maxLength := (config.maxDataLength / 8).toNat
  maxDeltaCounter := config.maxDeltaCounter

/-- The byte offset of profile 44 is kept in a `uint16`. -/
def P44Config.layout (config : P44Config) : Layout4 where
  dataID := config.dataID
  offset := ((config.offset / 8).setWidth 16).toNat
  minLength := (config.minDataLength / 8).toNat
  maxLength := (config.maxDataLength / 8).toNat
  maxDeltaCounter := config.maxDeltaCounter

variable (layout : Layout4) (state : ProtectState 16) (data : Option (List uint8)) (length : uint16)

def Layout4.Admits : Prop := layout.minLength ≤ length.toNat ∧ length.toNat ≤ layout.maxLength

instance Layout4.decidableAdmits (layout : Layout4) (length : uint16) :
    Decidable (layout.Admits length) :=
  inferInstanceAs (Decidable (_ ∧ _))

def profile4Ranges (offset : ℕ) (length : uint16) : List (ℕ × ℕ) :=
  (0, offset + 8) ::
    if offset + 12 < length.toNat then [(offset + 12, length.toNat - offset - 12)] else []

def profile4CRC (offset : ℕ) (length : uint16) (data : List uint8) : Option uint32 :=
  crcOver crcCalculateCRC32P4 0xFFFFFFFF data (profile4Ranges offset length) []

def profile4Fields (counter length : uint16) : List Field :=
  [(layout.offset, beBytes 2 length), (layout.offset + 2, beBytes 2 counter),
    (layout.offset + 4, beBytes 4 layout.dataID)]

/-- `E2E_P04Protect` and `E2E_P44Protect` -/
def profile4Protect : Option (ReturnType × ProtectState 16 × Option (List uint8)) :=
  protectMessage (layout.Admits length) state { counter := state.counter + 1 } data <|
    sealMessage (profile4Fields layout state.counter length) (profile4CRC layout.offset length)
      (layout.offset + 8) (beBytes 4)

/-- `E2E_P04Check` and `E2E_P44Check` -/
def profile4Check (state : CheckState 16) (data : Option (List uint8))
    (length : uint16) : Option (ReturnType × CheckState 16) :=
  checkMessage (layout.Admits length) state data length fun data => do
    let offset := layout.offset
    let receivedLength ← readWord 16 data offset 2
    let receivedCounter ← readWord 16 data (offset + 2) 2
    let receivedDataID ← readWord 32 data (offset + 4) 4
    let receivedCRC ← readWord 32 data (offset + 8) 4
    let computedCRC ← profile4CRC offset length data
    if receivedCRC = computedCRC ∧ receivedDataID = layout.dataID ∧ receivedLength = length then
      return checkSequence layout.maxDeltaCounter state receivedCounter
    else return { state with status := .error }

def p04Protect (config : P04Config) := profile4Protect config.layout

def p04Check (config : P04Config) := profile4Check config.layout

def p44Protect (config : P44Config) := profile4Protect config.layout

def p44Check (config : P44Config) := profile4Check config.layout

/-- `E2E_P04ProtectInit` and `E2E_P44ProtectInit` -/
def p04ProtectInit : ProtectState 16 := { counter := 0 }

/-- `E2E_P04CheckInit` and `E2E_P44CheckInit` -/
def p04CheckInit : CheckState 16 := { status := .error, counter := 0xFFFF }

section

variable {layout : Layout4} {data : List uint8} {length counter : uint16}

/-- A message with correct CRC, data identifier and length. -/
structure Profile4Correct (layout : Layout4) (data : List uint8) (length counter : uint16) :
    Prop where
  nonzero : length ≠ 0
  admitted : layout.Admits length
  length_eq : readWord 16 data layout.offset 2 = some length
  counter_eq : readWord 16 data (layout.offset + 2) 2 = some counter
  dataID_eq : readWord 32 data (layout.offset + 4) 4 = some layout.dataID
  crc_eq : ∃ crc, readWord 32 data (layout.offset + 8) 4 = some crc ∧
    profile4CRC layout.offset length data = some crc

theorem profile4Check_correct (h : Profile4Correct layout data length counter)
    (state : CheckState 16) :
    profile4Check layout state (some data) length =
      some (.ok, checkSequence layout.maxDeltaCounter state counter) := by
  obtain ⟨crc, hread, hcrc⟩ := h.crc_eq
  rw [profile4Check, checkMessage_some h.nonzero h.admitted]
  simp [h.length_eq, h.counter_eq, h.dataID_eq, hread, hcrc]

theorem profile4Ranges_around (offset : ℕ) :
    RangesAround (offset + 8) 4 length.toNat (profile4Ranges offset length) := by
  intro r hr
  rcases List.mem_cons.mp hr with rfl | hr
  · exact .inl (Nat.zero_add _)
  · split_ifs at hr
    · obtain rfl := List.mem_singleton.mp hr
      refine .inr ⟨rfl, ?_⟩
      omega
    · cases hr

/-- Where the header fits into the data, `Protect` writes it and nothing else. The message is
correct and carries the counter; only for `Length` 0 there is no correct message. -/
theorem profile4Protect_correct (hlen : length.toNat ≤ data.length)
    (hbounds : layout.Admits length) (hoff : layout.offset + 12 ≤ data.length)
    (state : ProtectState 16) :
    ∃ wire, profile4Protect layout state (some data) length =
        some (.ok, { counter := state.counter + 1 }, some wire) ∧
      (length ≠ 0 → Profile4Correct layout wire length state.counter) ∧
      AgreeOutside layout.offset (layout.offset + 12) data wire := by
  have hin : ∀ f ∈ profile4Fields layout state.counter length, Field.stop f ≤ data.length ∧
      (Field.stop f ≤ layout.offset + 8 ∨ layout.offset + 8 + 4 ≤ f.1) := by
    simp [profile4Fields, Field.stop]
    omega
  obtain ⟨wire, crc, hseal, hcrc, hwritten⟩ :=
    exists_sealMessage crcCalculateCRC32P4 0xFFFFFFFF [] (beBytes 4) (length_beBytes 4) (by omega)
      hin (by simp [profile4Fields, Field.Avoids]) hlen (profile4Ranges_around _)
  refine ⟨wire, protectMessage_some hbounds _ _ hseal,
    fun hnonzero => ⟨hnonzero, hbounds, ?_, ?_, ?_, crc, ?_, hcrc⟩,
    hwritten.agreeOutside (by simp [profile4Fields, Field.stop])⟩
  all_goals exact hwritten.readWord_eq (by simp [profile4Fields]) (by decide)

end

section

/-- `E2E_P04mConfigType` has the fields of `E2E_P04ConfigType`. -/
abbrev P04mConfig := P04Config

/-- Message type and message result in the upper bits of a byte. -/
def withKind (first messageType messageResult : uint8) : uint8 :=
  let first := (first &&& 0x3F) ||| ((messageType &&& 0x03) <<< 6)
  (first &&& 0xCF) ||| ((messageResult &&& 0x03) <<< 4)

variable (config : P04mConfig) (state : CheckState 16) (sourceID : uint32)
  (messageType messageResult : uint8) (data : Option (List uint8)) (length : uint16)

/-- The word behind the CRC: the source identifier, whose first byte then gets
message type and message result. -/
def sourceBytes : List uint8 :=
  withKind ((sourceID >>> 24).setWidth 8) messageType messageResult :: beBytes 3 sourceID

def MessageKindValid : Prop := messageType ≤ 1 ∧ messageResult ≤ 1

instance (messageType messageResult : uint8) :
    Decidable (MessageKindValid messageType messageResult) :=
  inferInstanceAs (Decidable (_ ∧ _))

def p04mProtect (state : ProtectState 16) (sourceID : uint32)
    (messageType messageResult : uint8) (data : Option (List uint8)) (length : uint16) :
    Option (ReturnType × ProtectState 16 × Option (List uint8)) :=
  let layout := config.layout
  protectMessage (layout.Admits length ∧ sourceID ≤ 0xFFFFFFF ∧
      MessageKindValid messageType messageResult)
    state { counter := state.counter + 1 } data <|
    sealMessage (profile4Fields layout state.counter length ++
        [(layout.offset + 12, sourceBytes sourceID messageType messageResult)])
      (profile4CRC layout.offset length) (layout.offset + 8) (beBytes 4)

/-- What both check functions read from the data. -/
structure P04mReceived where
  length : uint16
  counter : uint16
  dataID : uint32
  sourceID : uint32
  messageType : uint8
  messageResult : uint8
  crc : uint32

def p04mRead (offset : ℕ) (data : List uint8) : Option P04mReceived := do
  let receivedLength ← readWord 16 data offset 2
  let receivedCounter ← readWord 16 data (offset + 2) 2
  let receivedDataID ← readWord 32 data (offset + 4) 4
  let sourceWord ← readWord 32 data (offset + 12) 4
  let first ← readWord 8 data (offset + 12) 1
  let receivedCRC ← readWord 32 data (offset + 8) 4
  return {
    length := receivedLength
    counter := receivedCounter
    dataID := receivedDataID
    sourceID := sourceWord &&& 0x0FFFFFFF
    messageType := (first &&& 0xC0) >>> 6
    messageResult := (first &&& 0x30) >>> 4
    crc := receivedCRC }

def p04mSourceCheck : Option (ReturnType × CheckState 16) :=
  let layout := config.layout
  checkMessage (sourceID ≤ 0xFFFFFFF ∧ layout.Admits length ∧
      MessageKindValid messageType messageResult) state data length fun data => do
    let received ← p04mRead layout.offset data
    let computedCRC ← profile4CRC layout.offset length data
    if received.crc = computedCRC ∧ received.dataID = layout.dataID ∧
        received.sourceID = sourceID ∧ received.messageType = messageType ∧
        received.messageResult = messageResult ∧ received.length = length then
      return checkSequence layout.maxDeltaCounter state received.counter
    else return { state with status := .error }

/-- `E2E_P04mSinkCheck`: the source identifier is not compared but returned,
also with a message that fails the check. -/
def p04mSinkCheck : Option (ReturnType × CheckState 16 × uint32) :=
  let layout := config.layout
  match data with
  | none =>
    if length = 0 then some (.ok, { state with status := .noNewData }, sourceID)
    else some (.inputErrWrong, state, sourceID)
  | some data =>
    if length ≠ 0 ∧ layout.Admits length ∧ MessageKindValid messageType messageResult then do
      let received ← p04mRead layout.offset data
      let computedCRC ← profile4CRC layout.offset length data
      if received.crc = computedCRC ∧ received.dataID = layout.dataID ∧
          received.messageType = messageType ∧ received.messageResult = messageResult ∧
          received.length = length then
        return (.ok, checkSequence layout.maxDeltaCounter state received.counter,
          received.sourceID)
      else return (.ok, { state with status := .error }, received.sourceID)
    else some (.inputErrWrong, state, sourceID)

variable {config : P04mConfig} {data : List uint8} {length counter : uint16}
  {sourceID carriedID : uint32} {messageType messageResult carriedType carriedResult : uint8}

/-- A message with correct CRC, data identifier and length that carries the given
source identifier, message type and message result. -/
structure P04mCorrect (config : P04mConfig) (data : List uint8) (length counter : uint16)
    (carriedID : uint32) (carriedType carriedResult : uint8) : Prop
    extends Profile4Correct config.layout data length counter where
  source_eq : ∃ word, readWord 32 data (config.layout.offset + 12) 4 = some word ∧
    word &&& 0x0FFFFFFF = carriedID
  kind_eq : ∃ first, readWord 8 data (config.layout.offset + 12) 1 = some first ∧
    (first &&& 0xC0) >>> 6 = carriedType ∧ (first &&& 0x30) >>> 4 = carriedResult

section

variable (h : P04mCorrect config data length counter carriedID carriedType carriedResult)

include h

theorem P04mCorrect.read :
    ∃ crc, profile4CRC config.layout.offset length data = some crc ∧
      p04mRead config.layout.offset data = some ⟨length, counter, config.layout.dataID, carriedID,
        carriedType, carriedResult, crc⟩ := by
  obtain ⟨crc, hread, hcrc⟩ := h.crc_eq
  obtain ⟨word, hword, rfl⟩ := h.source_eq
  obtain ⟨first, hfirst, rfl, rfl⟩ := h.kind_eq
  refine ⟨crc, hcrc, ?_⟩
  simp [p04mRead, h.length_eq, h.counter_eq, h.dataID_eq, hword, hfirst, hread]

theorem p04mSourceCheck_correct (hid : sourceID ≤ 0xFFFFFFF)
    (hkind : MessageKindValid messageType messageResult) (state : CheckState 16) :
    p04mSourceCheck config state sourceID messageType messageResult (some data) length =
      some (.ok, if carriedID = sourceID ∧ carriedType = messageType ∧
          carriedResult = messageResult
        then checkSequence config.layout.maxDeltaCounter state counter
        else { state with status := .error }) := by
  obtain ⟨crc, hcrc, hread⟩ := h.read
  rw [p04mSourceCheck, checkMessage_some h.nonzero ⟨hid, h.admitted, hkind⟩]
  simp only [hread, hcrc, Option.bind_eq_bind, Option.bind_some, true_and, and_true]
  split_ifs <;> rfl

theorem p04mSinkCheck_correct (hkind : MessageKindValid messageType messageResult)
    (state : CheckState 16) :
    p04mSinkCheck config state sourceID messageType messageResult (some data) length =
      some (.ok, if carriedType = messageType ∧ carriedResult = messageResult
        then checkSequence config.layout.maxDeltaCounter state counter
        else { state with status := .error }, carriedID) := by
  obtain ⟨crc, hcrc, hread⟩ := h.read
  simp only [p04mSinkCheck]
  rw [if_pos ⟨h.nonzero, h.admitted, hkind⟩]
  simp only [hread, hcrc, Option.bind_eq_bind, Option.bind_some, true_and, and_true]
  split_ifs <;> rfl

end

theorem withKind_spec : ∀ first < 16#8, ∀ messageType ≤ 1#8, ∀ messageResult ≤ 1#8,
    let byte := withKind first messageType messageResult
    byte.toNat % 16 = first.toNat ∧ (byte &&& 0xC0) >>> 6 = messageType ∧
      (byte &&& 0x30) >>> 4 = messageResult := by
  decide +kernel

theorem beWord_source {first : uint8}
    (hfirst : first.toNat % 16 = ((sourceID >>> 24).setWidth 8).toNat) :
    beWord 32 (first :: beBytes 3 sourceID) &&& 0x0FFFFFFF = sourceID := by
  have hlow : (beWord 32 (beBytes 3 sourceID)).toNat = sourceID.toNat % 2 ^ 24 :=
    toNat_beWord_beBytes (by decide) sourceID
  apply BitVec.eq_of_toNat_eq
  rw [toNat_and_mask (n := 28) rfl, beWord, length_beBytes, BitVec.toNat_add, hlow]
  simp only [BitVec.toNat_shiftLeft, BitVec.toNat_setWidth, BitVec.toNat_ushiftRight] at hfirst ⊢
  omega

theorem p04mProtect_correct (hlen : data.length = length.toNat)
    (hbounds : config.layout.Admits length) (hoff : config.layout.offset + 16 ≤ length.toNat)
    (hid : sourceID ≤ 0xFFFFFFF) (hkind : MessageKindValid messageType messageResult)
    (state : ProtectState 16) :
    ∃ wire, p04mProtect config state sourceID messageType messageResult (some data) length =
        some (.ok, { counter := state.counter + 1 }, some wire) ∧
      P04mCorrect config wire length state.counter sourceID messageType messageResult ∧
      AgreeOutside config.layout.offset (config.layout.offset + 16) data wire := by
  let offset := config.layout.offset
  let fields := profile4Fields config.layout state.counter length ++
    [(offset + 12, sourceBytes sourceID messageType messageResult)]
  have hin : ∀ f ∈ fields, Field.stop f ≤ data.length ∧
      (Field.stop f ≤ offset + 8 ∨ offset + 8 + 4 ≤ f.1) := by
    simp [fields, profile4Fields, sourceBytes, Field.stop]
    omega
  obtain ⟨wire, crc, hseal, hcrc, hwritten⟩ :=
    exists_sealMessage crcCalculateCRC32P4 0xFFFFFFFF [] (beBytes 4) (length_beBytes 4) (by omega)
      hin (by simp [fields, offset, profile4Fields, Field.Avoids])
      hlen.ge (profile4Ranges_around _)
  have hnonzero := ne_zero_of_room hoff
  have hsource : Bytes.segment wire (offset + 12) 4 =
      some (sourceBytes sourceID messageType messageResult) :=
    hwritten.field_eq (offset + 12, sourceBytes sourceID messageType messageResult)
      (by simp [fields])
  have htop : (sourceID >>> 24).setWidth 8 < 16#8 := by bv_omega
  obtain ⟨hlow, htype, hresult⟩ := withKind_spec _ htop messageType hkind.1 messageResult hkind.2
  refine ⟨wire, protectMessage_some ⟨hbounds, hid, hkind⟩ _ _ hseal,
    ⟨⟨hnonzero, hbounds, ?_, ?_, ?_, crc, ?_, hcrc⟩, ⟨_, ?_, beWord_source hlow⟩, _, ?_,
      htype, hresult⟩, hwritten.agreeOutside ?_⟩
  iterate 3 exact hwritten.readWord_eq (by simp [fields, profile4Fields]) (by decide)
  · exact hwritten.readWord_eq (by simp [fields, offset]) (by decide)
  · rw [readWord, hsource, Option.map_some]
    rfl
  · rw [readWord, segment_take hsource (by decide)]
    simp [sourceBytes, beWord]
  · simp [fields, offset, profile4Fields, sourceBytes, Field.stop]

end

end AdaptivePlatform.E2E
