import AdaptivePlatform.Foundations.BufferReads
import AdaptivePlatform.Foundations.LengthPrefixed

/-!
# The IDS protocol

Security events travel as messages: eight bytes of header with the total size in
the last four, an event frame of eight bytes, and up to three optional parts
that flags in the frame announce: timestamp, context data, signature.
`IdsmSerialize` writes one message, `IdsmDeserialize` collects messages from the
pieces of a byte stream. Words stand in network byte order.

Signatures belong to the crypto library. The encoder gets what it signs with, if
anything, and the decoder how it verifies; without `ARA_WITH_CRYPTO` it has no
verification.
-/
namespace AdaptivePlatform.Idsm

open Bytes Reads LengthPrefixed

inductive TimestampSource
  | appReport
  | appCallback
  | araTsync
  | appOem
  | unknown
  deriving DecidableEq, Repr

/-- The members of an `Event` that a message carries. -/
structure Event where
  eventId : uint16 := 1
  sensorId : uint8 := 0
  counter : uint16 := 0
  timeSource : TimestampSource := .araTsync
  timestamp : uint64 := 0
  contextData : List uint8 := []

namespace ProtoFlag

def contextData : uint8 := 0x1#8
def timestamp : uint8 := 0x2#8
def signature : uint8 := 0x4#8

end ProtoFlag

open ProtoFlag (contextData signature timestamp)

/-- The flag is set in a protocol header. -/
def Announces (header flag : uint8) : Prop := header &&& flag ≠ 0#8

instance decidableAnnounces (header flag : uint8) : Decidable (Announces header flag) :=
  inferInstanceAs (Decidable (_ ≠ _))

def nanosPerSecond : uint64 := 1000000000#64

section

structure IdsmSerialize where
  protoVersion : uint8 := 1
  idsmId : uint16 := 0

/-- The value that `Encode` gives `protoHeader_`. -/
def protoHeader (hasSign : Bool) (event : Event) : uint8 :=
  (if event.contextData ≠ [] then contextData else 0#8) |||
    (if event.timestamp ≠ 0#64 then timestamp else 0#8) |||
    (if hasSign then signature else 0#8)

variable (ser : IdsmSerialize) (header : uint8) (event : Event)

def encodeEventFrame : List uint8 :=
  [ser.protoVersion <<< 4 ||| header] ++
    beBytes 2 (ser.idsmId <<< 6 ||| event.sensorId.setWidth 16) ++
    beBytes 2 event.eventId ++ beBytes 2 event.counter ++ [0#8]

def encodeTimeStamp : List uint8 :=
  if ¬ Announces header timestamp then []
  else if event.timeSource = .araTsync then
    beBytes 4 ((event.timestamp % nanosPerSecond).setWidth 32 &&& 0x7fffffff#32) ++
      beBytes 4 ((event.timestamp / nanosPerSecond).setWidth 32)
  else beBytes 8 (event.timestamp ||| 0x8000000000000000#64)

def encodeContextData (ctxData : List uint8) : List uint8 :=
  if ¬ Announces header contextData then []
  else if ctxData.length < 128 then [BitVec.ofNat 8 ctxData.length] ++ ctxData
  else beBytes 4 (BitVec.ofNat 32 ctxData.length ||| 0x80000000#32) ++ ctxData

variable (sign : Option (List uint8 → List uint8))

/-- `message` is what stands before the signature; the header is not signed. -/
def encodeSignature (message : List uint8) : List uint8 :=
  match sign with
  | none => []
  | some sign =>
    let signature := sign (message.drop 8)
    if signature = [] then []
    else beBytes 2 (BitVec.ofNat 16 signature.length) ++ signature

/-- `none` is the null pointer; a message of impossible size is cleared. -/
def encode (event : Event) : Option (List uint8) :=
  if event.contextData ≠ [] ∧ 0x80000000 ≤ event.contextData.length then none
  else
    let header := protoHeader sign.isSome event
    let unsigned := List.replicate 8 0#8 ++ encodeEventFrame ser header event ++
      encodeTimeStamp header event ++ encodeContextData header event.contextData
    let message := unsigned ++ encodeSignature sign unsigned
    let message := splice message 4 (beBytes 4 (BitVec.ofNat 32 message.length))
    if message.length < 16 ∨ 2147549207 < message.length then some [] else some message

end

/-- The members that `_decodeEventFrame` sets. -/
structure EventFrame where
  protoVersion : uint8 := 0
  protoHeader : uint8 := 0
  idsmId : uint16 := 0
  reserved : uint8 := 0
  deriving DecidableEq, Repr

section

variable (header : uint8) (pos : ℕ) (event : Event)

/-- The parts are functions of the position where they start and return the one
after their end. -/
def decodeEventFrame : Reads (EventFrame × ℕ × Event) := noexcept do
  let byte0 ← checked pos
  let byte1 ← checked (pos + 1)
  let byte2 ← checked (pos + 2)
  let eventId ← word 16 (pos + 3) 2
  let counter ← word 16 (pos + 5) 2
  let reserved ← word 8 (pos + 7) 1
  let frame : EventFrame :=
    { protoVersion := (byte0 &&& 0xF0#8) >>> 4
      protoHeader := byte0 &&& 0x0F#8
      idsmId := (byte1.setWidth 16 <<< 2) ||| ((byte2 &&& 0xC0#8) >>> 6).setWidth 16
      reserved := reserved }
  let sensorId := byte2 &&& 0x3F#8
  return (frame, pos + 8,
    { event with sensorId := sensorId, eventId := eventId, counter := counter })

def decodeTimestamp : Reads (ℕ × Event) :=
  if ¬ Announces header timestamp then return (pos, event)
  else do
    let first ← checked pos
    if first &&& 0x80#8 ≠ 0#8 then
      let timestamp ← word 64 pos 8
      return (pos + 8,
        { event with timeSource := .appOem, timestamp := timestamp &&& 0x7FFFFFFFFFFFFFFF#64 })
    else
      let nanoSec ← word 32 pos 4
      let sec ← word 32 (pos + 4) 4
      return (pos + 8,
        { event with
          timeSource := .araTsync
          timestamp := sec.setWidth 64 * nanosPerSecond + nanoSec.setWidth 64 })

def decodeContextData : Reads (ℕ × Event) :=
  if ¬ Announces header contextData then return (pos, event)
  else do
    let netSize ← word 8 pos 1
    if netSize < 128#8 then
      let ctxData ← unchecked (pos + 1) netSize.toNat
      return (pos + 1 + netSize.toNat, { event with contextData := ctxData })
    else
      let netSize ← word 32 pos 4
      let dataSize := netSize &&& 0x7fffffff#32
      let ctxData ← unchecked (pos + 4) dataSize.toNat
      return (pos + 4 + dataSize.toNat, { event with contextData := ctxData })

end

/-- How signatures are verified: given the signed bytes and the signature. -/
abbrev Verify := List uint8 → List uint8 → Bool

/-- The event is dropped if its signature does not verify. -/
def decodeSignature (crypto : Option Verify) (header : uint8) (pos : ℕ) (event : Event) :
    Reads (ℕ × Option Event) :=
  match crypto with
  | none => return (pos, some event)
  | some verify =>
    if ¬ Announces header signature then return (pos, some event)
    else do
      let hostSize ← word 16 pos 2
      let signData ← unchecked (pos + 2) hostSize.toNat
      let signed ← unchecked 0 pos
      return (pos + 2 + hostSize.toNat, if verify signed signData then some event else none)

/-- What `Decode` does with a complete message. -/
def decodeMessage (crypto : Option Verify) : Reads (EventFrame × Option Event) := do
  let (frame, pos, event) ← decodeEventFrame 0 {}
  let (pos, event) ← decodeTimestamp frame.protoHeader pos event
  let (pos, event) ← decodeContextData frame.protoHeader pos event
  let (_, event) ← decodeSignature crypto frame.protoHeader pos event
  return (frame, event)

theorem decodeEventFrame_eq (b₀ b₁ b₂ b₃ b₄ b₅ b₆ b₇ : uint8) (rest : List uint8) (event : Event) :
    (decodeEventFrame 0 event).result (b₀ :: b₁ :: b₂ :: b₃ :: b₄ :: b₅ :: b₆ :: b₇ :: rest) =
      .ok ({ protoVersion := (b₀ &&& 0xF0#8) >>> 4
             protoHeader := b₀ &&& 0x0F#8
             idsmId := (b₁.setWidth 16 <<< 2) ||| ((b₂ &&& 0xC0#8) >>> 6).setWidth 16
             reserved := beWord 8 [b₇] },
           8,
           { event with
             sensorId := b₂ &&& 0x3F#8
             eventId := beWord 16 [b₃, b₄]
             counter := beWord 16 [b₅, b₆] }) := by
  have heventId : Bytes.segment (b₀ :: b₁ :: b₂ :: b₃ :: b₄ :: b₅ :: b₆ :: b₇ :: rest) (0 + 3) 2 =
      some [b₃, b₄] := segment_eq (by simp)
  have hcounter : Bytes.segment (b₀ :: b₁ :: b₂ :: b₃ :: b₄ :: b₅ :: b₆ :: b₇ :: rest) (0 + 5) 2 =
      some [b₅, b₆] := segment_eq (by simp)
  have hreserved : Bytes.segment (b₀ :: b₁ :: b₂ :: b₃ :: b₄ :: b₅ :: b₆ :: b₇ :: rest) (0 + 7) 1 =
      some [b₇] := segment_eq (by simp)
  rw [decodeEventFrame, result_noexcept, result_bind_ok (result_checked rfl),
    result_bind_ok (result_checked rfl), result_bind_ok (result_checked rfl),
    result_bind_ok (result_word heventId), result_bind_ok (result_word hcounter),
    result_bind_ok (result_word hreserved), result_pure]
  rfl

section

/-- The members of `IdsmDeserialize` that decoding changes. `headBuf` holds the
first `bufSize_` bytes of the array. -/
structure IdsmDeserialize where
  frame : EventFrame := {}
  headBuf : List uint8 := []
  msgSize : uint32 := 0
  message : List uint8 := []
  deriving DecidableEq, Repr

def sizeField (header : List uint8) : uint32 := beWord 32 ((header.drop 4).take 4)

variable (st : IdsmDeserialize) (data : List uint8)

/-- The state, and the data behind the header. -/
def processProtoHead : IdsmDeserialize × List uint8 :=
  if 8 ≤ st.headBuf.length then (st, data)
  else
    let copySize := min data.length (8 - st.headBuf.length)
    let st := { st with headBuf := st.headBuf ++ data.take copySize }
    if 8 ≤ st.headBuf.length then
      ({ st with msgSize := sizeField st.headBuf - 8#32 }, data.drop copySize)
    else (st, data.drop copySize)

/-- The message as far as the data go, and the data behind it if it is complete. -/
def collectMessage : IdsmDeserialize × Option (List uint8) :=
  let missing := (st.msgSize.setWidth 64 - BitVec.ofNat 64 st.message.length).toNat
  let copySize := if missing < data.length then missing else data.length
  let st := { st with message := st.message ++ data.take copySize }
  if st.message.length < st.msgSize.toNat then (st, none) else (st, some (data.drop copySize))

/-- The first half of an iteration of `Decode`, up to a complete message. -/
def collect : IdsmDeserialize × Option (List uint8) :=
  let head := processProtoHead st data
  if head.1.headBuf.length < 8 then (head.1, none) else collectMessage head.1 head.2

/-- The frame members after `_decodeEventFrame`. -/
def frameAfter (frame : EventFrame) (body : List uint8) : EventFrame :=
  match (decodeEventFrame 0 {}).result body with
  | .ok (frame, _) => frame
  | .error _ => frame

/-- What a call of `Decode` does: the messages it begins to decode, and what it
returns or how it fails. -/
structure Call where
  decoded : List (Message uint8)
  res : Except Failure (List Event)

variable {st st' : IdsmDeserialize} {data rest : List uint8}

theorem length_of_processProtoHead (hdata : data ≠ []) (hshort : st.headBuf.length < 8) :
    (processProtoHead st data).2.length < data.length := by
  have hpos : 0 < data.length := List.length_pos_iff.mpr hdata
  simp only [processProtoHead, if_neg (Nat.not_le.mpr hshort)]
  split_ifs <;> rw [List.length_drop] <;> omega

theorem length_of_collectMessage (h : collectMessage st data = (st', some rest)) :
    rest.length ≤ data.length := by
  have hdrop : ∃ n, rest = data.drop n := by
    simp only [collectMessage] at h
    generalize (if _ < data.length then _ else data.length) = copySize at h
    split_ifs at h
    · cases (Prod.mk.inj h).2
    · exact ⟨copySize, (Option.some.inj (Prod.mk.inj h).2).symm⟩
  obtain ⟨n, rfl⟩ := hdrop
  rw [List.length_drop]
  exact Nat.sub_le _ _

theorem length_of_collect (hdata : data ≠ []) (h : collect st data = (st', some rest)) :
    rest.length < data.length ∨ rest.length ≤ data.length ∧ 8 ≤ st.headBuf.length := by
  simp only [collect] at h
  split_ifs at h
  · cases (Prod.mk.inj h).2
  have hle := length_of_collectMessage h
  by_cases hfull : 8 ≤ st.headBuf.length
  · rw [processProtoHead, if_pos hfull] at hle
    exact .inr ⟨hle, hfull⟩
  · exact .inl (Nat.lt_of_le_of_lt hle (length_of_processProtoHead hdata (Nat.not_le.mp hfull)))

/-- `Decode`. When an iteration fails, the events of the earlier ones are lost
and `message_` stays. -/
def decode (crypto : Option Verify) (st : IdsmDeserialize) (data : List uint8) :
    IdsmDeserialize × Call :=
  if _hdata : data = [] then (st, ⟨[], .ok []⟩)
  else
    match _hcollect : collect st data with
    | (st, none) => (st, ⟨[], .ok []⟩)
    | (st, some rest) =>
      let message : Message uint8 := ⟨st.headBuf, st.message⟩
      let st := { st with frame := frameAfter st.frame st.message }
      match (decodeMessage crypto).result message.body with
      | .error e => (st, ⟨[message], .error e⟩)
      | .ok (_, event) =>
        let next := decode crypto { st with message := [], headBuf := [], msgSize := 0 } rest
        (next.1, ⟨message :: next.2.decoded, next.2.res.map (event.toList ++ ·)⟩)
termination_by 2 * data.length + if 8 ≤ st.headBuf.length then 1 else 0
decreasing_by
  have := length_of_collect _hdata _hcollect
  simp only [List.length_nil]
  split_ifs <;> omega

/-- The calls of `Decode` for one chunk after the other. -/
def decodeChunks (crypto : Option Verify) :
    IdsmDeserialize → List (List uint8) → IdsmDeserialize × List Call
  | st, [] => (st, [])
  | st, chunk :: chunks =>
    let call := decode crypto st chunk
    let later := decodeChunks crypto call.1 chunks
    (later.1, call.2 :: later.2)

end

end AdaptivePlatform.Idsm
