import AdaptivePlatform.Foundations.Bytes

/-!
# The options of a service discovery message

`nsi_discovery_handle_message` reads the options of a message before it handles
the entries. It counts down the bytes of the options array by the length that
each option announces, while the bytes are taken off the message as far as the
type of the option needs them.
-/
namespace AdaptivePlatform.Nsomeip

open Bytes

/-! ### Reading a message -/

/-- `nsi_message_io_t`: the position in the payload of the message, and the bytes behind it -/
structure MessageIo where
  pos : ℕ
  left : List uint8

namespace MessageIo

def readStart (payload : List uint8) (offset : ℕ) : Option MessageIo :=
  if offset ≤ payload.length then some ⟨offset, payload.drop offset⟩ else none

def readLeast (io : MessageIo) (len : ℕ) : Option (List uint8 × MessageIo) :=
  if len ≤ io.left.length then some (io.left.take len, ⟨io.pos + len, io.left.drop len⟩) else none

def getU4Be (io : MessageIo) : Option (uint32 × MessageIo) :=
  (io.readLeast 4).map fun read => (beWord 32 read.1, read.2)

variable {bs rest : List uint8}

theorem readStart_append {offset : ℕ} (h : bs.length = offset) :
    readStart (bs ++ rest) offset = some ⟨offset, rest⟩ := by
  rw [readStart, if_pos (by rw [List.length_append]; omega), List.drop_left' h]

theorem readLeast_append {len : ℕ} (h : bs.length = len) (pos : ℕ) :
    readLeast ⟨pos, bs ++ rest⟩ len = some (bs, ⟨pos + len, rest⟩) := by
  rw [readLeast, if_pos (by rw [List.length_append]; omega), List.take_left' h, List.drop_left' h]

theorem getU4Be_append (h : bs.length = 4) (pos : ℕ) :
    getU4Be ⟨pos, bs ++ rest⟩ = some (beWord 32 bs, ⟨pos + 4, rest⟩) := by
  rw [getU4Be, readLeast_append h]
  rfl

theorem getU4Be_beBytes (x : uint32) (pos : ℕ) (rest : List uint8) :
    getU4Be ⟨pos, beBytes 4 x ++ rest⟩ = some (x, ⟨pos + 4, rest⟩) := by
  have hword : beWord 32 (beBytes 4 x) = x := beWord_beBytes (by decide : 8 * 4 = 32) x
  rw [getU4Be_append (length_beBytes 4 x), hword]

end MessageIo

/-! ### Options -/

def optConf : uint8 := 0x01
def optLoad : uint8 := 0x02
def optIn4u : uint8 := 0x04
def optIn4m : uint8 := 0x14
def optIn4d : uint8 := 0x24
def optIn6u : uint8 := 0x06
def optIn6m : uint8 := 0x16
def optIn6d : uint8 := 0x26
def optSelect : uint8 := 0x20

def protoTcp : uint8 := 0x06
def protoUdp : uint8 := 0x11

/-- The branches of `switch (ost.type)` -/
inductive OptKind
  | load
  | in4
  | in6
  | raw

def optKind (type : uint8) : Option OptKind :=
  if type = optLoad then some .load
  else if type = optIn4u ∨ type = optIn4m ∨ type = optIn4d then some .in4
  else if type = optIn6u ∨ type = optIn6m ∨ type = optIn6d then some .in6
  else if type = optConf ∨ type = optSelect then some .raw
  else none

/-- What `opt->data` points to; addresses and ports are in network byte order. -/
inductive SdData
  | load (u : uint32)
  | in4 (addr port : List uint8)
  | in6 (addr port : List uint8) (scopeId : uint32)
  | raw (data : List uint8)

/-- `nsi_sd_option_t`. The members `proto` and `data` of an erroneous option are not set; `proto` is
set for TCP. -/
structure SdOption where
  type : uint8
  discardable : Bool
  proto : Option Bool := none
  data : Option SdData := none
  error : Bool := false

variable (addrSize : ℕ) (address : List uint8 → List uint8 → SdData) (opt : SdOption)

/-- The members that an address option sets; `trl` is a reserved byte, the protocol and the port. -/
def addressOption (addr trl : List uint8) : SdOption :=
  let opt := { opt with data := some (address addr (trl.drop 2)) }
  if trl[1]? = some protoTcp then { opt with proto := some true }
  else if trl[1]? = some protoUdp then { opt with proto := some false }
  else { opt with error := true }

variable (scopeId : uint32) (len : ℕ) (opt : SdOption) (io : MessageIo)

/-- An address of the given size, and what follows it -/
def readAddress : Option (SdOption × MessageIo) :=
  (io.readLeast addrSize).bind fun addr =>
    (addr.2.readLeast 4).map fun trl => (addressOption address opt addr.1 trl.1, trl.2)

/-- `switch (ost.type)` with `ost.len`. The scope of IPv6 addresses is that of the own host. -/
def readBody : Option (SdOption × MessageIo) :=
  match optKind opt.type with
  | some .load =>
    if len ≠ 5 then some ({ opt with error := true }, io)
    else io.getU4Be.map fun ld =>
      ({ opt with proto := some false, data := some (.load ld.1) }, ld.2)
  | some .in4 =>
    if len ≠ 9 then some ({ opt with error := true }, io) else readAddress 4 .in4 opt io
  | some .in6 =>
    if len ≠ 21 then some ({ opt with error := true }, io)
    else readAddress 16 (fun addr port => .in6 addr port scopeId) opt io
  | some .raw =>
    -- `opt->len` is a `uint16_t`
    (io.readLeast (BitVec.ofNat 16 len - 1).toNat).map fun data =>
      ({ opt with proto := some false, data := some (.raw data.1) }, data.2)
  | none => some ({ opt with error := true }, io)

/-- The header of an option: `ost.len`, and the members that are set before the switch -/
def optHeader (u : uint32) : ℕ × SdOption :=
  ((u >>> 16).toNat, { type := (u >>> 8).setWidth 8, discardable := u.getLsbD 0 })

/-- `nsi_discovery_read_option`: the option, and the number of bytes that it is to occupy -/
def readOption : Option (SdOption × MessageIo × ℕ) :=
  io.getU4Be.bind fun ost =>
    (readBody scopeId (optHeader ost.1).1 (optHeader ost.1).2 ost.2).map fun read =>
      (read.1, read.2, (optHeader ost.1).1 + 3)

/-- The loop over the options with `optlen` bytes left and space for `room` more options. Each
option comes with the position at which it was read. -/
def readOptions (scopeId : uint32) : ℕ → ℤ → MessageIo → List (ℕ × SdOption)
  | 0, _, _ => []
  | room + 1, optlen, io =>
    if 4 < optlen then
      match readOption scopeId io with
      | none => []
      | some (opt, io', r) => (io.pos, opt) :: readOptions scopeId room (optlen - r) io'
    else []

/-- `nsi_discovery_handle_message` up to the entries: the options that it has read, unless it
gives the message up -/
def sdOptions (payload : List uint8) : Option (List (ℕ × SdOption)) :=
  if payload.length < 12 then none
  else
    (MessageIo.readStart payload 0).bind fun io =>
    io.getU4Be.bind fun hdr =>
    hdr.2.getU4Be.bind fun entlen =>
    if entlen.1.toInt < 0 then none
    else if payload.length < 8 + entlen.1.toNat + 4 ∨
        entlen.1.toNat ≠ entlen.1.toNat / 16 * 16 then
      -- the entries are not valid, and no option is read
      some []
    else
      (MessageIo.readStart payload (8 + entlen.1.toNat)).bind fun io =>
      io.getU4Be.bind fun optlen =>
      if optlen.1.toInt < 0 then none
      else
        let left := min optlen.1.toNat (payload.length - (8 + entlen.1.toNat) - 4)
        some (readOptions scopeId (left / 8) left optlen.2)

end AdaptivePlatform.Nsomeip
