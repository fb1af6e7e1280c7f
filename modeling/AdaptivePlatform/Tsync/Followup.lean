import AdaptivePlatform.Foundations.Bytes
import AdaptivePlatform.Foundations.CrcRegister

/-!
# Follow-up messages of the time synchronisation

A follow-up message is read where it lies: byte `i` of the message is `mesg i`, and a
pointer to a sub-TLV is the offset of its first byte. Behind the header (34 bytes),
the precise origin timestamp (10 bytes) and the TLV of IEEE 802.1AS (32 bytes) comes
the AUTOSAR TLV: type and length (4 bytes), organisation (6 bytes) and the sub-TLVs,
each with a type, a length and that many bytes.
-/
namespace AdaptivePlatform.Tsync

open Bytes CrcRegister

abbrev Message := ℕ → uint8

def Message.bytes (mesg : Message) (p n : ℕ) : List uint8 :=
  (List.range n).map fun i => mesg (p + i)

def crc8Update (crcCode : uint8) (data : List uint8) : uint8 := data.foldl (feed 0x07) crcCode

def crc8H2FUpdate (data : List uint8) : uint8 := data.foldl (feed 0x2F) 0xFF ^^^ 0xFF

def crc8 : List uint8 → uint8 := crc8H2FUpdate

/-- `CrcCheck` of a sub-TLV of `size` bytes, the last of which is the checksum. -/
def crcCheck (mesg : Message) (p size : ℕ) (dataId : uint8) : Bool :=
  crc8Update (crc8 (mesg.bytes p (size - 1))) [dataId] = mesg (p + size - 1)

/-- The part of a message that a flag of `crcTimeFlags` adds to a checksum. -/
def flagged (mesg : Message) (crcTimeFlags mask : uint8) (p n : ℕ) : List uint8 :=
  if crcTimeFlags &&& mask = mask then mesg.bytes p n else []

/-- `SubTlvTimeSecured::CrcCheck`: the domain, the source port and the timestamp go into the first
checksum, the length, the correction and the sequence id into the second one. -/
def timeCrcCheck (mesg : Message) (p : ℕ) (dataId : uint8) : Bool :=
  let flags := mesg (p + 2)
  let crc0 := crc8Update (crc8 [flags]) (flagged mesg flags 0x02 4 1 ++
    flagged mesg flags 0x08 20 10 ++ flagged mesg flags 0x20 34 10 ++ [dataId])
  let crc1 := crc8Update (crc8 [flags]) (flagged mesg flags 0x01 2 2 ++
    flagged mesg flags 0x04 8 8 ++ flagged mesg flags 0x10 30 2 ++ [dataId])
  crc0 = mesg (p + 3) && crc1 = mesg (p + 4)

inductive Kind
  | time | status | userData | ofs
  deriving DecidableEq

/-- What `SubTlvType` knows about a type: the kind of the sub-TLV and whether it is secured. -/
def kindOf (type : uint8) : Option (Kind × Bool) :=
  if type = 0x28 then some (.time, true)
  else if type = 0x34 then some (.ofs, false)
  else if type = 0x44 then some (.ofs, true)
  else if type = 0x50 then some (.status, true)
  else if type = 0x51 then some (.status, false)
  else if type = 0x60 then some (.userData, true)
  else if type = 0x61 then some (.userData, false)
  else none

def subTlvBuffer : ℕ := 86

variable (mesg : Message) (dataId : uint8) (kind : Kind)

/-- The 16 bits of the length are read into a byte. -/
def getLength : uint8 := (beWord 16 [mesg 78, mesg 79]).setWidth 8

def isOrganizationAutosar : Bool := mesg.bytes 80 6 = [0x1A, 0x75, 0xFB, 0x60, 0x56, 0x76]

/-- The loop of `UnAssemble`. The tail is less than 256 bytes ahead of the head, so it takes less
than 256 passes. -/
def unAssemble (mesg : Message) (tail : ℕ) : ℕ → ℕ → List ℕ
  | 0, _ => []
  | fuel + 1, head =>
    if head < tail then head :: unAssemble mesg tail fuel (head + (mesg (head + 1)).toNat + 2)
    else []

def unAssembleTlv : List ℕ :=
  if isOrganizationAutosar mesg && decide (6 < (getLength mesg).toNat) then
    unAssemble mesg (subTlvBuffer + (getLength mesg).toNat - 6) 256 subTlvBuffer
  else []

/-- `GetSubTlvTimeSecured`, `GetSubTlvStatus`, `GetSubTlvUserData` and `GetSubTlvOFS`. -/
def getSubTlv : Option ℕ :=
  (unAssembleTlv mesg).find? fun p => (kindOf (mesg p)).any fun k => k.1 = kind

def isSecured (p : ℕ) : Bool := (kindOf (mesg p)).any Prod.snd

/-- The checksum of a sub-TLV, by its kind. -/
def crcCheckOf (p : ℕ) : Kind → Bool
  | .time => timeCrcCheck mesg p dataId
  | .status => crcCheck mesg p 4 dataId
  | .userData => crcCheck mesg p 7 dataId
  | .ofs => crcCheck mesg p 19 dataId

/-- `GetOffsetTS().GetNanoSecond()`: the word is read as a signed one. -/
def getNanoSecond (p : ℕ) : BitVec 32 := beWord 32 (mesg.bytes (p + 9) 4)

inductive GlobalTimeCrcValidation
  | crcValidated | crcNotValidated | crcIgnord | crcOptional
  deriving DecidableEq

/-- In this mode the sub-TLVs of one kind are done if there is none, and a secured one ends the
checks. -/
def notValidatedCheck : Bool := (getSubTlv mesg kind).all fun p => !isSecured mesg p

/-- The checks of the optional mode from a kind on; a sub-TLV that is not secured ends them. -/
def optionalCheck (mesg : Message) (dataId : uint8) : List Kind → Bool
  | [] => true
  | kind :: kinds =>
    match getSubTlv mesg kind with
    | none => optionalCheck mesg dataId kinds
    | some p =>
      if !isSecured mesg p then true
      else if !crcCheckOf mesg dataId p kind then false
      else optionalCheck mesg dataId kinds

/-- A sub-TLV that is not secured fails. -/
def validatedCheck : Bool :=
  (getSubTlv mesg kind).all fun p => isSecured mesg p && crcCheckOf mesg dataId p kind

def kinds : List Kind := [.time, .status, .userData, .ofs]

def validate (messageCompliance : Bool) (rxCrcValidated : GlobalTimeCrcValidation)
    (dataId : uint8) (mesg : Message) : Bool :=
  if messageCompliance then true
  else
    let checked := match rxCrcValidated with
      | .crcIgnord => true
      | .crcNotValidated => kinds.all (notValidatedCheck mesg)
      | .crcOptional => optionalCheck mesg dataId kinds
      | .crcValidated => kinds.all (validatedCheck mesg dataId)
    checked && (getSubTlv mesg .ofs).all fun p => !BitVec.slt 999999999 (getNanoSecond mesg p)

end AdaptivePlatform.Tsync
