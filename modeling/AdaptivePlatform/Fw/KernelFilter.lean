import AdaptivePlatform.Foundations.Bytes
import AdaptivePlatform.Foundations.Loops

/-!
# The filters of the firewall's kernel module

`kfirewall_app.c` looks into the payloads of TCP and UDP packets and decides message
by message whether a packet is dropped. The payload lies in the memory of the packet:
an address is counted from its first byte, and what is read or written outside of it
is the memory around it. The host stores the least significant byte of a word first,
as the bit fields of the service discovery entries demand, and the signed integers of
the kernel wrap around.
-/
namespace AdaptivePlatform.Fw

open Bytes

abbrev s32 := BitVec 32

abbrev Memory := ℤ → uint8

variable (mem : Memory) (a : ℤ)

def be16 : uint16 := beWord 16 [mem a, mem (a + 1)]

def be32 : uint32 := beWord 32 [mem a, mem (a + 1), mem (a + 2), mem (a + 3)]

/-- `*p = be32_to_cpu(*p)` -/
def swap32 : Memory := fun x =>
  if a ≤ x ∧ x < a + 4 then mem (2 * a + 3 - x) else mem x

/-- The parameters of the module, which exist once for each direction. -/
inductive Parameter
  | clientId | lengthFlag | majorVersion | msgType | methodId | proVersion | retCode | serviceId
  | sdEntType | sdGroupId | sdServiceInstId | sdServiceId
  | protocolVersion | inverProtocolVersion | payType | payLoadLen | udsService
  deriving DecidableEq, Repr

structure Rules where
  action : s32
  defaultAction : s32
  input : Parameter → s32
  output : Parameter → s32

namespace Rules

variable (r : Rules) (inOutFlag : Bool)

/-- The parameters that are looked at, by `inOutFlag`. -/
def direction : Parameter → s32 := if inOutFlag then r.input else r.output

/-- The field by field comparison: a parameter that is not -1 has to be the value of its field. -/
def agrees (fields : List (Parameter × s32)) : Bool :=
  fields.all fun f => r.direction inOutFlag f.1 = -1 || r.direction inOutFlag f.1 = f.2

/-- The last step of the filters, from the result of the comparison to that of the filter. -/
def act (ruleCheck : ℤ) : ℤ :=
  if ruleCheck = 1 then
    if r.action = 0 then -1 else ruleCheck
  else if ruleCheck = -1 then
    if r.defaultAction = 0 then ruleCheck
    else if r.defaultAction = 1 then 1
    else ruleCheck
  else ruleCheck

end Rules

section

variable (fuel : ℕ) (r : Rules) (mem : Memory) (len : s32) (inOutFlag : Bool)

/-- The fields of `Doip_Header_t` that have a parameter. -/
def doipFields (doiph : ℤ) : List (Parameter × s32) :=
  [(.payType, (be16 mem (doiph + 2)).setWidth 32),
    (.payLoadLen, be32 mem (doiph + 4)),
    (.protocolVersion, (mem doiph).setWidth 32),
    (.inverProtocolVersion, (mem (doiph + 1)).setWidth 32)]

/-- The payload is taken to be 8 headers behind `data`, not 8 bytes. -/
def doIpDiagFilter (data : ℤ) (len : s32) (inOutFlag : Bool) : ℤ :=
  if (len.signExtend 64).toNat < 5 + 8 then 1
  else
    let paylodHdr := data + 8 * 8
    if r.agrees inOutFlag [(.udsService, (mem (paylodHdr + 4)).setWidth 32)] then 1 else -1

def doipSingleFilter (doiph : ℤ) (totalLen : s32) (inOutFlag : Bool) :
    ℤ :=
  let ruleCheck := if r.agrees inOutFlag (doipFields mem doiph) then 1 else -1
  let ruleCheck := if be16 mem (doiph + 2) = 0x8001#16 then
      doIpDiagFilter r mem doiph totalLen inOutFlag
    else ruleCheck
  r.act ruleCheck

/-- One pass of the loop of `Doip_Filter`, over `offset` and `ruleCheck`. The test
`(u8 *)header < data` is left out: the offset is never negative, so it is never true. -/
def doipBody (s : s32 × ℤ) : Bool ⊕ s32 × ℤ :=
  let (offset, ruleCheck) := s
  if (offset + 8).slt len then
    let header := offset.toInt
    let payLen := be32 mem (header + 4)
    if len < payLen + 8 then .inl (ruleCheck ≠ -1)
    else
      let ruleCheck := doipSingleFilter r mem header (payLen + 8) inOutFlag
      let packetLen := 8 + payLen
      if ruleCheck = -1 then .inl false
      else if len < packetLen + offset then .inl (ruleCheck ≠ -1)
      else .inr (offset + packetLen, ruleCheck)
  else .inl (ruleCheck ≠ -1)

/-- The result, if the loop ends within `fuel` passes. -/
def doipFilter : Option Bool :=
  if len.slt 8 ∨ BitVec.slt 65535 len then some true
  else Loops.run (doipBody r mem len inOutFlag) fuel (0, 1)

def validateDoipHeader (dataLen : uint32) : Bool :=
  let type := (be16 mem 2).toNat
  8 ≤ dataLen.toNat &&
    (mem 0 = 0x02#8 && mem 1 = 0xFD#8 || mem 0 = 0x03#8 && mem 1 = 0xFC#8) &&
    (type ≤ 0x0008 || 0x4001 ≤ type && type ≤ 0x4004 || 0x8001 ≤ type && type ≤ 0x8003) &&
    (be32 mem 4).toNat < 65535

end

section

variable (r : Rules) (mem : Memory) (data : ℤ) (dataLen : s32) (inOutFlag : Bool)

/-- The fields of a service discovery entry that have a parameter. A group id has a meaning for
two types of entries only. -/
def entryFields (entry : ℤ) : List (Parameter × s32) :=
  let type := mem entry
  let u1 := be32 mem (entry + 4)
  let u3 := be32 mem (entry + 12)
  (.sdEntType, type.setWidth 32) ::
    ((if type = 0x06#8 ∨ type = 0x07#8 then [(.sdGroupId, (u3.setWidth 16).setWidth 32)] else []) ++
      [(.sdServiceInstId, (u1.setWidth 16).setWidth 32), (.sdServiceId, u1 >>> 16)])

/-- The result, and the memory with the words of the entry in the host's order. -/
def someipSdEntitysFilter : ℤ × Memory :=
  let ruleCheck := if r.agrees inOutFlag (entryFields mem data) then 1 else -1
  (r.act ruleCheck, swap32 (swap32 (swap32 mem (data + 4)) (data + 8)) (data + 12))

/-- The loop over the entries. A dropped entry ends it with 1, as the last entry does. -/
def someipSdEntitys (r : Rules) (inOutFlag : Bool) : ℕ → Memory → ℤ → ℤ × Memory
  | 0, mem, _ => (1, mem)
  | n + 1, mem, ents =>
    let (ret, mem) := someipSdEntitysFilter r mem ents inOutFlag
    if ret = -1 then (1, mem) else someipSdEntitys r inOutFlag n mem (ents + 16)

def someipSdFilter : ℤ × Memory :=
  let mem := swap32 mem (data + 16)
  if (dataLen.signExtend 64).toNat < 16 + 4 then (1, mem)
  else
    let entLen : s32 := be32 mem (data + 20)
    let entitys : s32 := (entLen.signExtend 64 / 16).setWidth 32
    if entLen.signExtend 64 ≠ entitys.signExtend 64 * 16 ∨ entLen = 0 then (1, mem)
    else someipSdEntitys r inOutFlag (entLen.toInt.toNat / 16) mem (data + 24)

/-- The fields of `Someip_Header_t` that have a parameter. -/
def someipFields (hdr : ℤ) : List (Parameter × s32) :=
  [(.serviceId, (be16 mem hdr).setWidth 32),
    (.clientId, (be16 mem (hdr + 8)).setWidth 32),
    (.majorVersion, (mem (hdr + 13)).setWidth 32),
    (.msgType, (mem (hdr + 14)).setWidth 32),
    (.methodId, (be16 mem (hdr + 2)).setWidth 32),
    (.proVersion, (mem (hdr + 12)).setWidth 32),
    (.retCode, (mem (hdr + 15)).setWidth 32)]

def isSd (hdr : ℤ) : Bool :=
  be16 mem hdr = 0xffff#16 && be16 mem (hdr + 2) = 0x8100#16 && mem (hdr + 12) = 0x01#8 &&
    mem (hdr + 13) = 0x01#8 && mem (hdr + 14) = 0x02#8 && mem (hdr + 15) = 0x00#8

/-- `hdr` is the message, `data` the payload it is in. -/
def someIpSinglePacketFilter (hdr data : ℤ) (dataLen : s32) (inOutFlag : Bool) : ℤ × Memory :=
  if be32 mem (hdr + 4) + 8 ≠ dataLen then (1, mem)
  else
    let ruleCheck := if r.agrees inOutFlag (someipFields mem hdr) then 1 else -1
    let ruleCheck := if r.direction inOutFlag .lengthFlag = 1 ∧ dataLen ≠ be32 mem (hdr + 4) + 8
      then -1 else ruleCheck
    let (ruleCheck, mem) := if isSd mem hdr then someipSdFilter r mem data dataLen inOutFlag
      else (ruleCheck, mem)
    (r.act ruleCheck, mem)

/-- One pass of the loop of `Someip_Filter`, over the memory and `offset`. -/
def someipBody (s : Memory × s32) : Bool ⊕ Memory × s32 :=
  let (mem, offset) := s
  if (offset + 16).sle dataLen then
    let header := offset.toInt
    let payLen : s32 := be32 mem (header + 4)
    let packetLen := 16 + payLen
    let (ruleCheck, mem) := someIpSinglePacketFilter r mem header 0 packetLen inOutFlag
    if ruleCheck = -1 then .inl false
    else if dataLen.slt (packetLen + offset) then .inl true
    else .inr (mem, offset + packetLen)
  else .inl true

/-- The result, if the loop ends within `fuel` passes. -/
def someipFilter (fuel : ℕ) (r : Rules) (mem : Memory) (dataLen : s32) (inOutFlag : Bool) :
    Option Bool :=
  if BitVec.slt 65535 dataLen ∨ dataLen.slt 16 then some true
  else Loops.run (someipBody r dataLen inOutFlag) fuel (mem, 0)

def messageTypes : List uint8 := [0x00, 0x01, 0x02, 0x80, 0x81, 0x20, 0x21, 0x22, 0x23, 0x24]

def returnCodes : List uint8 := [0x00, 0x01, 0x02, 0x03, 0x04, 0x05, 0x07, 0x08, 0x09, 0x0a]

def validateSomeipHeader (hdr : ℤ) : Bool :=
  mem (hdr + 12) = 0x01#8 && messageTypes.contains (mem (hdr + 14)) &&
    returnCodes.contains (mem (hdr + 15))

def isSomeipPacket (dataLen : uint32) : Bool := 16 ≤ dataLen.toNat && validateSomeipHeader mem 0

end

/-- The memory with a payload in it. -/
def place (mem : Memory) (payload : List uint8) : Memory := fun a =>
  if a < 0 then mem a else payload.getD a.toNat (mem a)

def load (payload : List uint8) : Memory := place (fun _ => 0) payload

end AdaptivePlatform.Fw
