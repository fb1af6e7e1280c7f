import AdaptivePlatform.Foundations.Bytes
import AdaptivePlatform.Foundations.CrcRegister

/-!
# The CRC routines of the E2E library

`Crc.c` as configured by `Crc_Cfg.h`: all six algorithms in their runtime
(bit by bit) mode. The data block is the list of its bytes.
-/
namespace AdaptivePlatform.E2E

open CrcRegister

/-- `Crc_GetReflection_char`, and its variants for `uint32` and `uint64`. -/
def crcGetReflectionChar (input : uint8) : uint8 := reflectUpTo input 0x08
def crcGetReflectionInt (input : uint32) : uint32 := reflectUpTo input 0x20
def crcGetReflectionLonglong (input : uint64) : uint64 := reflectUpTo input 0x40

section

variable {w : ℕ}

def crcBit (msb poly crc : BitVec w) : BitVec w :=
  if 0 < crc &&& msb then (crc <<< 1) ^^^ poly else crc <<< 1

def crcByte (msb poly : BitVec w) (shift : ℕ) (crc : BitVec w) (byte : uint8) : BitVec w :=
  (crcBit msb poly)^[8] (crc ^^^ (byte.setWidth w <<< shift))

/-- `Crc_CalculateCRC8` and `Crc_CalculateCRC8H2F` up to their polynomial. -/
def runtimeCrc8 (poly initValue xorValue : uint8) (data : List uint8) (startValue : uint8)
    (isFirstCall : Bool) : uint8 :=
  let crc := if isFirstCall then initValue else startValue ^^^ xorValue
  data.foldl (crcByte 0x80 poly 0) crc ^^^ xorValue

/-- The routines that reflect their input and output, up to their constants. -/
def runtimeCrcReflected (reflect : BitVec w → BitVec w) (msb poly initValue xorValue : BitVec w)
    (shift : ℕ) (data : List uint8) (startValue : BitVec w) (isFirstCall : Bool) : BitVec w :=
  let crc := if isFirstCall then initValue else reflect (startValue ^^^ xorValue)
  let crc := data.foldl
    (fun crc byte => crcByte msb poly shift crc (crcGetReflectionChar byte)) crc
  reflect crc ^^^ xorValue

end

def crcCalculateCRC8 : List uint8 → uint8 → Bool → uint8 := runtimeCrc8 0x1D 0xFF 0xFF

def crcCalculateCRC8H2F : List uint8 → uint8 → Bool → uint8 := runtimeCrc8 0x2F 0xFF 0xFF

/-- `Crc_CalculateCRC16`. A continued call takes the start value as it is. -/
def crcCalculateCRC16 (data : List uint8) (startValue16 : uint16) (isFirstCall : Bool) : uint16 :=
  let crc := if isFirstCall then 0xFFFF else startValue16
  data.foldl (crcByte 0x8000 0x1021 8) crc ^^^ 0x0

def crcCalculateCRC32 : List uint8 → uint32 → Bool → uint32 :=
  runtimeCrcReflected crcGetReflectionInt 0x80000000 0x04C11DB7 0xFFFFFFFF 0xFFFFFFFF 0x18

def crcCalculateCRC32P4 : List uint8 → uint32 → Bool → uint32 :=
  runtimeCrcReflected crcGetReflectionInt 0x80000000 0xF4ACFB13 0xFFFFFFFF 0xFFFFFFFF 0x18

def crcCalculateCRC64 : List uint8 → uint64 → Bool → uint64 :=
  runtimeCrcReflected crcGetReflectionLonglong 0x8000000000000000 0x42F0E1EBA9EA3693
    0xFFFFFFFFFFFFFFFF 0xFFFFFFFFFFFFFFFF 0x38

end AdaptivePlatform.E2E
