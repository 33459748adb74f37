import Modbus.Lib.Walk
import Modbus.Core.Types

/-! # The messages (`modbus/core/messages`)

Twenty-one message types over nine field layouts. A layout is a structure with
its own `size`, `serialize` and decoding constructor; the message types that
share a layout differ in their function code and message type only, which
`MessageKind` tabulates. `serialize` is the sequence of bytes it stores through
the iterator it is given; the decoders walk an iterator that has no end. -/
namespace Modbus
open Bytes Checked Walk

/-! ## Layouts -/

/-- The read requests and the responses to multiple writes. -/
structure AddressRange where
  unitId : Byte
  startAddress : Word
  length : Word
deriving DecidableEq, Repr

namespace AddressRange

def size (_ : AddressRange) : Nat := 1 + 1 + 2 + 2

def serialize (code : FunctionCode) (m : AddressRange) : Buffer :=
  [m.unitId, code, hiByte m.startAddress, loByte m.startAddress, hiByte m.length, loByte m.length]

def decode : Decoder AddressRange := do
  let unitId ← next
  skip -- function code
  let startAddress ← nextWord
  let length ← nextWord
  return { unitId, startAddress, length }

end AddressRange

/-- `write_single_coil_request` and its response. -/
structure CoilValue where
  unitId : Byte
  startAddress : Word
  value : Bool
deriving DecidableEq, Repr

namespace CoilValue

def size (_ : CoilValue) : Nat := 1 + 1 + 2 + 2

def serialize (code : FunctionCode) (m : CoilValue) : Buffer :=
  [m.unitId, code, hiByte m.startAddress, loByte m.startAddress,
    if m.value then 0xFF else 0x00, 0x00]

def decode : Decoder CoilValue := do
  let unitId ← next
  skip -- function code
  let startAddress ← nextWord
  let value ← nextWord
  return { unitId, startAddress, value := value == coilStatusOn }

end CoilValue

/-- `write_single_register_request` and its response. -/
structure RegisterValue where
  unitId : Byte
  startAddress : Word
  value : Word
deriving DecidableEq, Repr

namespace RegisterValue

def size (_ : RegisterValue) : Nat := 1 + 1 + 2 + 2

def serialize (code : FunctionCode) (m : RegisterValue) : Buffer :=
  [m.unitId, code, hiByte m.startAddress, loByte m.startAddress, hiByte m.value, loByte m.value]

def decode : Decoder RegisterValue := do
  let unitId ← next
  skip -- function code
  let startAddress ← nextWord
  let value ← nextWord
  return { unitId, startAddress, value }

end RegisterValue

/-- `mask_write_register_request` and its response. -/
structure RegisterMask where
  unitId : Byte
  startAddress : Word
  andMask : Word
  orMask : Word
deriving DecidableEq, Repr

namespace RegisterMask

def size (_ : RegisterMask) : Nat := 1 + 1 + 2 + 2 + 2

def serialize (code : FunctionCode) (m : RegisterMask) : Buffer :=
  [m.unitId, code, hiByte m.startAddress, loByte m.startAddress,
    hiByte m.andMask, loByte m.andMask, hiByte m.orMask, loByte m.orMask]

def decode : Decoder RegisterMask := do
  let unitId ← next
  skip -- function code
  let startAddress ← nextWord
  let andMask ← nextWord
  let orMask ← nextWord
  return { unitId, startAddress, andMask, orMask }

end RegisterMask

structure WriteMultipleCoilsRequest where
  unitId : Byte
  startAddress : Word
  length : Word
  values : List Byte
deriving DecidableEq, Repr

namespace WriteMultipleCoilsRequest

def size (m : WriteMultipleCoilsRequest) : Nat := 1 + 1 + 2 + 2 + 1 + 1 * m.values.length

def serialize (code : FunctionCode) (m : WriteMultipleCoilsRequest) : Buffer :=
  [m.unitId, code, hiByte m.startAddress, loByte m.startAddress, hiByte m.length, loByte m.length,
    BitVec.ofNat 8 m.values.length] ++ m.values

def decode : Decoder WriteMultipleCoilsRequest := do
  let unitId ← next
  skip -- function code
  let startAddress ← nextWord
  let length ← nextWord
  let numBytes ← next
  let values ← times next numBytes.toNat
  return { unitId, startAddress, length, values }

/-- The packing loop of the `vector<bool>` constructor. -/
def packBools : List Bool → Nat → List Byte → Except Fault (List Byte)
  | [], _, values => .ok values
  | value :: rest, boolNumber, values => do
    let values ← if value then
        modify values (boolNumber / 8) (· ||| (1#8 <<< (boolNumber % 8)))
      else .ok values
    let boolNumber ← int (boolNumber + 1)
    packBools rest boolNumber values

/-- The `vector<bool>` constructor. The length is truncated to 16 bits before
the byte count is taken from it. -/
def ofBools (unitId : Byte) (startAddress : Word) (bools : List Bool) :
    Except Fault WriteMultipleCoilsRequest := do
  let length : Word := BitVec.ofNat 16 bools.length
  let numBytes := length.toNat / 8 + if length.toNat % 8 ≠ 0 then 1 else 0
  let values ← packBools bools 0 (List.replicate numBytes 0)
  return { unitId, startAddress, length, values }

end WriteMultipleCoilsRequest

structure WriteMultipleRegistersRequest where
  unitId : Byte
  startAddress : Word
  length : Word
  values : List Word
deriving DecidableEq, Repr

namespace WriteMultipleRegistersRequest

def size (m : WriteMultipleRegistersRequest) : Nat := 1 + 1 + 2 + 2 + 1 + 2 * m.values.length

def serialize (code : FunctionCode) (m : WriteMultipleRegistersRequest) : Buffer :=
  [m.unitId, code, hiByte m.startAddress, loByte m.startAddress, hiByte m.length, loByte m.length,
    BitVec.ofNat 8 (m.values.length * 2)] ++ bytesOf m.values

def decode : Decoder WriteMultipleRegistersRequest := do
  let unitId ← next
  skip -- function code
  let startAddress ← nextWord
  let length ← nextWord
  let numBytes ← next
  let values ← times nextWord (numBytes.toNat / 2)
  return { unitId, startAddress, length, values }

end WriteMultipleRegistersRequest

structure ReadWriteRegistersRequest where
  unitId : Byte
  readStartAddress : Word
  readNumRegisters : Word
  writeStartAddress : Word
  writeNumRegisters : Word
  values : List Word
deriving DecidableEq, Repr

namespace ReadWriteRegistersRequest

def size (m : ReadWriteRegistersRequest) : Nat :=
  1 + 1 + 2 + 2 + 2 + 2 + 1 + 2 * m.values.length

def serialize (code : FunctionCode) (m : ReadWriteRegistersRequest) : Buffer :=
  [m.unitId, code, hiByte m.readStartAddress, loByte m.readStartAddress,
    hiByte m.readNumRegisters, loByte m.readNumRegisters,
    hiByte m.writeStartAddress, loByte m.writeStartAddress,
    hiByte m.writeNumRegisters, loByte m.writeNumRegisters,
    BitVec.ofNat 8 (m.values.length * 2)] ++ bytesOf m.values

/-- The register count on the wire is read and then replaced by the number of
values that came. -/
def decode : Decoder ReadWriteRegistersRequest := do
  let unitId ← next
  skip -- function code
  let readStartAddress ← nextWord
  let readNumRegisters ← nextWord
  let writeStartAddress ← nextWord
  let _writeNumRegisters ← nextWord
  let numBytes ← next
  let values ← times nextWord (numBytes.toNat / 2)
  return { unitId, readStartAddress, readNumRegisters, writeStartAddress,
           writeNumRegisters := BitVec.ofNat 16 values.length, values }

/-- The value constructor, which takes the register count from the values. -/
def ofValues (unitId : Byte) (readStartAddress readNumRegisters writeStartAddress : Word)
    (values : List Word) : ReadWriteRegistersRequest :=
  { unitId, readStartAddress, readNumRegisters, writeStartAddress,
    writeNumRegisters := BitVec.ofNat 16 values.length, values }

end ReadWriteRegistersRequest

structure ExceptionResponse where
  unitId : Byte
  funcCode : FunctionCode
  exceptionCode : ExceptionCode
deriving DecidableEq, Repr

namespace ExceptionResponse

def size (_ : ExceptionResponse) : Nat := 1 + 1 + 1

def serialize (m : ExceptionResponse) : Buffer :=
  [m.unitId, m.funcCode ||| 0x80#8, m.exceptionCode]

def decode : Decoder ExceptionResponse := do
  let unitId ← next
  let funcCode ← next
  let exceptionCode ← next
  return { unitId, funcCode := funcCode &&& 0x7F#8, exceptionCode }

end ExceptionResponse

/-- The read responses that keep their data as bytes. -/
structure ByteValues where
  unitId : Byte
  values : List Byte
deriving DecidableEq, Repr

namespace ByteValues

def size (m : ByteValues) : Nat := 1 + 1 + 1 + 1 * m.values.length

def serialize (code : FunctionCode) (m : ByteValues) : Buffer :=
  [m.unitId, code, BitVec.ofNat 8 m.values.length] ++ m.values

def decode : Decoder ByteValues := do
  let unitId ← next
  skip -- function code
  let numBytes ← next
  let values ← times next numBytes.toNat
  return { unitId, values }

/-- The `vector<uint16_t>` constructor of the register responses. The byte count
is kept in an `int`: a negative one makes `reserve` throw, and the loop splits
one register for every two bytes counted. -/
def ofWords (unitId : Byte) (words : List Word) : Except Exn ByteValues :=
  let rvElements := toInt32 (words.length * 2 : Nat)
  if rvElements < 0 then .error .lengthError
  else .ok { unitId, values := bytesOf (words.take (rvElements.toNat / 2)) }

end ByteValues

structure ReadWriteRegistersResponse where
  unitId : Byte
  values : List Word
deriving DecidableEq, Repr

namespace ReadWriteRegistersResponse

def size (m : ReadWriteRegistersResponse) : Nat := 1 + 1 + 1 + 2 * m.values.length

def serialize (code : FunctionCode) (m : ReadWriteRegistersResponse) : Buffer :=
  [m.unitId, code, BitVec.ofNat 8 (m.values.length * 2)] ++ bytesOf m.values

def decode : Decoder ReadWriteRegistersResponse := do
  let unitId ← next
  skip -- function code
  let numBytes ← next
  let values ← times nextWord (numBytes.toNat / 2)
  return { unitId, values }

end ReadWriteRegistersResponse

end Modbus
