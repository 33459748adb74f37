import Modbus.Core.Types

/-! # The client's view of response data (`modbus/core/modbus_response.{hpp,cpp}`)

The accessors return zero on an invalid object and throw when a byte they need
lies beyond the data. Indices are 32-bit unsigned; the byte offsets made from
them are computed in `size_t` and do not wrap. -/
namespace Modbus
open Bytes Checked

structure ModbusResponse where
  type : DataModel
  /-- The shared pointer, which may be null. -/
  data : Option Buffer
  startAddress : Word
  numValues : Word
deriving DecidableEq, Repr

namespace ModbusResponse

def isValid (r : ModbusResponse) : Bool :=
  !(r.type == .invalidDataType || r.data == none || r.data == some [] || r.numValues == 0#16)

/-- `data_->at(i)`, on an object found valid. -/
def byteAt (r : ModbusResponse) (i : Nat) : Except Exn Byte := elementAt (r.data.getD []) i

def getBool (r : ModbusResponse) (index : Nat) : Except Exn Bool := do
  if !r.isValid then
    return false
  else
    let mask : Byte := 1#8 <<< (index % 8)
    let x ← r.byteAt (index / 8)
    return x &&& mask ≠ 0#8

def getUINT8 (r : ModbusResponse) (index : Nat) : Except Exn Byte :=
  if !r.isValid then .ok 0 else r.byteAt index

def getINT8 (r : ModbusResponse) (index : Nat) : Except Exn Int := do
  if !r.isValid then
    return 0
  else
    let x ← r.byteAt index
    return x.toInt

def getUINT16 (r : ModbusResponse) (index : Nat) (order : ByteOrder) : Except Exn Word := do
  if !r.isValid then
    return 0
  else
    match order with
    | .normal =>
      let hi ← r.byteAt (2 * index)
      let lo ← r.byteAt (2 * index + 1)
      return word hi lo
    | .byteSwapped =>
      let hi ← r.byteAt (2 * index + 1)
      let lo ← r.byteAt (2 * index)
      return word hi lo

/-- `getINT16` repeats the body of `getUINT16` and casts. -/
def getINT16 (r : ModbusResponse) (index : Nat) (order : ByteOrder) : Except Exn Int := do
  return (← r.getUINT16 index order).toInt

/-- `d = b0 << 24; d += b1 << 16; d += b2 << 8; d += b3`. -/
def dword (b0 b1 b2 b3 : Byte) : BitVec 32 :=
  (b0.setWidth 32 <<< 24) + (b1.setWidth 32 <<< 16) + (b2.setWidth 32 <<< 8) + b3.setWidth 32

def getUINT32 (r : ModbusResponse) (index : Nat) (order : ByteOrder) :
    Except Exn (BitVec 32) := do
  if !r.isValid then
    return 0
  else
    match order with
    | .normal =>
      let b0 ← r.byteAt (4 * index)
      let b1 ← r.byteAt (4 * index + 1)
      let b2 ← r.byteAt (4 * index + 2)
      let b3 ← r.byteAt (4 * index + 3)
      return dword b0 b1 b2 b3
    | .byteSwapped =>
      let b0 ← r.byteAt (4 * index + 3)
      let b1 ← r.byteAt (4 * index + 2)
      let b2 ← r.byteAt (4 * index + 1)
      let b3 ← r.byteAt (4 * index)
      return dword b0 b1 b2 b3

/-- `getINT32` repeats the body of `getUINT32` and casts. -/
def getINT32 (r : ModbusResponse) (index : Nat) (order : ByteOrder) : Except Exn Int := do
  return (← r.getUINT32 index order).toInt

/-- `data_type`. -/
def dataType (code : FunctionCode) : DataModel :=
  if code = .readCoils then .coil
  else if code = .readDiscreteInputs then .inputStatus
  else if code = .readInputRegisters then .inputRegister
  else if code = .readHoldingRegisters then .holdingRegister
  else if code = .writeSingleCoil ∨ code = .writeMultipleCoils ∨ code = .writeSingleRegister ∨
      code = .writeMultipleRegisters then .writeConfirmation
  else .invalidDataType

/-! ## What the accessors read -/

theorem getBool_of_bitAt {r : ModbusResponse} {data : Buffer} {j : Nat} (hv : r.isValid = true)
    (hd : r.data = some data) (hj : j / 8 < data.length) :
    r.getBool j = .ok (bitAt data j) := by
  obtain ⟨x, hx⟩ : ∃ x, data[j / 8]? = some x := exists_get hj
  have hmask : ∀ p < 8, ∀ x : Byte, decide (x &&& (1#8 <<< p) ≠ 0#8) = x.getLsbD p := by
    decide +kernel
  have hbit := hmask (j % 8) (Nat.mod_lt _ (by omega)) x
  simp only [getBool, hv, byteAt, hd, Option.getD_some, elementAt, hx, ok_bind, pure_eq_ok]
  simp [bitAt, hx, ← hbit]

theorem getUINT16_normal {r : ModbusResponse} {data : Buffer} {i : Nat} {hi lo : Byte}
    (hv : r.isValid = true) (hd : r.data = some data) (hhi : data[2 * i]? = some hi)
    (hlo : data[2 * i + 1]? = some lo) : r.getUINT16 i .normal = .ok (word hi lo) := by
  simp [getUINT16, hv, byteAt, hd, elementAt, hhi, hlo]

end ModbusResponse

end Modbus
