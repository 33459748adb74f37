import Modbus.Lib.Bytes
import Modbus.Lib.Checked

/-! # The vocabulary of the protocol (`modbus/core/types.hpp`)

The enumerations `function_code_t` and `exception_code_t` have `uint8_t` below
them and are cast from received bytes, so every byte is a value of both; the
enumerators are names for some of them. `message_type` is only ever set from
its enumerators. -/
namespace Modbus
open Bytes Checked

/-- `buffer_t`. -/
abbrev Buffer := List Byte

def maxApuSize : Nat := 256
def minPduSize : Nat := 4
def maxPduSize : Nat := 253
def protocolId : Word := 0x0000
/-- Without the unit id, which the source counts to the message. -/
def tcpHeaderSize : Nat := 6

abbrev FunctionCode := Byte

namespace FunctionCode
def readCoils : FunctionCode := 1
def readDiscreteInputs : FunctionCode := 2
def readHoldingRegisters : FunctionCode := 3
def readInputRegisters : FunctionCode := 4
def writeSingleCoil : FunctionCode := 5
def writeSingleRegister : FunctionCode := 6
def writeMultipleCoils : FunctionCode := 15
def writeMultipleRegisters : FunctionCode := 16
def maskWriteRegister : FunctionCode := 22
def readWriteMultipleRegisters : FunctionCode := 23
end FunctionCode

abbrev ExceptionCode := Byte

namespace ExceptionCode
def noException : ExceptionCode := 0
/-- The function code is not an allowable action for the server. -/
def illegalFunction : ExceptionCode := 1
/-- The data address is not an allowable address for the server. -/
def illegalDataAddress : ExceptionCode := 2
def serverDeviceFailure : ExceptionCode := 4
end ExceptionCode

/-- `coil_status_t::on`. -/
def coilStatusOn : Word := 0xFF00

inductive MessageType where
  | invalidPduType
  | request
  | response
deriving DecidableEq, Repr

inductive DataModel where
  | invalidDataType
  | inputStatus
  | coil
  | inputRegister
  | holdingRegister
  | writeConfirmation
deriving DecidableEq, Repr

inductive ByteOrder where
  | normal
  | byteSwapped
deriving DecidableEq, Repr

/-- The exceptions the library's own code or its vectors throw. -/
inductive Exn where
  | outOfRange
  | invalidArgument
  | lengthError
deriving DecidableEq, Repr

/-- `vector::at`. -/
def elementAt (b : Buffer) (i : Nat) : Except Exn Byte :=
  match b[i]? with
  | some x => .ok x
  | none => .error .outOfRange

@[simp] theorem elementAt_ok {b : Buffer} {i : Nat} {x : Byte} :
    elementAt b i = .ok x ↔ b[i]? = some x := by
  unfold elementAt
  split <;> simp_all

/-- A `size_t` cast to `int`: the low 32 bits, read as a signed number. -/
def toInt32 (n : Int) : Int := n.bmod 0x100000000

end Modbus
