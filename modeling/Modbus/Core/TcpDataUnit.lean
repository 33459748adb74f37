import Modbus.Core.MessageKind

/-! # The TCP data unit (`modbus/core/tcp_data_unit.{hpp,cpp}`)

The header is six bytes: transaction id, protocol id, and the length of the
message that follows, unit id included. A unit is built from a message, from one
received buffer, or from a header and a payload; the two receiving constructors
throw when the length field promises more than was read. `pdu` catches every
exception the accessors throw, but not what its decoder does past the end of
the buffer, which is a `Fault`. -/
namespace Modbus
open Bytes Checked Walk

structure TcpDataUnit where
  buffer : Buffer
  type : MessageType
deriving DecidableEq, Repr

namespace TcpDataUnit

/-- `tcp_data_unit()`. -/
def empty : TcpDataUnit := ⟨[], .invalidPduType⟩

def header (transactionId : Word) (length : Nat) : Buffer :=
  [(transactionId >>> 8).setWidth 8, transactionId.setWidth 8,
    (protocolId >>> 8).setWidth 8, protocolId.setWidth 8,
    BitVec.ofNat 8 (length >>> 8), BitVec.ofNat 8 length]

/-- `tcp_data_unit(uint16_t, M)`. -/
def ofMessage (transactionId : Word) (pdu : Message) : Except Fault TcpDataUnit := do
  let length := pdu.size
  let buffer := List.replicate (tcpHeaderSize + length) 0
  let buffer ← store buffer 0 (header transactionId length)
  let buffer ← store buffer tcpHeaderSize pdu.serialize
  return { buffer, type := pdu.type }

/-- `tcp_data_unit(buffer_t, size_t, message_type)`. The number of data bytes is
kept in an `int`. -/
def ofBuffer (buffer : Buffer) (bytesRead : Nat) (type : MessageType) :
    Except Exn TcpDataUnit := do
  let hi ← elementAt buffer 4
  let lo ← elementAt buffer 5
  let messageLength := hi.toNat <<< 8 + lo.toNat
  let dataLength := toInt32 (bytesRead - tcpHeaderSize)
  if dataLength ≤ 0 ∨ dataLength < messageLength then
    .error .outOfRange
  else
    return { buffer, type }

/-- `tcp_data_unit(buffer_t, buffer_t, size_t, message_type)`. -/
def ofHeaderPayload (header payload : Buffer) (bytesRead : Nat) (type : MessageType) :
    Except Exn TcpDataUnit := do
  if (← elementAt header 2) ≠ 0 then
    .error .invalidArgument
  else if (← elementAt header 3) ≠ 0 then
    .error .invalidArgument
  else
    let hi ← elementAt header 4
    let lo ← elementAt header 5
    let messageLength := hi.toNat <<< 8 + lo.toNat
    if bytesRead ≤ 0 ∨ bytesRead < messageLength then
      .error .outOfRange
    else
      return { buffer := header ++ payload, type }

/-- `at(i) = x`. -/
def putAt (buffer : Buffer) (i : Nat) (x : Byte) : Except Exn Buffer :=
  if i < buffer.length then .ok (buffer.set i x) else .error .outOfRange

/-- `set_transaction_id`, on the buffer of the unit. What was written before an exception
stays. -/
def setTransactionId (buffer : Buffer) (transactionId : Word) : Except Exn Unit × Buffer :=
  match putAt buffer 0 (hiByte transactionId) with
  | .error e => (.error e, buffer)
  | .ok buffer =>
    match putAt buffer 1 (loByte transactionId) with
    | .error e => (.error e, buffer)
    | .ok buffer => (.ok (), buffer)

def transactionId (du : TcpDataUnit) : Except Exn Word := do
  let hi ← elementAt du.buffer 0
  let lo ← elementAt du.buffer 1
  return word hi lo

def messageLength (du : TcpDataUnit) : Except Exn Word := do
  let hi ← elementAt du.buffer 4
  let lo ← elementAt du.buffer 5
  return word hi lo

def unitId (du : TcpDataUnit) : Except Exn Byte := elementAt du.buffer 6

def functionCode (du : TcpDataUnit) : Except Exn FunctionCode := do
  let code ← elementAt du.buffer 7
  return code &&& 0x7F#8

def isException (du : TcpDataUnit) : Except Exn Bool := do
  let code ← elementAt du.buffer 7
  return code &&& 0x80#8 ≠ 0#8

def exceptionCode (du : TcpDataUnit) : Except Exn ExceptionCode := do
  if !(← du.isException) then
    return .noException
  else
    elementAt du.buffer 8

/-- The checks of `pdu` before it decodes. An exception leaves them as `.error`. -/
def selects (du : TcpDataUnit) (T : MessageKind) : Except Exn Bool := do
  match T.functionCode with
  | some code =>
    if ← du.isException then
      return false
    else if (← du.functionCode) ≠ code then
      return false
    else if du.type ≠ T.type then
      return false
    else
      return !du.buffer.isEmpty
  | none =>
    if !(← du.isException) then
      return false
    else if du.type ≠ T.type then
      return false
    else
      return !du.buffer.isEmpty

/-- `pdu<T>()`. -/
def pdu (du : TcpDataUnit) (T : MessageKind) : Except Fault (Option Message) :=
  match du.selects T with
  | .error _ => .ok none -- catch (...)
  | .ok false => .ok none
  | .ok true => do
    let (m, _) ← T.decode du.buffer tcpHeaderSize
    return some m

end TcpDataUnit

end Modbus
