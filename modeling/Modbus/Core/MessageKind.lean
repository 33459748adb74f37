import Modbus.Core.Messages

/-! # The twenty-one message types

`MessageKind` names the types and `Message` is a value of one of them. What the
source writes as static members of each type (its function code, its message
type) or overloads for each (`size`, `serialize`, the decoding constructor) is
one table here, a line per type. -/
namespace Modbus
open Bytes Walk

inductive MessageKind where
  | readCoilsRequest
  | readDiscreteInputsRequest
  | readHoldingRegistersRequest
  | readInputRegistersRequest
  | writeSingleCoilRequest
  | writeSingleRegisterRequest
  | writeMultipleCoilsRequest
  | writeMultipleRegistersRequest
  | readWriteRegistersRequest
  | maskWriteRegisterRequest
  | exceptionResponse
  | readCoilsResponse
  | readDiscreteInputsResponse
  | readHoldingRegistersResponse
  | readInputRegistersResponse
  | writeSingleCoilResponse
  | writeSingleRegisterResponse
  | writeMultipleCoilsResponse
  | writeMultipleRegistersResponse
  | readWriteRegistersResponse
  | maskWriteRegisterResponse
deriving DecidableEq, Repr

/-- `T::function_code()`. An exception response has none of its own: it carries
the code of the request it answers. -/
def MessageKind.functionCode : MessageKind → Option FunctionCode
  | .readCoilsRequest => some .readCoils
  | .readDiscreteInputsRequest => some .readDiscreteInputs
  | .readHoldingRegistersRequest => some .readHoldingRegisters
  | .readInputRegistersRequest => some .readInputRegisters
  | .writeSingleCoilRequest => some .writeSingleCoil
  | .writeSingleRegisterRequest => some .writeSingleRegister
  | .writeMultipleCoilsRequest => some .writeMultipleCoils
  | .writeMultipleRegistersRequest => some .writeMultipleRegisters
  | .readWriteRegistersRequest => some .readWriteMultipleRegisters
  | .maskWriteRegisterRequest => some .maskWriteRegister
  | .exceptionResponse => none
  | .readCoilsResponse => some .readCoils
  | .readDiscreteInputsResponse => some .readDiscreteInputs
  | .readHoldingRegistersResponse => some .readHoldingRegisters
  | .readInputRegistersResponse => some .readInputRegisters
  | .writeSingleCoilResponse => some .writeSingleCoil
  | .writeSingleRegisterResponse => some .writeSingleRegister
  | .writeMultipleCoilsResponse => some .writeMultipleCoils
  | .writeMultipleRegistersResponse => some .writeMultipleRegisters
  | .readWriteRegistersResponse => some .readWriteMultipleRegisters
  | .maskWriteRegisterResponse => some .maskWriteRegister

/-- `T::type()`. -/
def MessageKind.type : MessageKind → MessageType
  | .readCoilsRequest => .request
  | .readDiscreteInputsRequest => .request
  | .readHoldingRegistersRequest => .request
  | .readInputRegistersRequest => .request
  | .writeSingleCoilRequest => .request
  | .writeSingleRegisterRequest => .request
  | .writeMultipleCoilsRequest => .request
  | .writeMultipleRegistersRequest => .request
  | .readWriteRegistersRequest => .request
  | .maskWriteRegisterRequest => .request
  | .exceptionResponse => .response
  | .readCoilsResponse => .response
  | .readDiscreteInputsResponse => .response
  | .readHoldingRegistersResponse => .response
  | .readInputRegistersResponse => .response
  | .writeSingleCoilResponse => .response
  | .writeSingleRegisterResponse => .response
  | .writeMultipleCoilsResponse => .response
  | .writeMultipleRegistersResponse => .response
  | .readWriteRegistersResponse => .response
  | .maskWriteRegisterResponse => .response

inductive Message where
  | readCoilsRequest (m : AddressRange)
  | readDiscreteInputsRequest (m : AddressRange)
  | readHoldingRegistersRequest (m : AddressRange)
  | readInputRegistersRequest (m : AddressRange)
  | writeSingleCoilRequest (m : CoilValue)
  | writeSingleRegisterRequest (m : RegisterValue)
  | writeMultipleCoilsRequest (m : WriteMultipleCoilsRequest)
  | writeMultipleRegistersRequest (m : WriteMultipleRegistersRequest)
  | readWriteRegistersRequest (m : ReadWriteRegistersRequest)
  | maskWriteRegisterRequest (m : RegisterMask)
  | exceptionResponse (m : ExceptionResponse)
  | readCoilsResponse (m : ByteValues)
  | readDiscreteInputsResponse (m : ByteValues)
  | readHoldingRegistersResponse (m : ByteValues)
  | readInputRegistersResponse (m : ByteValues)
  | writeSingleCoilResponse (m : CoilValue)
  | writeSingleRegisterResponse (m : RegisterValue)
  | writeMultipleCoilsResponse (m : AddressRange)
  | writeMultipleRegistersResponse (m : AddressRange)
  | readWriteRegistersResponse (m : ReadWriteRegistersResponse)
  | maskWriteRegisterResponse (m : RegisterMask)
deriving DecidableEq, Repr

namespace Message

def kind : Message → MessageKind
  | .readCoilsRequest _ => .readCoilsRequest
  | .readDiscreteInputsRequest _ => .readDiscreteInputsRequest
  | .readHoldingRegistersRequest _ => .readHoldingRegistersRequest
  | .readInputRegistersRequest _ => .readInputRegistersRequest
  | .writeSingleCoilRequest _ => .writeSingleCoilRequest
  | .writeSingleRegisterRequest _ => .writeSingleRegisterRequest
  | .writeMultipleCoilsRequest _ => .writeMultipleCoilsRequest
  | .writeMultipleRegistersRequest _ => .writeMultipleRegistersRequest
  | .readWriteRegistersRequest _ => .readWriteRegistersRequest
  | .maskWriteRegisterRequest _ => .maskWriteRegisterRequest
  | .exceptionResponse _ => .exceptionResponse
  | .readCoilsResponse _ => .readCoilsResponse
  | .readDiscreteInputsResponse _ => .readDiscreteInputsResponse
  | .readHoldingRegistersResponse _ => .readHoldingRegistersResponse
  | .readInputRegistersResponse _ => .readInputRegistersResponse
  | .writeSingleCoilResponse _ => .writeSingleCoilResponse
  | .writeSingleRegisterResponse _ => .writeSingleRegisterResponse
  | .writeMultipleCoilsResponse _ => .writeMultipleCoilsResponse
  | .writeMultipleRegistersResponse _ => .writeMultipleRegistersResponse
  | .readWriteRegistersResponse _ => .readWriteRegistersResponse
  | .maskWriteRegisterResponse _ => .maskWriteRegisterResponse

def type (m : Message) : MessageType := m.kind.type

def size : Message → Nat
  | .readCoilsRequest m => m.size
  | .readDiscreteInputsRequest m => m.size
  | .readHoldingRegistersRequest m => m.size
  | .readInputRegistersRequest m => m.size
  | .writeSingleCoilRequest m => m.size
  | .writeSingleRegisterRequest m => m.size
  | .writeMultipleCoilsRequest m => m.size
  | .writeMultipleRegistersRequest m => m.size
  | .readWriteRegistersRequest m => m.size
  | .maskWriteRegisterRequest m => m.size
  | .exceptionResponse m => m.size
  | .readCoilsResponse m => m.size
  | .readDiscreteInputsResponse m => m.size
  | .readHoldingRegistersResponse m => m.size
  | .readInputRegistersResponse m => m.size
  | .writeSingleCoilResponse m => m.size
  | .writeSingleRegisterResponse m => m.size
  | .writeMultipleCoilsResponse m => m.size
  | .writeMultipleRegistersResponse m => m.size
  | .readWriteRegistersResponse m => m.size
  | .maskWriteRegisterResponse m => m.size

def serialize : Message → Buffer
  | .readCoilsRequest m => m.serialize .readCoils
  | .readDiscreteInputsRequest m => m.serialize .readDiscreteInputs
  | .readHoldingRegistersRequest m => m.serialize .readHoldingRegisters
  | .readInputRegistersRequest m => m.serialize .readInputRegisters
  | .writeSingleCoilRequest m => m.serialize .writeSingleCoil
  | .writeSingleRegisterRequest m => m.serialize .writeSingleRegister
  | .writeMultipleCoilsRequest m => m.serialize .writeMultipleCoils
  | .writeMultipleRegistersRequest m => m.serialize .writeMultipleRegisters
  | .readWriteRegistersRequest m => m.serialize .readWriteMultipleRegisters
  | .maskWriteRegisterRequest m => m.serialize .maskWriteRegister
  | .exceptionResponse m => m.serialize
  | .readCoilsResponse m => m.serialize .readCoils
  | .readDiscreteInputsResponse m => m.serialize .readDiscreteInputs
  | .readHoldingRegistersResponse m => m.serialize .readHoldingRegisters
  | .readInputRegistersResponse m => m.serialize .readInputRegisters
  | .writeSingleCoilResponse m => m.serialize .writeSingleCoil
  | .writeSingleRegisterResponse m => m.serialize .writeSingleRegister
  | .writeMultipleCoilsResponse m => m.serialize .writeMultipleCoils
  | .writeMultipleRegistersResponse m => m.serialize .writeMultipleRegisters
  | .readWriteRegistersResponse m => m.serialize .readWriteMultipleRegisters
  | .maskWriteRegisterResponse m => m.serialize .maskWriteRegister

end Message

/-- `T pdu(it)`. -/
def MessageKind.decode : MessageKind → Decoder Message
  | .readCoilsRequest => return .readCoilsRequest (← AddressRange.decode)
  | .readDiscreteInputsRequest => return .readDiscreteInputsRequest (← AddressRange.decode)
  | .readHoldingRegistersRequest => return .readHoldingRegistersRequest (← AddressRange.decode)
  | .readInputRegistersRequest => return .readInputRegistersRequest (← AddressRange.decode)
  | .writeSingleCoilRequest => return .writeSingleCoilRequest (← CoilValue.decode)
  | .writeSingleRegisterRequest => return .writeSingleRegisterRequest (← RegisterValue.decode)
  | .writeMultipleCoilsRequest =>
    return .writeMultipleCoilsRequest (← WriteMultipleCoilsRequest.decode)
  | .writeMultipleRegistersRequest =>
    return .writeMultipleRegistersRequest (← WriteMultipleRegistersRequest.decode)
  | .readWriteRegistersRequest =>
    return .readWriteRegistersRequest (← ReadWriteRegistersRequest.decode)
  | .maskWriteRegisterRequest => return .maskWriteRegisterRequest (← RegisterMask.decode)
  | .exceptionResponse => return .exceptionResponse (← ExceptionResponse.decode)
  | .readCoilsResponse => return .readCoilsResponse (← ByteValues.decode)
  | .readDiscreteInputsResponse => return .readDiscreteInputsResponse (← ByteValues.decode)
  | .readHoldingRegistersResponse => return .readHoldingRegistersResponse (← ByteValues.decode)
  | .readInputRegistersResponse => return .readInputRegistersResponse (← ByteValues.decode)
  | .writeSingleCoilResponse => return .writeSingleCoilResponse (← CoilValue.decode)
  | .writeSingleRegisterResponse => return .writeSingleRegisterResponse (← RegisterValue.decode)
  | .writeMultipleCoilsResponse => return .writeMultipleCoilsResponse (← AddressRange.decode)
  | .writeMultipleRegistersResponse =>
    return .writeMultipleRegistersResponse (← AddressRange.decode)
  | .readWriteRegistersResponse =>
    return .readWriteRegistersResponse (← ReadWriteRegistersResponse.decode)
  | .maskWriteRegisterResponse => return .maskWriteRegisterResponse (← RegisterMask.decode)

/-- The values the public value constructors build. All but three of them copy
their arguments into the fields. -/
inductive Constructed : Message → Prop
  | readCoilsRequest (unitId : Byte) (startAddress length : Word) :
      Constructed (.readCoilsRequest ⟨unitId, startAddress, length⟩)
  | readDiscreteInputsRequest (unitId : Byte) (startAddress length : Word) :
      Constructed (.readDiscreteInputsRequest ⟨unitId, startAddress, length⟩)
  | readHoldingRegistersRequest (unitId : Byte) (startAddress length : Word) :
      Constructed (.readHoldingRegistersRequest ⟨unitId, startAddress, length⟩)
  | readInputRegistersRequest (unitId : Byte) (startAddress length : Word) :
      Constructed (.readInputRegistersRequest ⟨unitId, startAddress, length⟩)
  | writeSingleCoilRequest (unitId : Byte) (startAddress : Word) (value : Bool) :
      Constructed (.writeSingleCoilRequest ⟨unitId, startAddress, value⟩)
  | writeSingleRegisterRequest (unitId : Byte) (startAddress value : Word) :
      Constructed (.writeSingleRegisterRequest ⟨unitId, startAddress, value⟩)
  | writeMultipleCoilsRequest (unitId : Byte) (startAddress length : Word) (values : List Byte) :
      Constructed (.writeMultipleCoilsRequest ⟨unitId, startAddress, length, values⟩)
  | writeMultipleCoilsRequestBools (unitId : Byte) (startAddress : Word) (values : List Bool)
      (m : WriteMultipleCoilsRequest)
      (built : WriteMultipleCoilsRequest.ofBools unitId startAddress values = .ok m) :
      Constructed (.writeMultipleCoilsRequest m)
  | writeMultipleRegistersRequest (unitId : Byte) (startAddress length : Word)
      (values : List Word) :
      Constructed (.writeMultipleRegistersRequest ⟨unitId, startAddress, length, values⟩)
  | readWriteRegistersRequest (unitId : Byte)
      (readStartAddress readNumRegisters writeStartAddress : Word) (values : List Word) :
      Constructed (.readWriteRegistersRequest
        (.ofValues unitId readStartAddress readNumRegisters writeStartAddress values))
  | maskWriteRegisterRequest (unitId : Byte) (startAddress andMask orMask : Word) :
      Constructed (.maskWriteRegisterRequest ⟨unitId, startAddress, andMask, orMask⟩)
  | exceptionResponse (unitId : Byte) (funcCode : FunctionCode) (exceptionCode : ExceptionCode) :
      Constructed (.exceptionResponse ⟨unitId, funcCode, exceptionCode⟩)
  | readCoilsResponse (unitId : Byte) (values : List Byte) :
      Constructed (.readCoilsResponse ⟨unitId, values⟩)
  | readDiscreteInputsResponse (unitId : Byte) (inputs : List Byte) :
      Constructed (.readDiscreteInputsResponse ⟨unitId, inputs⟩)
  | readHoldingRegistersResponse (unitId : Byte) (values : List Byte) :
      Constructed (.readHoldingRegistersResponse ⟨unitId, values⟩)
  | readHoldingRegistersResponseWords (unitId : Byte) (values : List Word) (m : ByteValues)
      (built : ByteValues.ofWords unitId values = .ok m) :
      Constructed (.readHoldingRegistersResponse m)
  | readInputRegistersResponse (unitId : Byte) (values : List Byte) :
      Constructed (.readInputRegistersResponse ⟨unitId, values⟩)
  | readInputRegistersResponseWords (unitId : Byte) (values : List Word) (m : ByteValues)
      (built : ByteValues.ofWords unitId values = .ok m) :
      Constructed (.readInputRegistersResponse m)
  | writeSingleCoilResponse (unitId : Byte) (startAddress : Word) (value : Bool) :
      Constructed (.writeSingleCoilResponse ⟨unitId, startAddress, value⟩)
  | writeSingleRegisterResponse (unitId : Byte) (startAddress value : Word) :
      Constructed (.writeSingleRegisterResponse ⟨unitId, startAddress, value⟩)
  | writeMultipleCoilsResponse (unitId : Byte) (startAddress length : Word) :
      Constructed (.writeMultipleCoilsResponse ⟨unitId, startAddress, length⟩)
  | writeMultipleRegistersResponse (unitId : Byte) (startAddress length : Word) :
      Constructed (.writeMultipleRegistersResponse ⟨unitId, startAddress, length⟩)
  | readWriteRegistersResponse (unitId : Byte) (values : List Word) :
      Constructed (.readWriteRegistersResponse ⟨unitId, values⟩)
  | maskWriteRegisterResponse (unitId : Byte) (startAddress andMask orMask : Word) :
      Constructed (.maskWriteRegisterResponse ⟨unitId, startAddress, andMask, orMask⟩)

end Modbus
