import Modbus.Core.Frame

/-! # Serializing through an iterator

`size()` is a sum in a header file, `serialize(it)` a sequence of stores through an
iterator that knows no end, and `tcp_data_unit(t, m)` trusts the one to make room for the
other. Here `serialize` is that sequence of stores, statement by statement, as an
`Encoder`; it fills exactly the bytes that `Message.serialize` lists, which are as many as
`size` says. -/
namespace Modbus
open Bytes Checked Walk

/-! ## The stores of each layout -/

def AddressRange.serializeAt (code : FunctionCode) (m : AddressRange) : Encoder Unit := do
  put m.unitId
  put code
  putWord m.startAddress
  putWord m.length

def CoilValue.serializeAt (code : FunctionCode) (m : CoilValue) : Encoder Unit := do
  put m.unitId
  put code
  putWord m.startAddress
  put (if m.value then 0xFF else 0x00)
  put 0x00

def RegisterValue.serializeAt (code : FunctionCode) (m : RegisterValue) : Encoder Unit := do
  put m.unitId
  put code
  putWord m.startAddress
  putWord m.value

def RegisterMask.serializeAt (code : FunctionCode) (m : RegisterMask) : Encoder Unit := do
  put m.unitId
  put code
  putWord m.startAddress
  putWord m.andMask
  putWord m.orMask

def WriteMultipleCoilsRequest.serializeAt (code : FunctionCode) (m : WriteMultipleCoilsRequest) :
    Encoder Unit := do
  put m.unitId
  put code
  putWord m.startAddress
  putWord m.length
  put (BitVec.ofNat 8 m.values.length)
  m.values.forM put

def WriteMultipleRegistersRequest.serializeAt (code : FunctionCode)
    (m : WriteMultipleRegistersRequest) : Encoder Unit := do
  put m.unitId
  put code
  putWord m.startAddress
  putWord m.length
  put (BitVec.ofNat 8 (m.values.length * 2))
  m.values.forM putWord

def ReadWriteRegistersRequest.serializeAt (code : FunctionCode) (m : ReadWriteRegistersRequest) :
    Encoder Unit := do
  put m.unitId
  put code
  putWord m.readStartAddress
  putWord m.readNumRegisters
  putWord m.writeStartAddress
  putWord m.writeNumRegisters
  put (BitVec.ofNat 8 (m.values.length * 2))
  m.values.forM putWord

def ExceptionResponse.serializeAt (m : ExceptionResponse) : Encoder Unit := do
  put m.unitId
  put (m.funcCode ||| 0x80#8)
  put m.exceptionCode

def ByteValues.serializeAt (code : FunctionCode) (m : ByteValues) : Encoder Unit := do
  put m.unitId
  put code
  put (BitVec.ofNat 8 m.values.length)
  m.values.forM put

def ReadWriteRegistersResponse.serializeAt (code : FunctionCode) (m : ReadWriteRegistersResponse) :
    Encoder Unit := do
  put m.unitId
  put code
  put (BitVec.ofNat 8 (m.values.length * 2))
  m.values.forM putWord

/-- `m.serialize(it)`. -/
def Message.serializeAt : Message → Encoder Unit
  | .readCoilsRequest m => m.serializeAt .readCoils
  | .readDiscreteInputsRequest m => m.serializeAt .readDiscreteInputs
  | .readHoldingRegistersRequest m => m.serializeAt .readHoldingRegisters
  | .readInputRegistersRequest m => m.serializeAt .readInputRegisters
  | .writeSingleCoilRequest m => m.serializeAt .writeSingleCoil
  | .writeSingleRegisterRequest m => m.serializeAt .writeSingleRegister
  | .writeMultipleCoilsRequest m => m.serializeAt .writeMultipleCoils
  | .writeMultipleRegistersRequest m => m.serializeAt .writeMultipleRegisters
  | .readWriteRegistersRequest m => m.serializeAt .readWriteMultipleRegisters
  | .maskWriteRegisterRequest m => m.serializeAt .maskWriteRegister
  | .exceptionResponse m => m.serializeAt
  | .readCoilsResponse m => m.serializeAt .readCoils
  | .readDiscreteInputsResponse m => m.serializeAt .readDiscreteInputs
  | .readHoldingRegistersResponse m => m.serializeAt .readHoldingRegisters
  | .readInputRegistersResponse m => m.serializeAt .readInputRegisters
  | .writeSingleCoilResponse m => m.serializeAt .writeSingleCoil
  | .writeSingleRegisterResponse m => m.serializeAt .writeSingleRegister
  | .writeMultipleCoilsResponse m => m.serializeAt .writeMultipleCoils
  | .writeMultipleRegistersResponse m => m.serializeAt .writeMultipleRegisters
  | .readWriteRegistersResponse m => m.serializeAt .readWriteMultipleRegisters
  | .maskWriteRegisterResponse m => m.serializeAt .maskWriteRegister

/-! ## The bytes they fill -/

theorem AddressRange.fills (code : FunctionCode) (m : AddressRange) :
    Fills (m.serializeAt code) (m.serialize code) :=
  (Fills.put _).bind ((Fills.put _).bind ((Fills.putWord _).bind (Fills.putWord _)))

theorem CoilValue.fills (code : FunctionCode) (m : CoilValue) :
    Fills (m.serializeAt code) (m.serialize code) :=
  (Fills.put _).bind ((Fills.put _).bind ((Fills.putWord _).bind
    ((Fills.put _).bind (Fills.put _))))

theorem RegisterValue.fills (code : FunctionCode) (m : RegisterValue) :
    Fills (m.serializeAt code) (m.serialize code) :=
  (Fills.put _).bind ((Fills.put _).bind ((Fills.putWord _).bind (Fills.putWord _)))

theorem RegisterMask.fills (code : FunctionCode) (m : RegisterMask) :
    Fills (m.serializeAt code) (m.serialize code) :=
  (Fills.put _).bind ((Fills.put _).bind ((Fills.putWord _).bind
    ((Fills.putWord _).bind (Fills.putWord _))))

theorem ExceptionResponse.fills (m : ExceptionResponse) : Fills m.serializeAt m.serialize :=
  (Fills.put _).bind ((Fills.put _).bind (Fills.put _))

/-- The loop over a byte vector. -/
theorem fills_bytes (values : List Byte) : Fills (values.forM put) values := by
  have h := Fills.forM Fills.put values
  rwa [List.flatMap_singleton'] at h

/-- The loop over a register vector. -/
theorem fills_words (values : List Word) : Fills (values.forM putWord) (bytesOf values) :=
  Fills.forM Fills.putWord values

theorem WriteMultipleCoilsRequest.fills (code : FunctionCode) (m : WriteMultipleCoilsRequest) :
    Fills (m.serializeAt code) (m.serialize code) :=
  (Fills.put _).bind ((Fills.put _).bind ((Fills.putWord _).bind ((Fills.putWord _).bind
    ((Fills.put _).bind (fills_bytes m.values)))))

theorem WriteMultipleRegistersRequest.fills (code : FunctionCode)
    (m : WriteMultipleRegistersRequest) : Fills (m.serializeAt code) (m.serialize code) :=
  (Fills.put _).bind ((Fills.put _).bind ((Fills.putWord _).bind ((Fills.putWord _).bind
    ((Fills.put _).bind (fills_words m.values)))))

theorem ReadWriteRegistersRequest.fills (code : FunctionCode) (m : ReadWriteRegistersRequest) :
    Fills (m.serializeAt code) (m.serialize code) :=
  (Fills.put _).bind ((Fills.put _).bind ((Fills.putWord _).bind ((Fills.putWord _).bind
    ((Fills.putWord _).bind ((Fills.putWord _).bind ((Fills.put _).bind
      (fills_words m.values)))))))

theorem ByteValues.fills (code : FunctionCode) (m : ByteValues) :
    Fills (m.serializeAt code) (m.serialize code) :=
  (Fills.put _).bind ((Fills.put _).bind ((Fills.put _).bind (fills_bytes m.values)))

theorem ReadWriteRegistersResponse.fills (code : FunctionCode) (m : ReadWriteRegistersResponse) :
    Fills (m.serializeAt code) (m.serialize code) :=
  (Fills.put _).bind ((Fills.put _).bind ((Fills.put _).bind (fills_words m.values)))

theorem Message.fills (m : Message) : Fills m.serializeAt m.serialize := by
  cases m with
  | readCoilsRequest m | readDiscreteInputsRequest m | readHoldingRegistersRequest m
  | readInputRegistersRequest m | writeMultipleCoilsResponse m
  | writeMultipleRegistersResponse m => exact m.fills _
  | writeSingleCoilRequest m | writeSingleCoilResponse m => exact m.fills _
  | writeSingleRegisterRequest m | writeSingleRegisterResponse m => exact m.fills _
  | maskWriteRegisterRequest m | maskWriteRegisterResponse m => exact m.fills _
  | writeMultipleCoilsRequest m => exact m.fills _
  | writeMultipleRegistersRequest m => exact m.fills _
  | readWriteRegistersRequest m => exact m.fills _
  | exceptionResponse m => exact m.fills
  | readCoilsResponse m | readDiscreteInputsResponse m | readHoldingRegistersResponse m
  | readInputRegistersResponse m => exact m.fills _
  | readWriteRegistersResponse m => exact m.fills _

/-! ## The unit built around a message -/

/-- The stores of `tcp_data_unit(uint16_t, M)`, from the first byte of its buffer on. -/
def TcpDataUnit.fill (transactionId : Word) (pdu : Message) : Encoder Unit := do
  let length := pdu.size
  put ((transactionId >>> 8).setWidth 8)
  put (transactionId.setWidth 8)
  put ((protocolId >>> 8).setWidth 8)
  put (protocolId.setWidth 8)
  put (BitVec.ofNat 8 (length >>> 8))
  put (BitVec.ofNat 8 length)
  pdu.serializeAt

theorem TcpDataUnit.fills (t : Word) (m : Message) : Fills (fill t m) (frame t m) :=
  (Fills.put _).bind ((Fills.put _).bind ((Fills.put _).bind ((Fills.put _).bind
    ((Fills.put _).bind ((Fills.put _).bind m.fills)))))

/-- A buffer of the reserved size is filled from end to end, whatever stood in it. -/
theorem TcpDataUnit.fill_eq (t : Word) (m : Message) {buffer : Buffer}
    (h : buffer.length = tcpHeaderSize + m.size) :
    fill t m (buffer, 0) = .ok ((), frame t m, buffer.length) := by
  have hall := (fills t m).room [] buffer [] (by rw [length_frame, h])
  rw [List.append_nil, List.append_nil, List.nil_append, List.nil_append, List.length_nil,
    Nat.zero_add, length_frame, ← h] at hall
  exact hall

/-- The space reserved for a message and the stores that go into it: `serialize` takes
`size` bytes, no less and no more, and the constructor of a unit stays inside its buffer,
leaves nothing there of what it held before, and is what `ofMessage` says. -/
structure FillsReserved (t : Word) (m : Message) : Prop where
  serialized : ∀ before old after : Buffer, old.length = m.size →
    m.serializeAt (before ++ old ++ after, before.length) =
      .ok ((), before ++ m.serialize ++ after, before.length + m.size)
  length_eq : m.serialize.length = m.size
  overrun : ∀ before old : Buffer, old.length < m.size →
    ∃ fault, m.serializeAt (before ++ old, before.length) = .error fault
  filled : ∀ buffer : Buffer, buffer.length = tcpHeaderSize + m.size →
    TcpDataUnit.fill t m (buffer, 0) = .ok ((), TcpDataUnit.frame t m, buffer.length)
  built : TcpDataUnit.ofMessage t m = do
    let (_, buffer, _) ← TcpDataUnit.fill t m (List.replicate (tcpHeaderSize + m.size) 0, 0)
    return { buffer, type := m.type }

theorem fillsReserved (t : Word) (m : Message) : FillsReserved t m := by
  have hlen := m.length_serialize
  constructor
  case serialized =>
    intro before old after h
    rw [← hlen] at h ⊢
    exact m.fills.room before old after h
  case length_eq => exact hlen
  case overrun =>
    intro before old h
    rw [← hlen] at h
    exact m.fills.short before old h
  case filled =>
    intro buffer h
    exact TcpDataUnit.fill_eq t m h
  case built =>
    rw [TcpDataUnit.ofMessage_eq, TcpDataUnit.fill_eq t m List.length_replicate]
    rfl

end Modbus
