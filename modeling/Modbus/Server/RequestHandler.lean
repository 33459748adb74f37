import Modbus.Core.Reach
import Modbus.Core.RoundTrip
import Modbus.Server.MaskedWrite
import Modbus.Server.Registers

/-! # The request handler (`test/tcp_server_test.cpp`)

The library leaves the handling of requests to its user and has helpers for it; the
handler of its own tests is where they come together. It owns a memory of four rows
and a mask of valid addresses for each of them. A call reads the request's codes and
ids, decodes it by its function code, asks the access check, and only then touches
the memory. Nothing in it suspends, and it holds a mutex while it uses the memory,
so a call is one step. -/
namespace Modbus.Server
open Bytes Checked TcpDataUnit

/-- The rows of the memory and of the masks, in their order. -/
inductive DataRow where
  | coils
  | discreteInputs
  | holdingRegisters
  | inputRegisters
deriving DecidableEq, Repr

structure RequestHandler where
  memorySpace : DataRow → Buffer
  /-- An address is valid when its bit is set. -/
  validAddresses : DataRow → Buffer

/-- The requests the handler has a branch for, as its branches decode them. -/
inductive Request where
  | readDiscreteInputs (r : AddressRange)
  | readCoils (r : AddressRange)
  | writeSingleCoil (r : CoilValue)
  | writeMultipleCoils (r : WriteMultipleCoilsRequest)
  | readHoldingRegisters (r : AddressRange)
  | readInputRegisters (r : AddressRange)
  | writeSingleRegister (r : RegisterValue)
  | writeMultipleRegisters (r : WriteMultipleRegistersRequest)
deriving DecidableEq, Repr

namespace Request

def message : Request → Message
  | .readDiscreteInputs r => .readDiscreteInputsRequest r
  | .readCoils r => .readCoilsRequest r
  | .writeSingleCoil r => .writeSingleCoilRequest r
  | .writeMultipleCoils r => .writeMultipleCoilsRequest r
  | .readHoldingRegisters r => .readHoldingRegistersRequest r
  | .readInputRegisters r => .readInputRegistersRequest r
  | .writeSingleRegister r => .writeSingleRegisterRequest r
  | .writeMultipleRegisters r => .writeMultipleRegistersRequest r

def ofMessage : Message → Option Request
  | .readDiscreteInputsRequest r => some (.readDiscreteInputs r)
  | .readCoilsRequest r => some (.readCoils r)
  | .writeSingleCoilRequest r => some (.writeSingleCoil r)
  | .writeMultipleCoilsRequest r => some (.writeMultipleCoils r)
  | .readHoldingRegistersRequest r => some (.readHoldingRegisters r)
  | .readInputRegistersRequest r => some (.readInputRegisters r)
  | .writeSingleRegisterRequest r => some (.writeSingleRegister r)
  | .writeMultipleRegistersRequest r => some (.writeMultipleRegisters r)
  | _ => none

/-- `dataRow`. -/
def dataRow : Request → DataRow
  | .readDiscreteInputs _ => .discreteInputs
  | .readCoils _ => .coils
  | .writeSingleCoil _ => .coils
  | .writeMultipleCoils _ => .coils
  | .readHoldingRegisters _ => .holdingRegisters
  | .readInputRegisters _ => .inputRegisters
  | .writeSingleRegister _ => .holdingRegisters
  | .writeMultipleRegisters _ => .holdingRegisters

def unitId : Request → Byte
  | .readDiscreteInputs r => r.unitId
  | .readCoils r => r.unitId
  | .writeSingleCoil r => r.unitId
  | .writeMultipleCoils r => r.unitId
  | .readHoldingRegisters r => r.unitId
  | .readInputRegisters r => r.unitId
  | .writeSingleRegister r => r.unitId
  | .writeMultipleRegisters r => r.unitId

def startAddress : Request → Nat
  | .readDiscreteInputs r => r.startAddress.toNat
  | .readCoils r => r.startAddress.toNat
  | .writeSingleCoil r => r.startAddress.toNat
  | .writeMultipleCoils r => r.startAddress.toNat
  | .readHoldingRegisters r => r.startAddress.toNat
  | .readInputRegisters r => r.startAddress.toNat
  | .writeSingleRegister r => r.startAddress.toNat
  | .writeMultipleRegisters r => r.startAddress.toNat

/-- How many addresses the bitmap of the request is made for. -/
def length : Request → Nat
  | .readDiscreteInputs r => r.length.toNat
  | .readCoils r => r.length.toNat
  | .writeSingleCoil _ => 1
  | .writeMultipleCoils r => r.length.toNat
  | .readHoldingRegisters r => r.length.toNat
  | .readInputRegisters r => r.length.toNat
  | .writeSingleRegister _ => 1
  | .writeMultipleRegisters r => r.length.toNat

/-- What a branch does once the access check has passed: the response, and the row of
the memory afterwards. -/
def serve (unitId : Byte) (requestBitmap data : Buffer) :
    Request → Except Fault (Message × Buffer)
  | .readDiscreteInputs r => do
    let inputs ← copyDataBits data requestBitmap r.startAddress.toNat r.length.toNat
    return (.readDiscreteInputsResponse ⟨unitId, inputs⟩, data)
  | .readCoils r => do
    let inputs ← copyDataBits data requestBitmap r.startAddress.toNat r.length.toNat
    return (.readCoilsResponse ⟨unitId, inputs⟩, data)
  | .writeSingleCoil r => do
    -- a coil is only ever switched on
    let data ← (if r.value then writeCoil data r.value r.startAddress.toNat else .ok data)
    return (.writeSingleCoilRequest r, data)
  | .writeMultipleCoils r => do
    let data ← writeCoils data requestBitmap r.values r.startAddress.toNat
    return (.writeMultipleCoilsResponse ⟨unitId, r.startAddress, r.length⟩, data)
  | .readHoldingRegisters r => do
    let inputs ← copyDataRegisters data r.startAddress.toNat r.length.toNat
    return (.readHoldingRegistersResponse ⟨unitId, inputs⟩, data)
  | .readInputRegisters r => do
    let inputs ← copyDataRegisters data r.startAddress.toNat r.length.toNat
    return (.readInputRegistersResponse ⟨unitId, inputs⟩, data)
  | .writeSingleRegister r => do
    let data ← writeRegister r.value data r.startAddress.toNat
    return (.writeSingleRegisterRequest r, data)
  | .writeMultipleRegisters r => do
    let data ← writeRegisters r.values data r.startAddress.toNat r.length.toNat
    return (.writeMultipleRegistersRequest r, data)

end Request

/-- The message type of the branch of a function code. -/
def requestKind (code : FunctionCode) : Option MessageKind :=
  if code = .readDiscreteInputs then some .readDiscreteInputsRequest
  else if code = .readCoils then some .readCoilsRequest
  else if code = .writeSingleCoil then some .writeSingleCoilRequest
  else if code = .writeMultipleCoils then some .writeMultipleCoilsRequest
  else if code = .readHoldingRegisters then some .readHoldingRegistersRequest
  else if code = .readInputRegisters then some .readInputRegistersRequest
  else if code = .writeSingleRegister then some .writeSingleRegisterRequest
  else if code = .writeMultipleRegisters then some .writeMultipleRegistersRequest
  else none

/-- Why a call does not end with a response: an accessor of the unit threw, or an index
was out of range. -/
inductive Failure where
  | threw (error : Exn)
  | fault (fault : Fault)
deriving DecidableEq, Repr

namespace RequestHandler

/-- `request_handler()`: the memory of the tests, where the last five coils of the third
byte do not exist, and of the four registers the third. -/
def initial : RequestHandler where
  memorySpace
    | .coils => [0x9A, 0xA9, 0x01]
    | .discreteInputs => [0xA9, 0x9A, 0x06]
    | .holdingRegisters => [0x0F, 0xF0, 0x0F, 0xF0, 0x00, 0x00, 0x0F, 0xF0]
    | .inputRegisters => [0xF0, 0x0F, 0xF0, 0x0F, 0x00, 0x00, 0xF0, 0x0F]
  validAddresses
    | .coils => [0xFF, 0xFF, 0x07]
    | .discreteInputs => [0xFF, 0xFF, 0x07]
    | .holdingRegisters => [0x0B]
    | .inputRegisters => [0x0B]

/-- `memorySpace[row] = data`. -/
def store (h : RequestHandler) (row : DataRow) (data : Buffer) : RequestHandler :=
  { h with memorySpace := Function.update h.memorySpace row data }

@[simp] theorem store_memorySpace (h : RequestHandler) (row row' : DataRow) (data : Buffer) :
    (h.store row data).memorySpace row' = if row' = row then data else h.memorySpace row' :=
  Function.update_apply ..

@[simp] theorem store_validAddresses (h : RequestHandler) (row : DataRow) (data : Buffer) :
    (h.store row data).validAddresses = h.validAddresses := rfl

/-- Storing a row back changes nothing. -/
theorem store_self (h : RequestHandler) (row : DataRow) : h.store row (h.memorySpace row) = h := by
  rw [store, Function.update_eq_self]

/-- The branches of the call, for the ids and the code of the unit. -/
def answer (h : RequestHandler) (request : TcpDataUnit) (code : FunctionCode)
    (transactionId : Word) (unitId : Byte) : Except Fault (TcpDataUnit × RequestHandler) := do
  match requestKind code with
  | some T =>
    match (← request.pdu T).bind Request.ofMessage with
    | none =>
      -- the function code and the request do not agree
      return (← TcpDataUnit.ofMessage transactionId
        (.exceptionResponse ⟨unitId, code, .serverDeviceFailure⟩), h)
    | some r =>
      let requestBitmap ← createRequestBitMap r.startAddress r.length
      if ← legalAddress (h.validAddresses r.dataRow) requestBitmap r.startAddress then
        let (response, data) ← r.serve unitId requestBitmap (h.memorySpace r.dataRow)
        return (← TcpDataUnit.ofMessage transactionId response, h.store r.dataRow data)
      else
        return (← TcpDataUnit.ofMessage transactionId
          (.exceptionResponse ⟨unitId, code, .illegalDataAddress⟩), h)
  | none =>
    return (← TcpDataUnit.ofMessage transactionId
      (.exceptionResponse ⟨unitId, code, .illegalFunction⟩), h)

/-- `request_handler::operator()`. -/
def call (h : RequestHandler) (request : TcpDataUnit) :
    Except Failure (TcpDataUnit × RequestHandler) := do
  let code ← request.functionCode.mapError .threw
  let transactionId ← request.transactionId.mapError .threw
  let unitId ← request.unitId.mapError .threw
  (h.answer request code transactionId unitId).mapError .fault

/-- The call indexes out of range. -/
def faults (h : RequestHandler) (request : TcpDataUnit) : Bool :=
  match h.call request with
  | .error (.fault _) => true
  | _ => false

end RequestHandler

/-! ## What a call can do -/

namespace Request

def kind (r : Request) : MessageKind := r.message.kind

@[simp] theorem ofMessage_message (r : Request) : ofMessage r.message = some r := by
  cases r <;> rfl

theorem message_ofMessage {m : Message} {r : Request} (h : ofMessage m = some r) :
    r.message = m := by
  cases m <;> cases h <;> rfl

theorem kind_type (r : Request) : r.message.type = .request := by
  cases r <;> rfl

end Request

/-- Each branch decodes the type of its function code, and there is one for every request
that has a branch. -/
theorem requestKind_iff {code : FunctionCode} {T : MessageKind} :
    requestKind code = some T ↔ T.functionCode = some code ∧ ∃ r : Request, r.kind = T := by
  constructor
  · intro h
    unfold requestKind at h
    split at h
    · next hcode => cases h; exact ⟨congrArg some hcode.symm, .readDiscreteInputs ⟨0, 0, 0⟩, rfl⟩
    split at h
    · next hcode => cases h; exact ⟨congrArg some hcode.symm, .readCoils ⟨0, 0, 0⟩, rfl⟩
    split at h
    · next hcode => cases h; exact ⟨congrArg some hcode.symm, .writeSingleCoil ⟨0, 0, false⟩, rfl⟩
    split at h
    · next hcode =>
      cases h
      exact ⟨congrArg some hcode.symm, .writeMultipleCoils ⟨0, 0, 0, []⟩, rfl⟩
    split at h
    · next hcode => cases h; exact ⟨congrArg some hcode.symm, .readHoldingRegisters ⟨0, 0, 0⟩, rfl⟩
    split at h
    · next hcode => cases h; exact ⟨congrArg some hcode.symm, .readInputRegisters ⟨0, 0, 0⟩, rfl⟩
    split at h
    · next hcode => cases h; exact ⟨congrArg some hcode.symm, .writeSingleRegister ⟨0, 0, 0⟩, rfl⟩
    split at h
    · next hcode =>
      cases h
      exact ⟨congrArg some hcode.symm, .writeMultipleRegisters ⟨0, 0, 0, []⟩, rfl⟩
    · cases h
  · rintro ⟨hcode, r, rfl⟩
    cases r <;> cases hcode <;> rfl

/-- The unit of an exception response. -/
def exceptionUnit (t : Word) (unitId : Byte) (code : FunctionCode) (exception : ExceptionCode) :
    TcpDataUnit :=
  ⟨frame t (.exceptionResponse ⟨unitId, code, exception⟩), .response⟩

/-- The ways a call ends with a response. -/
inductive Answers (h : RequestHandler) (request : TcpDataUnit) (code : FunctionCode) (t : Word)
    (unitId : Byte) : TcpDataUnit → RequestHandler → Prop
  | illegalFunction (branch : requestKind code = none) :
      Answers h request code t unitId (exceptionUnit t unitId code .illegalFunction) h
  | deviceFailure {T : MessageKind} (branch : requestKind code = some T)
      (decoded : request.pdu T = .ok none) :
      Answers h request code t unitId (exceptionUnit t unitId code .serverDeviceFailure) h
  | illegalDataAddress {r : Request} {bm : Buffer} (branch : requestKind code = some r.kind)
      (decoded : request.pdu r.kind = .ok (some r.message))
      (bitmap : createRequestBitMap r.startAddress r.length = .ok bm)
      (refused : legalAddress (h.validAddresses r.dataRow) bm r.startAddress = .ok false) :
      Answers h request code t unitId (exceptionUnit t unitId code .illegalDataAddress) h
  | served {r : Request} {bm data : Buffer} {m : Message}
      (branch : requestKind code = some r.kind)
      (decoded : request.pdu r.kind = .ok (some r.message))
      (bitmap : createRequestBitMap r.startAddress r.length = .ok bm)
      (granted : legalAddress (h.validAddresses r.dataRow) bm r.startAddress = .ok true)
      (serves : r.serve unitId bm (h.memorySpace r.dataRow) = .ok (m, data)) :
      Answers h request code t unitId ⟨frame t m, m.type⟩ (h.store r.dataRow data)

/-- What a decoder of a branch returns is a request. -/
theorem request_of_pdu {request : TcpDataUnit} {code : FunctionCode} {T : MessageKind} {m : Message}
    (hkind : requestKind code = some T) (hpdu : request.pdu T = .ok (some m)) :
    ∃ r, Request.ofMessage m = some r ∧ r.message = m ∧ r.kind = T := by
  obtain ⟨_, p, hdecode⟩ := decode_of_pdu hpdu
  have hT := MessageKind.decode_kind hdecode
  obtain ⟨_, r, hr⟩ := requestKind_iff.mp hkind
  have hsome : ∃ r', Request.ofMessage m = some r' := by
    rw [← hr] at hT
    unfold Request.kind at hT
    cases r <;> cases m <;> first | exact ⟨_, rfl⟩ | cases hT
  obtain ⟨r', hr'⟩ := hsome
  have hmessage := Request.message_ofMessage hr'
  exact ⟨r', hr', hmessage, by rw [Request.kind, hmessage, hT]⟩

theorem answer_ok_iff {h : RequestHandler} {request : TcpDataUnit} {code : FunctionCode} {t : Word}
    {unitId : Byte} {response : TcpDataUnit} {h' : RequestHandler} :
    h.answer request code t unitId = .ok (response, h') ↔
      Answers h request code t unitId response h' := by
  constructor
  · intro hok
    unfold RequestHandler.answer at hok
    simp only [ofMessage_eq, ok_bind, pure_eq_ok] at hok
    split at hok
    · next T hkind =>
      obtain ⟨m, hpdu, hbranch⟩ := bind_ok.mp hok
      cases m with
      | none =>
        cases hbranch
        exact .deviceFailure hkind hpdu
      | some m =>
        obtain ⟨r, hr, rfl, rfl⟩ := request_of_pdu hkind hpdu
        simp only [Option.bind_some, hr] at hbranch
        obtain ⟨bm, hbm, hcheck⟩ := bind_ok.mp hbranch
        obtain ⟨legal, hlegal, hanswer⟩ := bind_ok.mp hcheck
        cases legal with
        | false =>
          cases hanswer
          exact .illegalDataAddress hkind hpdu hbm hlegal
        | true =>
          obtain ⟨⟨m, data⟩, hserve, hunit⟩ := bind_ok.mp hanswer
          cases hunit
          exact .served hkind hpdu hbm hlegal hserve
    · next hkind =>
      cases hok
      exact .illegalFunction hkind
  · intro hanswers
    unfold RequestHandler.answer
    simp only [ofMessage_eq, ok_bind, pure_eq_ok]
    cases hanswers with
    | illegalFunction branch =>
      rw [branch]
      rfl
    | deviceFailure branch decoded =>
      rw [branch]
      simp only [decoded, ok_bind, Option.bind_none]
      rfl
    | illegalDataAddress branch decoded bitmap refused =>
      rw [branch]
      simp only [decoded, ok_bind, Option.bind_some, Request.ofMessage_message, bitmap, refused]
      rfl
    | served branch decoded bitmap granted serves =>
      rw [branch]
      simp only [decoded, ok_bind, Option.bind_some, Request.ofMessage_message, bitmap, granted,
        serves, if_true]

/-- A call ends with a response when the accessors of the unit return and the branch of
its code does. -/
theorem call_ok_iff {h : RequestHandler} {request response : TcpDataUnit} {h' : RequestHandler} :
    h.call request = .ok (response, h') ↔
      ∃ code t unitId, request.functionCode = .ok code ∧ request.transactionId = .ok t ∧
        request.unitId = .ok unitId ∧ Answers h request code t unitId response h' := by
  simp only [RequestHandler.call, bind_ok, mapError_ok, answer_ok_iff]
  constructor
  · rintro ⟨code, hcode, t, ht, unitId, hunit, hanswers⟩
    exact ⟨code, t, unitId, hcode, ht, hunit, hanswers⟩
  · rintro ⟨code, t, unitId, hcode, ht, hunit, hanswers⟩
    exact ⟨code, hcode, t, ht, unitId, hunit, hanswers⟩

end Modbus.Server
