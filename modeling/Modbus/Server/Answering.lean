import Modbus.Server.RequestHandler

/-! # What a call answers

Every response of the handler carries the transaction id, the unit id and the
function code of its request, so a client can match it. An exception says why the
request was not served and leaves the memory as it was (`call_answers`). -/
namespace Modbus
open Bytes Checked Walk

/-! ## The unit id of a decoded request -/

section Decoded
variable {b : Buffer} {pos p : Nat}

/-- The byte a decoder starts with, when it keeps that byte in its result. -/
theorem starts_with {α : Type} {f : α → Byte} {k : Byte → Decoder α} {m : α}
    (hk : ∀ u r, k u b (pos + 1) = .ok r → f r.1 = u) (h : (next >>= k) b pos = .ok (m, p)) :
    b[pos]? = some (f m) := by
  obtain ⟨u, p', hnext, hrest⟩ := walk_bind_ok.mp h
  obtain ⟨hu, rfl⟩ := next_ok.mp hnext
  rw [hu, hk u (m, p) hrest]

theorem AddressRange.decode_unitId {m : AddressRange} (h : decode b pos = .ok (m, p)) :
    b[pos]? = some m.unitId := by
  refine starts_with (fun u r hr => ?_) h
  rw [skip_bind] at hr
  obtain ⟨_, _, _, hlength⟩ := walk_bind_ok.mp hr
  obtain ⟨_, _, _, hret⟩ := walk_bind_ok.mp hlength
  cases hret
  rfl

theorem CoilValue.decode_unitId {m : CoilValue} (h : decode b pos = .ok (m, p)) :
    b[pos]? = some m.unitId := by
  refine starts_with (fun u r hr => ?_) h
  rw [skip_bind] at hr
  obtain ⟨_, _, _, hvalue⟩ := walk_bind_ok.mp hr
  obtain ⟨_, _, _, hret⟩ := walk_bind_ok.mp hvalue
  cases hret
  rfl

theorem RegisterValue.decode_unitId {m : RegisterValue} (h : decode b pos = .ok (m, p)) :
    b[pos]? = some m.unitId := by
  refine starts_with (fun u r hr => ?_) h
  rw [skip_bind] at hr
  obtain ⟨_, _, _, hvalue⟩ := walk_bind_ok.mp hr
  obtain ⟨_, _, _, hret⟩ := walk_bind_ok.mp hvalue
  cases hret
  rfl

theorem WriteMultipleCoilsRequest.decode_unitId {m : WriteMultipleCoilsRequest}
    (h : decode b pos = .ok (m, p)) : b[pos]? = some m.unitId := by
  refine starts_with (fun u r hr => ?_) h
  rw [skip_bind] at hr
  obtain ⟨_, _, _, hlength⟩ := walk_bind_ok.mp hr
  obtain ⟨_, _, _, hcount⟩ := walk_bind_ok.mp hlength
  obtain ⟨_, _, _, hvalues⟩ := walk_bind_ok.mp hcount
  obtain ⟨_, _, _, hret⟩ := walk_bind_ok.mp hvalues
  cases hret
  rfl

theorem WriteMultipleRegistersRequest.decode_unitId {m : WriteMultipleRegistersRequest}
    (h : decode b pos = .ok (m, p)) : b[pos]? = some m.unitId := by
  refine starts_with (fun u r hr => ?_) h
  rw [skip_bind] at hr
  obtain ⟨_, _, _, hlength⟩ := walk_bind_ok.mp hr
  obtain ⟨_, _, _, hcount⟩ := walk_bind_ok.mp hlength
  obtain ⟨_, _, _, hvalues⟩ := walk_bind_ok.mp hcount
  obtain ⟨_, _, _, hret⟩ := walk_bind_ok.mp hvalues
  cases hret
  rfl

end Decoded

namespace Server
open TcpDataUnit

/-- A request keeps the unit id it came with. -/
theorem Request.unitId_of_pdu {request : TcpDataUnit} {r : Request}
    (h : request.pdu r.kind = .ok (some r.message)) : request.unitId = .ok r.unitId := by
  obtain ⟨_, p, hdecode⟩ := decode_of_pdu h
  refine elementAt_ok.mpr ?_
  cases r with
  | readDiscreteInputs r | readCoils r | readHoldingRegisters r | readInputRegisters r =>
    obtain ⟨a, ha, heq⟩ := wrap_ok hdecode
    cases heq
    exact AddressRange.decode_unitId ha
  | writeSingleCoil r =>
    obtain ⟨a, ha, heq⟩ := wrap_ok hdecode
    cases heq
    exact CoilValue.decode_unitId ha
  | writeSingleRegister r =>
    obtain ⟨a, ha, heq⟩ := wrap_ok hdecode
    cases heq
    exact RegisterValue.decode_unitId ha
  | writeMultipleCoils r =>
    obtain ⟨a, ha, heq⟩ := wrap_ok hdecode
    cases heq
    exact WriteMultipleCoilsRequest.decode_unitId ha
  | writeMultipleRegisters r =>
    obtain ⟨a, ha, heq⟩ := wrap_ok hdecode
    cases heq
    exact WriteMultipleRegistersRequest.decode_unitId ha

/-! ## Responses -/

/-- What a branch responds with starts with the unit id of its request and the function
code of the branch. -/
theorem Request.serialize_served {r : Request} {bm data data' : Buffer} {m : Message}
    (h : r.serve r.unitId bm data = .ok (m, data')) :
    m.serialize[0]? = some r.unitId ∧ m.serialize[1]? = r.kind.functionCode := by
  cases r with
  | _ r =>
    obtain ⟨x, _, hret⟩ := bind_ok.mp h
    cases hret
    exact ⟨rfl, rfl⟩

/-- The codes of the unit of a message are its first two bytes. -/
theorem codes_frame (t : Word) {m : Message} (type : MessageType) {unitId code : Byte}
    (hunit : m.serialize[0]? = some unitId) (hcode : m.serialize[1]? = some code) :
    TcpDataUnit.unitId ⟨frame t m, type⟩ = .ok unitId ∧
      TcpDataUnit.functionCode ⟨frame t m, type⟩ = .ok (code &&& 0x7F#8) ∧
      TcpDataUnit.isException ⟨frame t m, type⟩ = .ok (code &&& 0x80#8 ≠ 0#8 : Bool) := by
  have hbyte : elementAt (frame t m) 7 = .ok code := elementAt_ok.mpr hcode
  refine ⟨elementAt_ok.mpr hunit, ?_, ?_⟩
  · rw [functionCode, hbyte]
    rfl
  · rw [isException, hbyte]
    rfl

/-- An exception response gives back the code of its request, which has no flag. -/
theorem codes_exception (t : Word) (unitId : Byte) (exception : ExceptionCode) {code : FunctionCode}
    (hcode : code &&& 0x80#8 = 0#8) :
    (exceptionUnit t unitId code exception).unitId = .ok unitId ∧
      (exceptionUnit t unitId code exception).functionCode = .ok code ∧
      (exceptionUnit t unitId code exception).exceptionCode = .ok exception := by
  have hflag : ∀ c : Byte, (c ||| 0x80#8) &&& 0x80#8 ≠ 0#8 := by decide +kernel
  have hmask : ∀ c : Byte, (c ||| 0x80#8) &&& 0x7F#8 = c &&& 0x7F#8 := by decide +kernel
  obtain ⟨hunit, hfunction, hexception⟩ := codes_frame t
    (m := .exceptionResponse ⟨unitId, code, exception⟩) .response rfl rfl
  refine ⟨hunit, ?_, ?_⟩
  · rw [exceptionUnit, hfunction, hmask, flag_clear code hcode]
  · rw [exceptionUnit, exceptionCode, hexception]
    simp only [ok_bind, hflag, ne_eq, not_false_eq_true, decide_true, Bool.not_true]
    rfl

/-- The code a unit reports has no flag. -/
theorem functionCode_flag {du : TcpDataUnit} {code : FunctionCode} (h : du.functionCode = .ok code) :
    code &&& 0x80#8 = 0#8 := by
  have hmask : ∀ c : Byte, (c &&& 0x7F#8) &&& 0x80#8 = 0#8 := by decide +kernel
  obtain ⟨c, _, hret⟩ := bind_ok.mp h
  cases hret
  exact hmask c

/-- Why a response is an exception, and that it has the memory unchanged; one that is none
was granted by the access check. -/
inductive Verdict (h h' : RequestHandler) (request : TcpDataUnit) (code : FunctionCode) :
    ExceptionCode → Prop
  | illegalFunction (same : h' = h) (branch : requestKind code = none) :
      Verdict h h' request code .illegalFunction
  | serverDeviceFailure {T : MessageKind} (same : h' = h) (branch : requestKind code = some T)
      (decoded : request.pdu T = .ok none) : Verdict h h' request code .serverDeviceFailure
  | illegalDataAddress {r : Request} (same : h' = h)
      (decoded : request.pdu r.kind = .ok (some r.message))
      (refused : ¬ Accepted (h.validAddresses r.dataRow) r.startAddress r.length) :
      Verdict h h' request code .illegalDataAddress
  | noException {r : Request} (decoded : request.pdu r.kind = .ok (some r.message))
      (granted : Accepted (h.validAddresses r.dataRow) r.startAddress r.length) :
      Verdict h h' request code .noException

section Answered
variable {h h' : RequestHandler} {request response : TcpDataUnit} {code : FunctionCode} {t : Word}
  {unitId : Byte}

/-- The ids and the code of a response, and its reason. -/
theorem Answers.codes (hanswers : Answers h request code t unitId response h')
    (hflag : code &&& 0x80#8 = 0#8) (hunit : request.unitId = .ok unitId) :
    response.transactionId = .ok t ∧ response.unitId = .ok unitId ∧
      response.functionCode = .ok code ∧
      ∃ e, response.exceptionCode = .ok e ∧ Verdict h h' request code e := by
  cases hanswers with
  | illegalFunction branch =>
    obtain ⟨hu, hf, he⟩ := codes_exception t unitId .illegalFunction hflag
    exact ⟨transactionId_header t _ _ _, hu, hf, _, he, .illegalFunction rfl branch⟩
  | deviceFailure branch decoded =>
    obtain ⟨hu, hf, he⟩ := codes_exception t unitId .serverDeviceFailure hflag
    exact ⟨transactionId_header t _ _ _, hu, hf, _, he, .serverDeviceFailure rfl branch decoded⟩
  | @illegalDataAddress r bm branch decoded bitmap refused =>
    obtain ⟨hu, hf, he⟩ := codes_exception t unitId .illegalDataAddress hflag
    exact ⟨transactionId_header t _ _ _, hu, hf, _, he,
      .illegalDataAddress rfl decoded (not_accepted bitmap refused)⟩
  | @served r bm data m branch decoded bitmap granted serves =>
    obtain rfl : unitId = r.unitId := by
      have hown := r.unitId_of_pdu decoded
      rw [hunit] at hown
      exact Except.ok.inj hown
    obtain ⟨hfirst, hsecond⟩ := Request.serialize_served serves
    obtain ⟨hbranch, _⟩ := requestKind_iff.mp branch
    rw [hbranch] at hsecond
    obtain ⟨hu, hf, he⟩ := codes_frame t m.type hfirst hsecond
    refine ⟨transactionId_header t _ _ _, hu, ?_, .noException, ?_,
      .noException decoded ⟨bm, bitmap, granted⟩⟩
    · rw [hf, flag_clear code hflag]
    · rw [exceptionCode, he]
      simp [hflag]

end Answered

/-- Whatever the unit and the memory, a call that ends gives a response with the ids and
the function code of the request; it is an exception exactly when the request was not
served, it says why, and then nothing was changed. -/
theorem call_answers (h h' : RequestHandler) (request response : TcpDataUnit)
    (hcall : h.call request = .ok (response, h')) :
    response.transactionId = request.transactionId ∧ response.unitId = request.unitId ∧
      response.functionCode = request.functionCode ∧
      ∃ code e, request.functionCode = .ok code ∧ response.exceptionCode = .ok e ∧
        Verdict h h' request code e := by
  obtain ⟨code, t, unitId, hcode, ht, hunit, hanswers⟩ := call_ok_iff.mp hcall
  obtain ⟨hid, hu, hf, e, he, hverdict⟩ := hanswers.codes (functionCode_flag hcode) hunit
  rw [ht, hunit, hcode]
  exact ⟨hid, hu, hf, code, e, rfl, he, hverdict⟩

/-- Three coils from address 16, of which the test's memory has all. -/
theorem call_answers_three_coils :
    ∃ response h', RequestHandler.initial.call ⟨frame 7 (.readCoilsRequest ⟨1, 16, 3⟩), .request⟩ =
        .ok (response, h') ∧
      response.transactionId = .ok 7 ∧ response.unitId = .ok 1 ∧ response.functionCode = .ok 1 ∧
      ∃ code e, functionCode ⟨frame 7 (.readCoilsRequest ⟨1, 16, 3⟩), .request⟩ = .ok code ∧
        response.exceptionCode = .ok e ∧
        Verdict .initial h' ⟨frame 7 (.readCoilsRequest ⟨1, 16, 3⟩), .request⟩ code e :=
  ⟨_, _, rfl, call_answers .initial _ ⟨frame 7 (.readCoilsRequest ⟨1, 16, 3⟩), .request⟩ _ rfl⟩

end Server

end Modbus
