import Modbus.Client.Validation
import Modbus.Server.Linearization

/-! # What a client makes of a response

A client asks the unit that `send_request` returned whether it is an exception, and
decodes the response type that belongs to its request. The handler repeats the request
of a single write and of a block write of registers instead; the bytes a client decodes
from the repetition are those of the response (`answered_at_front`), so it does not
notice. What it observes is what the device behind the handler does
(`call_observed`). -/
namespace Modbus.EndToEnd
open Bytes Checked TcpDataUnit Server Client

/-- What a call of a client comes to. -/
inductive Observation where
  | reply (reply : Reply)
  | exception (code : ExceptionCode)
  /-- An error of the client, or a response that is none to the request. -/
  | failed
deriving DecidableEq, Repr

/-- The response type of a request. -/
def responseKind : Request → MessageKind
  | .readDiscreteInputs _ => .readDiscreteInputsResponse
  | .readCoils _ => .readCoilsResponse
  | .writeSingleCoil _ => .writeSingleCoilResponse
  | .writeMultipleCoils _ => .writeMultipleCoilsResponse
  | .readHoldingRegisters _ => .readHoldingRegistersResponse
  | .readInputRegisters _ => .readInputRegistersResponse
  | .writeSingleRegister _ => .writeSingleRegisterResponse
  | .writeMultipleRegisters _ => .writeMultipleRegistersResponse

/-- What the clients of the tests do with a `read_response_t`. -/
def observe (r : Request) : Except Exn ReadResponse → Observation
  | .ok ⟨du, none⟩ =>
    match du.isException with
    | .ok true =>
      match du.pdu .exceptionResponse with
      | .ok (some (.exceptionResponse m)) => .exception m.exceptionCode
      | _ => .failed
    | .ok false =>
      match du.pdu (responseKind r) with
      | .ok (some m) => (r.shown m).elim .failed .reply
      | _ => .failed
    | .error _ => .failed
  | _ => .failed

/-! ## Repeated requests -/

/-- The response that the bytes of the handler's message start with. -/
def answered : Message → Message
  | .writeSingleCoilRequest m => .writeSingleCoilResponse m
  | .writeSingleRegisterRequest m => .writeSingleRegisterResponse m
  | .writeMultipleRegistersRequest m =>
    .writeMultipleRegistersResponse ⟨m.unitId, m.startAddress, m.length⟩
  | m => m

theorem answered_at_front (m : Message) : (answered m).serialize <+: m.serialize := by
  cases m with
  | writeMultipleRegistersRequest m => exact ⟨_ :: bytesOf m.values, rfl⟩
  | _ => exact List.prefix_refl _

/-- The function code in the client's buffer. -/
theorem code_at_front {t : Word} {m a : Message} {code : Byte} (hat : a.serialize <+: m.serialize)
    (hcode : a.serialize[1]? = some code) : (readBuffer (frame t m))[7]? = some code := by
  obtain ⟨rest, hrest⟩ := hat
  have hlt := (List.getElem?_eq_some_iff.mp hcode).1
  rw [readBuffer, frame_code, ← hrest, List.getElem?_append_left hlt, hcode]

theorem isException_at_front (t : Word) {m a : Message} {code : Byte}
    (hat : a.serialize <+: m.serialize) (hcode : a.serialize[1]? = some code) :
    isException ⟨readBuffer (frame t m), .response⟩ = .ok (decide (code &&& 0x80#8 ≠ 0#8)) :=
  isException_of_getElem (code_at_front hat hcode)

/-- A decoder that is given the bytes of its message and more finds the message. -/
theorem pdu_at_front {t : Word} {m a : Message} (ha : a.type = .response) (hflag : a.FlagFree)
    (hat : a.serialize <+: m.serialize) (hfits : (frame t m).length ≤ maxApuSize) :
    pdu ⟨readBuffer (frame t m), .response⟩ a.kind = .ok (some a) := by
  have hcount : a.dataBytes ≤ 255 := by
    have hdata := dataBytes_le_size a
    have hsize := hat.length_le
    rw [Message.length_serialize, Message.length_serialize] at hsize
    rw [length_frame] at hfits
    unfold maxApuSize tcpHeaderSize at hfits
    omega
  obtain ⟨bytes, got, hp, hreads, hiff⟩ := Message.decodesBack (constructed_of_response ha) hflag
  obtain ⟨code, hcode, hmatches⟩ := a.serialize_code
  have hstart : bytes <+: (readBuffer (frame t m)).drop tcpHeaderSize := by
    rw [readBuffer, frame_drop_header]
    exact (hp.trans hat).trans (List.prefix_append _ _)
  rw [pdu_of_selects ⟨ha.symm, code, code_at_front hat hcode, hmatches⟩, hreads _ _ hstart,
    hiff.mpr hcount]
  rfl

/-! ## Observing the responses of the handler -/

/-- A client observes an exception as the handler made it. -/
theorem observe_exception (r : Request) (t : Word) (unitId : Byte) {code : FunctionCode}
    (e : ExceptionCode) (hcode : code &&& 0x80#8 = 0#8) :
    observe r (.ok ⟨⟨readBuffer (frame t (.exceptionResponse ⟨unitId, code, e⟩)), .response⟩,
      none⟩) = .exception e := by
  have hflag : ∀ c : Byte, (c ||| 0x80#8) &&& 0x80#8 ≠ 0#8 := by decide +kernel
  have hsmall : ∀ c : Byte, c &&& 0x80#8 = 0#8 → c.toNat < 0x80 := by decide +kernel
  have hself := List.prefix_refl (Message.exceptionResponse ⟨unitId, code, e⟩).serialize
  have hset := isException_at_front t hself (show _ = some (code ||| 0x80#8) from rfl)
  have hfits : (frame t (.exceptionResponse ⟨unitId, code, e⟩)).length ≤ maxApuSize := by
    rw [length_frame]
    exact (by decide : 6 + (1 + 1 + 1) ≤ 256)
  have hpdu := pdu_at_front rfl
    (show Message.FlagFree (.exceptionResponse ⟨unitId, code, e⟩) from hsmall code hcode) hself hfits
  rw [show Message.kind (.exceptionResponse ⟨unitId, code, e⟩) = .exceptionResponse from rfl] at hpdu
  simp only [observe, hset, hflag, ne_eq, not_false_eq_true, decide_true, hpdu]

/-- The response that a served request starts with is the one its client expects. -/
theorem answered_served {r : Request} {unitId : Byte} {bm data data' : Buffer} {m : Message}
    (h : r.serve unitId bm data = .ok (m, data')) :
    (answered m).kind = responseKind r ∧ (answered m).FlagFree ∧
      r.shown (answered m) = r.shown m := by
  cases r with
  | _ r =>
    obtain ⟨x, _, hret⟩ := bind_ok.mp h
    cases hret
    exact ⟨rfl, trivial, rfl⟩

theorem responseKind_type (r : Request) : (responseKind r).type = .response := by
  cases r <;> rfl

/-- A client observes what the response shows. -/
theorem observe_served {r : Request} {unitId : Byte} {bm data data' : Buffer} {m : Message}
    {reply : Reply} (t : Word) (h : r.serve unitId bm data = .ok (m, data'))
    (hshown : r.shown m = some reply) (hfits : (frame t m).length ≤ maxApuSize) :
    observe r (.ok ⟨⟨readBuffer (frame t m), .response⟩, none⟩) = .reply reply := by
  obtain ⟨hkind, hfree, hsame⟩ := answered_served h
  obtain ⟨code, hcode, hmatches⟩ := (answered m).serialize_code
  have htype : (answered m).type = .response := by
    rw [Message.type, hkind, responseKind_type]
  -- the code is that of the request, which has no flag
  have hflag : code &&& 0x80#8 = 0#8 := by
    obtain ⟨c, hc⟩ : ∃ c, (responseKind r).functionCode = some c := by
      cases r <;> exact ⟨_, rfl⟩
    rw [MessageKind.Matches, hkind, hc] at hmatches
    rw [show code = c from hmatches]
    exact MessageKind.functionCode_flag hc
  have hset := isException_at_front t (answered_at_front m) hcode
  have hpdu := pdu_at_front (t := t) htype hfree (answered_at_front m) hfits
  rw [hkind] at hpdu
  simp only [observe, hset, hflag, ne_eq, not_true_eq_false, decide_false, hpdu, hsame, hshown,
    Option.elim_some]

/-! ## The size of a response -/

/-- How many bytes the response to a granted request has. -/
def responseSize : Request → Nat
  | .readDiscreteInputs r => 3 + (r.length.toNat + 7) / 8
  | .readCoils r => 3 + (r.length.toNat + 7) / 8
  | .readHoldingRegisters r => 3 + 2 * r.length.toNat
  | .readInputRegisters r => 3 + 2 * r.length.toNat
  | .writeMultipleRegisters r => r.size
  | .writeSingleCoil _ | .writeMultipleCoils _ | .writeSingleRegister _ => 6

/-- How many bytes the blocks of bits and of registers have. -/
theorem length_copyDataBits {src bm out : Buffer} {start n : Nat} (hn : 1 ≤ n)
    (hbm : createRequestBitMap start n = .ok bm) (hfit : start / 8 + bm.length ≤ src.length)
    (h : copyDataBits src bm start n = .ok out) : out.length = (n + 7) / 8 := by
  obtain ⟨out', hout', hlen, _⟩ := copyDataBits_total hn hbm hfit
  obtain rfl : out' = out := Except.ok.inj (hout'.symm.trans h)
  exact hlen

theorem length_copyDataRegisters {src out : Buffer} {start n : Nat} (hn : 1 ≤ n)
    (hfit : ∀ i < n, 2 * (start + i) + 1 < src.length ∧ 2 * (start + i) + 1 ≤ intMax)
    (h : copyDataRegisters src start n = .ok out) : out.length = 2 * n := by
  obtain ⟨hlast, hint⟩ := hfit (n - 1) (Nat.sub_lt hn Nat.one_pos)
  obtain ⟨out', hout', hlen, _⟩ := copyDataRegisters_total hn hlast hint
    (count_of_copyDataRegisters h)
  obtain rfl : out' = out := Except.ok.inj (hout'.symm.trans h)
  exact hlen

theorem size_byteValues (unitId : Byte) {values : List Byte} {n : Nat} (h : values.length = n) :
    ByteValues.size ⟨unitId, values⟩ = 3 + n := by
  simp only [ByteValues.size, h]
  omega

/-- The response to a granted request has as many bytes as its count asks for. -/
theorem size_served {h : RequestHandler} {r : Request} {unitId : Byte} {bm data : Buffer}
    {m : Message} (hh : h.WellFormed)
    (hbm : createRequestBitMap r.startAddress r.length = .ok bm)
    (hlegal : legalAddress (h.validAddresses r.dataRow) bm r.startAddress = .ok true)
    (hserve : r.serve unitId bm (h.memorySpace r.dataRow) = .ok (m, data)) :
    m.size = responseSize r := by
  have hpos : 1 ≤ r.length := Accepted.pos ⟨bm, hbm, hlegal⟩
  cases r with
  | readDiscreteInputs q =>
    obtain ⟨out, hout, hret⟩ := bind_ok.mp hserve
    cases hret
    have hfit := (Request.bits_fit hh.discreteInputs hlegal).2
    exact size_byteValues _ (length_copyDataBits hpos hbm hfit hout)
  | readCoils q =>
    obtain ⟨out, hout, hret⟩ := bind_ok.mp hserve
    cases hret
    have hfit := (Request.bits_fit hh.coils hlegal).2
    exact size_byteValues _ (length_copyDataBits hpos hbm hfit hout)
  | readHoldingRegisters q =>
    obtain ⟨out, hout, hret⟩ := bind_ok.mp hserve
    cases hret
    have hfit := (Request.registers_fit hh.holdingRegisters hbm hlegal).2
    exact size_byteValues _ (length_copyDataRegisters hpos hfit hout)
  | readInputRegisters q =>
    obtain ⟨out, hout, hret⟩ := bind_ok.mp hserve
    cases hret
    have hfit := (Request.registers_fit hh.inputRegisters hbm hlegal).2
    exact size_byteValues _ (length_copyDataRegisters hpos hfit hout)
  | writeSingleCoil | writeMultipleCoils | writeSingleRegister | writeMultipleRegisters =>
    obtain ⟨x, _, hret⟩ := bind_ok.mp hserve
    cases hret
    rfl

/-! ## A call of the handler, as its client observes it -/

/-- The handler's own `legal_address` grants the addresses of the request. It refuses some
ranges of which the mask allows every address. -/
def Grants (h : RequestHandler) (r : Request) : Prop :=
  Accepted (h.validAddresses r.dataRow) r.startAddress r.length

instance (h : RequestHandler) : DecidablePred (Grants h) := fun r =>
  inferInstanceAs (Decidable (Accepted (h.validAddresses r.dataRow) r.startAddress r.length))

/-- What the device does with a request, when the access check says what it grants. -/
def perform (granted : Request → Prop) [DecidablePred granted] (d : Device) (r : Request) :
    Observation × Device :=
  if granted r then (.reply (d.reply r), d.apply r) else (.exception .illegalDataAddress, d)

/-- A request that its client can send whole, and whose response it can read whole. -/
structure Fits (r : Request) : Prop where
  counted : r.message.dataBytes ≤ 255
  request : tcpHeaderSize + r.message.size ≤ maxApuSize
  response : tcpHeaderSize + responseSize r ≤ maxApuSize

instance (r : Request) : Decidable (Fits r) :=
  decidable_of_iff (r.message.dataBytes ≤ 255 ∧ tcpHeaderSize + r.message.size ≤ maxApuSize ∧
      tcpHeaderSize + responseSize r ≤ maxApuSize)
    ⟨fun ⟨h₁, h₂, h₃⟩ => ⟨h₁, h₂, h₃⟩, fun h => ⟨h.counted, h.request, h.response⟩⟩

/-- The unit that a session makes of the frame of a request, with the leftovers of its
buffer behind it. -/
def sessionUnit (t : Word) (r : Request) (pad : Buffer) : TcpDataUnit :=
  ⟨frame t r.message ++ pad, .request⟩

/-- Both have the transaction id of the frame. -/
theorem transactionId_sessionUnit (t : Word) (r : Request) (pad : Buffer) :
    (sessionUnit t r pad).transactionId = .ok t := by
  have hid := transactionId_frame t r.message pad
  rwa [r.kind_type] at hid

theorem transactionId_request (t : Word) (r : Request) :
    transactionId ⟨frame t r.message, .request⟩ = .ok t := by
  have hid := transactionId_sessionUnit t r []
  rwa [sessionUnit, List.append_nil] at hid

theorem constructed_request (r : Request) : Constructed r.message := by
  cases r <;> constructor

section Calls
variable {t : Word} {r : Request} {pad : Buffer}

/-- The handler finds the request in it. -/
theorem decoded_sessionUnit (t : Word) (pad : Buffer) (hfits : Fits r) :
    ∃ code, (sessionUnit t r pad).functionCode = .ok code ∧ requestKind code = some r.kind ∧
      (sessionUnit t r pad).pdu r.kind = .ok (some r.message) := by
  obtain ⟨code, hkind, hbyte, hclear, _, _⟩ := request_code r.kind_type t
  have hfree : r.message.FlagFree := by cases r <;> trivial
  have hpdu := (pdu_frame_iff t pad (constructed_request r) hfree).mpr hfits.counted
  rw [r.kind_type] at hpdu
  have hlt := (List.getElem?_eq_some_iff.mp hbyte).1
  have hcode : (sessionUnit t r pad).buffer[7]? = some code := by
    rw [sessionUnit, List.getElem?_append_left hlt, hbyte]
  refine ⟨code, ?_, requestKind_iff.mpr ⟨hkind, r, rfl⟩, hpdu⟩
  rw [functionCode_of_getElem hcode, hclear]

/-- A call for the unit of a request responds with a frame that its client can read, in
which it observes what the device of the memory does. -/
theorem call_observed {h h' : RequestHandler} {response : TcpDataUnit} (hh : h.WellFormed)
    (hfits : Fits r) (hregular : Grants h r → r.Regular h.device)
    (hcall : h.call (sessionUnit t r pad) = .ok (response, h')) :
    ∃ m, response.buffer = frame t m ∧ (frame t m).length ≤ maxApuSize ∧
      observe r (.ok ⟨⟨readBuffer (frame t m), .response⟩, none⟩) = (perform (Grants h) h.device r).1 ∧
      h'.device = (perform (Grants h) h.device r).2 := by
  obtain ⟨code, t', unitId, hcode, ht, hunit, hanswers⟩ := call_ok_iff.mp hcall
  obtain ⟨code', hcode', hbranch, hpdu⟩ := decoded_sessionUnit t pad hfits
  obtain rfl : code' = code := Except.ok.inj (hcode'.symm.trans hcode)
  obtain rfl : t = t' := Except.ok.inj ((transactionId_sessionUnit t r pad).symm.trans ht)
  cases hanswers with
  | illegalFunction branch =>
    rw [branch] at hbranch
    cases hbranch
  | deviceFailure branch decoded =>
    obtain rfl := Option.some.inj (hbranch.symm.trans branch)
    rw [hpdu] at decoded
    cases decoded
  | @illegalDataAddress q bm branch decoded bitmap refused =>
    rw [← Option.some.inj (hbranch.symm.trans branch), hpdu] at decoded
    obtain rfl : r = q := Request.message_injective (Option.some.inj (Except.ok.inj decoded))
    rw [perform, if_neg (show ¬ Grants h r from not_accepted bitmap refused)]
    refine ⟨_, rfl, ?_, observe_exception r t unitId _ (functionCode_flag hcode), rfl⟩
    rw [length_frame]
    exact (by decide : 6 + (1 + 1 + 1) ≤ 256)
  | @served q bm data m branch decoded bitmap granted serves =>
    rw [← Option.some.inj (hbranch.symm.trans branch), hpdu] at decoded
    obtain rfl : r = q := Request.message_injective (Option.some.inj (Except.ok.inj decoded))
    have hgrants : Grants h r := ⟨bm, bitmap, granted⟩
    have hlen : (frame t m).length ≤ maxApuSize := by
      rw [length_frame, size_served hh bitmap granted serves]
      exact hfits.response
    obtain ⟨hshown, hdevice⟩ := Request.serve_refines hh bitmap granted (hregular hgrants) serves
    rw [perform, if_pos hgrants]
    exact ⟨m, rfl, hlen, observe_served t serves hshown hlen, hdevice⟩

end Calls

end Modbus.EndToEnd
