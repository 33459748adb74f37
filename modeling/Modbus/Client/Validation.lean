import Modbus.Client.Matching
import Modbus.Client.Totality

/-! # Comparing a response with its request (`tcp_client::validate_response`)

A request is compared with the unit that `read_response` returned, which holds all
of the client's 256 bytes, while a request holds its frame and nothing else. The
transaction id and the function code are read at the front and are those of the
received frame, but the bytes of a single write are never equal to those of its echo.
A received frame is judged correctly unless it is that echo (`judgesFrame_iff`). -/
namespace Modbus.Client
open Bytes Checked TcpDataUnit

/-- `create_request`. The counter is reserved before the unit is built. -/
def createRequest (transactionId : Word) (request : Message) : Except Fault TcpDataUnit × Word :=
  let (reserved, next) := reserveTransactionId transactionId
  (ofMessage reserved request, next)

/-- `validate_response`, with nothing for `modbus_client_error_code::success`. -/
def validateResponse (request response : TcpDataUnit) : Except Exn (Option ClientError) := do
  let functionCode ← response.functionCode
  if (← request.transactionId) ≠ (← response.transactionId) then
    return some .invalidResponse
  else if (← request.functionCode) ≠ (← response.functionCode) then
    return some .invalidResponse
  else if functionCode = .writeSingleCoil ∨ functionCode = .writeSingleRegister then
    if !(← response.isException) then
      if request.buffer ≠ response.buffer then
        return some .invalidResponse
      else
        return none
    else
      return none
  else
    return none

/-- The unit `answer` carries the request's transaction id and function code, and when
that function is a single write and the answer is not an exception, the request's
bytes. -/
structure Echoes (request answer : TcpDataUnit) : Prop where
  transactionId : answer.transactionId = request.transactionId
  functionCode : answer.functionCode = request.functionCode
  bytes : request.functionCode = .ok .writeSingleCoil ∨
      request.functionCode = .ok .writeSingleRegister →
    answer.isException = .ok false → answer.buffer = request.buffer

theorem functionCode_of_getElem {du : TcpDataUnit} {code : Byte} (h : du.buffer[7]? = some code) :
    du.functionCode = .ok (code &&& 0x7F#8) := by
  simp only [functionCode, elementAt, h, ok_bind, pure_eq_ok]

theorem isException_of_getElem {du : TcpDataUnit} {code : Byte} (h : du.buffer[7]? = some code) :
    du.isException = .ok (decide (code &&& 0x80#8 ≠ 0#8)) := by
  simp only [isException, elementAt, h, ok_bind, pure_eq_ok]

/-- The functions whose response repeats the request. -/
def IsSingleWrite (code : FunctionCode) : Prop :=
  code = .writeSingleCoil ∨ code = .writeSingleRegister

instance (code : FunctionCode) : Decidable (IsSingleWrite code) :=
  inferInstanceAs (Decidable (_ ∨ _))

section Comparison
variable {request answer : TcpDataUnit} {id id' : Word} {sent : FunctionCode} {code : Byte}

/-- What an echo is, by the values that the accessors return. -/
theorem echoes_iff (hid : request.transactionId = .ok id) (hsent : request.functionCode = .ok sent)
    (hid' : answer.transactionId = .ok id') (hcode : answer.buffer[7]? = some code) :
    Echoes request answer ↔ id' = id ∧ code &&& 0x7F#8 = sent ∧
      (IsSingleWrite sent → code &&& 0x80#8 = 0#8 → answer.buffer = request.buffer) := by
  have hfc := functionCode_of_getElem hcode
  have hex := isException_of_getElem hcode
  constructor
  · intro ⟨htid, hfunction, hbytes⟩
    simp only [hid, hsent, hid', hfc, hex, Except.ok.injEq, decide_eq_false_iff_not,
      not_not] at htid hfunction hbytes
    exact ⟨htid, hfunction, hbytes⟩
  · intro ⟨htid, hfunction, hbytes⟩
    constructor <;> simp only [hid, hsent, hid', hfc, hex, Except.ok.injEq,
      decide_eq_false_iff_not, not_not]
    · exact htid
    · exact hfunction
    · exact hbytes

/-- Where no accessor throws, the comparison finds out whether the response echoes the
request. -/
theorem validateResponse_iff (hid : request.transactionId = .ok id)
    (hsent : request.functionCode = .ok sent) (hid' : answer.transactionId = .ok id')
    (hcode : answer.buffer[7]? = some code) :
    validateResponse request answer = .ok none ↔ Echoes request answer := by
  rw [echoes_iff hid hsent hid' hcode]
  simp only [validateResponse, hid, hsent, hid', functionCode_of_getElem hcode,
    isException_of_getElem hcode, ok_bind, pure_eq_ok]
  by_cases htid : id = id'
  · subst htid
    by_cases hfunction : sent = code &&& 0x7F#8
    · subst hfunction
      by_cases hsingle : IsSingleWrite (code &&& 0x7F#8)
      · have hbranch := hsingle
        unfold IsSingleWrite at hbranch
        by_cases hflag : code &&& 0x80#8 = 0#8
        · by_cases hbytes : answer.buffer = request.buffer
          · simp [hbranch, hflag, hbytes]
          · simp [hsingle, hbranch, hflag, hbytes, Ne.symm hbytes]
        · simp [hbranch, hflag]
      · have hbranch := hsingle
        unfold IsSingleWrite at hbranch
        simp [hsingle, hbranch]
    · simp [hfunction, Ne.symm hfunction]
  · simp [htid, Ne.symm htid]

end Comparison

/-! ## Requests -/

/-- The two requests whose responses repeat them. -/
def SingleWrite (m : Message) : Prop :=
  m.kind = .writeSingleCoilRequest ∨ m.kind = .writeSingleRegisterRequest

theorem createRequest_eq (t : Word) (m : Message) :
    createRequest t m = (.ok ⟨frame t m, m.type⟩, t + 1) := by
  simp only [createRequest, reserveTransactionId, ofMessage_eq]

/-- A request has a function code, which is not zero, and its frame has it without the
exception flag. -/
theorem request_code {m : Message} (hm : m.type = .request) (t : Word) :
    ∃ sent, m.kind.functionCode = some sent ∧ (frame t m)[7]? = some sent ∧
      sent &&& 0x7F#8 = sent ∧ sent &&& 0x80#8 = 0#8 ∧ sent ≠ 0 := by
  have hpos : ∃ sent, m.kind.functionCode = some sent ∧ sent ≠ 0 := by
    cases m <;> cases hm <;> exact ⟨_, rfl, by decide⟩
  obtain ⟨sent, hsent, hne⟩ := hpos
  obtain ⟨code, hcode, hmatch⟩ := m.serialize_code
  rw [MessageKind.Matches, hsent] at hmatch
  subst hmatch
  have hflag := MessageKind.functionCode_flag hsent
  have hframe := frame_code t m []
  rw [List.append_nil, hcode] at hframe
  exact ⟨code, hsent, hframe, flag_clear code hflag, hflag, hne⟩

theorem isSingleWrite_iff {m : Message} {sent : FunctionCode} (hm : m.type = .request)
    (hsent : m.kind.functionCode = some sent) : IsSingleWrite sent ↔ SingleWrite m := by
  cases m <;> cases hm <;> cases hsent <;> simp [IsSingleWrite, SingleWrite, Message.kind] <;> decide

theorem length_singleWrite {m : Message} (h : SingleWrite m) (t : Word) :
    (frame t m).length = 12 := by
  rw [length_frame]
  cases m <;> simp [SingleWrite, Message.kind] at h <;> rfl

/-! ## Received frames -/

/-- The unit that a read returned is the received frame with zero bytes behind it. -/
theorem readResponse_received {c c' : Connection} {r : TcpDataUnit} {f : Buffer}
    (h : readResponse c = (.ok ⟨r, none⟩, c')) (hf : c.source.rest = f ++ c'.source.rest) :
    tcpHeaderSize ≤ f.length ∧ f.length ≤ maxApuSize ∧ r = ⟨readBuffer f, .response⟩ := by
  obtain ⟨head, body, hhead, _, hfits, happ, rfl⟩ := readResponse_ok h
  rw [hf, ← List.append_assoc] at happ
  have hsame : head ++ body = f := List.append_cancel_right happ
  have hlen : f.length = tcpHeaderSize + body.length := by
    rw [← hsame, List.length_append, hhead]
  refine ⟨?_, ?_, by rw [hsame]⟩
  · rw [hlen]
    exact Nat.le_add_right _ _
  · rw [hlen, Nat.add_comm]
    exact hfits

/-- The front of the client's buffer is the frame's. -/
theorem transactionId_received {f : Buffer} (h : tcpHeaderSize ≤ f.length) :
    ∃ id, transactionId ⟨f, .response⟩ = .ok id ∧
      transactionId ⟨readBuffer f, .response⟩ = .ok id := by
  unfold tcpHeaderSize at h
  have hpad : 2 ≤ (readBuffer f).length := by
    rw [readBuffer, List.length_append]
    omega
  refine ⟨_, transactionId_getD (Nat.le_of_add_right_le (k := 4) h), ?_⟩
  rw [transactionId_getD hpad, readBuffer, List.getD_append _ _ _ _ (by omega),
    List.getD_append _ _ _ _ (by omega)]

theorem code_received {f : Buffer} {code : Byte} (h : f[7]? = some code) :
    (readBuffer f)[7]? = some code := by
  rw [readBuffer, List.getElem?_append_left (List.getElem?_eq_some_iff.mp h).1, h]

/-- A frame without a code byte is read as one with code zero. -/
theorem code_missing {f : Buffer} (h : f[7]? = none) : (readBuffer f)[7]? = some 0 := by
  rw [List.getElem?_eq_none_iff] at h
  rw [readBuffer, List.getElem?_append_right h, List.getElem?_replicate, if_pos]
  unfold maxApuSize
  omega

/-- The verdict on a received frame is success exactly when the frame echoes the
request. -/
def JudgesFrame (request response : TcpDataUnit) (received : Buffer) : Prop :=
  validateResponse request response = .ok none ↔ Echoes request ⟨received, .response⟩

section Frames
variable {t : Word} {m : Message} {f : Buffer} {id : Word} {sent : FunctionCode}

/-- A frame without a code byte is refused, and it is nobody's echo. -/
theorem judgesFrame_short (hcode : f[7]? = none)
    (hid : transactionId ⟨readBuffer f, .response⟩ = .ok id)
    (htid : transactionId ⟨frame t m, m.type⟩ = .ok t)
    (hfunction : functionCode ⟨frame t m, m.type⟩ = .ok sent) (hne : sent ≠ 0) :
    JudgesFrame ⟨frame t m, m.type⟩ ⟨readBuffer f, .response⟩ f := by
  have hrefused : ¬ validateResponse ⟨frame t m, m.type⟩ ⟨readBuffer f, .response⟩ = .ok none := by
    rw [validateResponse_iff htid hfunction hid (code_missing hcode),
      echoes_iff htid hfunction hid (code_missing hcode)]
    exact fun hechoes => hne hechoes.2.1.symm
  have hsilent : ¬ Echoes ⟨frame t m, m.type⟩ ⟨f, .response⟩ := by
    intro hechoes
    have hthrown := hechoes.functionCode
    rw [hfunction] at hthrown
    simp [functionCode, elementAt, hcode, bind, Except.bind] at hthrown
  exact iff_of_false hrefused hsilent

/-- Frame and buffer have the same id and code, but the bytes of a single write equal
those of the frame alone. -/
theorem judgesFrame_coded {code : Byte} (hcode : f[7]? = some code) (hfits : f.length ≤ maxApuSize)
    (hid : transactionId ⟨f, .response⟩ = .ok id)
    (hid' : transactionId ⟨readBuffer f, .response⟩ = .ok id)
    (htid : transactionId ⟨frame t m, m.type⟩ = .ok t)
    (hfunction : functionCode ⟨frame t m, m.type⟩ = .ok sent)
    (hsingle_iff : IsSingleWrite sent ↔ SingleWrite m)
    (hecho : f = frame t m → id = t ∧ code &&& 0x7F#8 = sent ∧ code &&& 0x80#8 = 0#8) :
    JudgesFrame ⟨frame t m, m.type⟩ ⟨readBuffer f, .response⟩ f ↔
      ¬ (SingleWrite m ∧ f = frame t m) := by
  have hpadded : SingleWrite m → readBuffer f ≠ frame t m := by
    intro hsingle hsame
    have hlen := length_readBuffer hfits
    rw [hsame, length_singleWrite hsingle] at hlen
    cases hlen
  rw [JudgesFrame, validateResponse_iff htid hfunction hid' (code_received hcode),
    echoes_iff htid hfunction hid' (code_received hcode), echoes_iff htid hfunction hid hcode,
    hsingle_iff]
  constructor
  · intro hjudges hown
    obtain ⟨hsingle, hsame⟩ := hown
    obtain ⟨htid', hcode', hflag'⟩ := hecho hsame
    have haccepted := hjudges.mpr ⟨htid', hcode', fun _ _ => hsame⟩
    exact hpadded hsingle (haccepted.2.2 hsingle hflag')
  · intro hnot
    refine and_congr_right fun _ => and_congr_right fun _ => ?_
    refine forall_congr' fun hsingle => forall_congr' fun _ => ?_
    exact iff_of_false (hpadded hsingle) fun hsame => hnot ⟨hsingle, hsame⟩

end Frames

/-- For every request and every received frame but the echo of a single write. -/
theorem judgesFrame_iff (t : Word) (m : Message) (q r : TcpDataUnit) (c c' : Connection)
    (f : Buffer) (hm : m.type = .request) (hq : (createRequest t m).1 = .ok q)
    (hread : readResponse c = (.ok ⟨r, none⟩, c')) (hf : c.source.rest = f ++ c'.source.rest) :
    JudgesFrame q r f ↔ ¬ (SingleWrite m ∧ f = q.buffer) := by
  rw [createRequest_eq] at hq
  cases hq
  obtain ⟨hlong, hfits, rfl⟩ := readResponse_received hread hf
  obtain ⟨sent, hsent, hseven, hclear, hflag, hne⟩ := request_code hm t
  obtain ⟨id, hid, hid'⟩ := transactionId_received hlong
  have htid : transactionId ⟨frame t m, m.type⟩ = .ok t := by
    simpa using transactionId_frame t m []
  have hfunction : functionCode ⟨frame t m, m.type⟩ = .ok sent := by
    rw [functionCode_of_getElem hseven, hclear]
  cases hcode : f[7]? with
  | none =>
    refine iff_of_true (judgesFrame_short hcode hid' htid hfunction hne) fun hown => ?_
    rw [hown.2, hseven] at hcode
    cases hcode
  | some code =>
    refine judgesFrame_coded hcode hfits hid hid' htid hfunction (isSingleWrite_iff hm hsent) ?_
    intro hsame
    subst hsame
    rw [hseven] at hcode
    cases hcode
    have hsameId : transactionId ⟨frame t m, .response⟩ = .ok t := htid
    rw [hid] at hsameId
    cases hsameId
    exact ⟨rfl, hclear, hflag⟩

/-- The answer to a read request. -/
theorem judgesFrame_coils :
    JudgesFrame (coilRequest 2) ⟨readBuffer (coilAnswer 2).bytes, .response⟩ (coilAnswer 2).bytes :=
  (judgesFrame_iff 2 (.readCoilsRequest ⟨1, 0, 8⟩) (coilRequest 2)
    ⟨readBuffer (coilAnswer 2).bytes, .response⟩ ⟨⟨(coilAnswer 2).bytes, []⟩, []⟩
    ⟨⟨[], []⟩, [(coilAnswer 2).bytes]⟩ (coilAnswer 2).bytes rfl
    (congrArg Prod.fst (createRequest_eq 2 (.readCoilsRequest ⟨1, 0, 8⟩)))
    (by
      have hread := readResponse_frame (coilAnswer 2) (by decide) [] []
      rwa [List.append_nil] at hread)
    (by rw [List.append_nil])).mpr (by
      intro h
      rcases h.1 with hkind | hkind <;> cases hkind)

/-- A server that switches a coil on repeats the request, and is refused for it. -/
theorem echo_refused :
    let m : Message := .writeSingleCoilRequest ⟨1, 0, true⟩
    let echo := frame 1 m
    (createRequest 1 m).1 = .ok ⟨echo, .request⟩ ∧
      readResponse ⟨⟨echo, []⟩, []⟩ =
        (.ok ⟨⟨readBuffer echo, .response⟩, none⟩, ⟨⟨[], []⟩, [echo]⟩) ∧
      Echoes ⟨echo, .request⟩ ⟨echo, .response⟩ ∧
      validateResponse ⟨echo, .request⟩ ⟨readBuffer echo, .response⟩ =
        .ok (some .invalidResponse) ∧
      ¬ JudgesFrame ⟨echo, .request⟩ ⟨readBuffer echo, .response⟩ echo := by
  intro m echo
  have hechoes : Echoes ⟨echo, .request⟩ ⟨echo, .response⟩ := ⟨rfl, rfl, fun _ _ => rfl⟩
  have hrefused : validateResponse ⟨echo, .request⟩ ⟨readBuffer echo, .response⟩ =
      .ok (some .invalidResponse) := by decide +kernel
  refine ⟨congrArg Prod.fst (createRequest_eq 1 m), by decide +kernel, hechoes, hrefused, ?_⟩
  intro hjudges
  have hsuccess := hjudges.mpr hechoes
  rw [hrefused] at hsuccess
  cases hsuccess

end Modbus.Client
