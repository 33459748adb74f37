import Modbus.Server.Device

/-! # When a call is safe

A unit of fewer than eight bytes makes the accessors throw. With the bytes of the
codes, a call ends with a response exactly when the decoder finds what the request
counts, the table of masks has the bits of its last byte, and a granted block write
has its values (`call_ends_iff`); otherwise an index is out of range. A session hands
over its whole buffer, so no request of a client makes the handler throw
(`handled_answered`). -/
namespace Modbus
open Bytes Checked Walk

/-! ## What a request decoder has read -/

section Decoded
variable {b : Buffer} {pos : Nat}

/-- A decoder that got past its two words found them. -/
theorem words_reach {β : Type} {r : β × Nat} {k : Byte → Word → Word → Decoder β}
    (h : (do let u ← next; skip; let x ← nextWord; let y ← nextWord; k u x y : Decoder β) b pos =
      .ok r) : pos + 6 ≤ b.length := by
  obtain ⟨u, hu⟩ := unit_ok h
  obtain ⟨x, hx⟩ := word_ok hu
  obtain ⟨y, p, hy, _⟩ := walk_bind_ok.mp hx
  obtain ⟨rfl, hle⟩ := nextWord_ok hy
  exact hle

/-- The message of a request was read to its end. -/
theorem Server.Request.decode_reaches {q r : Server.Request} {p : Nat}
    (h : q.kind.decode b pos = .ok (r.message, p)) :
    pos + q.kind.readSize b pos ≤ b.length := by
  cases q with
  | readDiscreteInputs | readCoils | readHoldingRegisters | readInputRegisters =>
    obtain ⟨a, ha, _⟩ := wrap_ok h
    exact words_reach ha
  | writeSingleCoil | writeSingleRegister =>
    obtain ⟨a, ha, _⟩ := wrap_ok h
    exact words_reach ha
  | writeMultipleCoils =>
    obtain ⟨a, ha, _⟩ := wrap_ok h
    exact WriteMultipleCoilsRequest.decode_reaches ha
  | writeMultipleRegisters =>
    obtain ⟨a, ha, _⟩ := wrap_ok h
    exact WriteMultipleRegistersRequest.decode_reaches ha

end Decoded

namespace Server
open TcpDataUnit

/-- `pdu` returns a request exactly when it is the one to decode and all of it is there. -/
theorem pdu_returns_iff {request : TcpDataUnit} {code : FunctionCode} {T : MessageKind}
    (hkind : requestKind code = some T) :
    (∃ m, request.pdu T = .ok m) ↔
      (request.Selects T →
        tcpHeaderSize + T.readSize request.buffer tcpHeaderSize ≤ request.buffer.length) := by
  obtain ⟨_, q, rfl⟩ := requestKind_iff.mp hkind
  by_cases hsel : request.Selects q.kind
  · constructor
    · rintro ⟨m, hm⟩ _
      cases m with
      | none => exact absurd hm (pdu_ne_none hsel)
      | some m =>
        obtain ⟨r, _, rfl, _⟩ := request_of_pdu hkind hm
        obtain ⟨_, p, hdecode⟩ := decode_of_pdu hm
        exact Request.decode_reaches hdecode
    · intro hfits
      obtain ⟨m, hm⟩ := (q.kind.readsAt (hfits hsel)).ok
      exact ⟨some m, by rw [pdu_of_selects hsel, hm]; rfl⟩
  · exact iff_of_true ⟨none, pdu_of_not_selects hsel⟩ fun h => absurd h hsel

/-- The indices of a call are in range: the request has the bytes it counts, its last byte
of addresses is in the table of masks and, when it is granted, it has its values. -/
def InBounds (h : RequestHandler) (request : TcpDataUnit) : Prop :=
  ∀ code T, request.functionCode = .ok code → requestKind code = some T → request.Selects T →
    tcpHeaderSize + T.readSize request.buffer tcpHeaderSize ≤ request.buffer.length ∧
      ∀ r : Request, request.pdu T = .ok (some r.message) →
        r.length % 8 + r.startAddress % 8 ≤ 8 ∧
          (Accepted (h.validAddresses r.dataRow) r.startAddress r.length → r.Safe)

theorem length_lt_word (r : Request) : r.length < 0x10000 := by
  cases r <;> first | exact BitVec.isLt _ | exact (by decide : 1 < 0x10000)

/-- The accessors return exactly when the bytes of the codes are there. -/
theorem codes_return_iff {request : TcpDataUnit} :
    (∃ code t unitId, request.functionCode = .ok code ∧ request.transactionId = .ok t ∧
      request.unitId = .ok unitId) ↔ 8 ≤ request.buffer.length := by
  constructor
  · rintro ⟨code, _, _, hcode, _⟩
    obtain ⟨c, hc, _⟩ := bind_ok.mp hcode
    exact (List.getElem?_eq_some_iff.mp (elementAt_ok.mp hc)).1
  · intro hlen
    have hget : ∀ i < 8, ∃ x, elementAt request.buffer i = .ok x := fun i hi => by
      obtain ⟨x, hx⟩ : ∃ x, request.buffer[i]? = some x := exists_get (by omega)
      exact ⟨x, elementAt_ok.mpr hx⟩
    obtain ⟨hi, hhi⟩ := hget 0 (by decide)
    obtain ⟨lo, hlo⟩ := hget 1 (by decide)
    obtain ⟨unitId, hunit⟩ := hget 6 (by decide)
    obtain ⟨code, hcode⟩ := hget 7 (by decide)
    refine ⟨code &&& 0x7F#8, word hi lo, unitId, ?_, ?_, hunit⟩
    · rw [functionCode, hcode]
      rfl
    · rw [transactionId, hhi, hlo]
      rfl

/-- The access check has an index for every byte it compares. -/
theorem legalAddress_total (mask bm : Buffer) (start : Nat) :
    ∃ legal, legalAddress mask bm start = .ok legal := by
  unfold legalAddress
  split
  · exact ⟨false, rfl⟩
  · dsimp only
    split
    · exact ⟨false, rfl⟩
    · refine allM_total fun i hi => ?_
      obtain ⟨x, hx⟩ : ∃ x, bm[i]? = some x := exists_get (List.mem_range.mp hi)
      obtain ⟨y, hy⟩ : ∃ y, mask[i + start / 8]? = some y := by
        have hlt := List.mem_range.mp hi
        exact exists_get (by omega)
      exact ⟨_, bind_ok.mpr ⟨x, get_ok.mpr hx, bind_ok.mpr ⟨y, get_ok.mpr hy, rfl⟩⟩⟩

theorem Request.message_injective {q r : Request} (h : q.message = r.message) : q = r := by
  have hsome := congrArg Request.ofMessage h
  rw [Request.ofMessage_message, Request.ofMessage_message] at hsome
  exact Option.some.inj hsome

/-- With the bytes of the codes a call does not throw. -/
theorem call_throws_iff {h : RequestHandler} {request : TcpDataUnit} :
    (∃ e, h.call request = .error (.threw e)) ↔ request.buffer.length < 8 := by
  constructor
  · rintro ⟨e, hcall⟩
    refine Nat.lt_of_not_le fun hlen => ?_
    obtain ⟨code, t, unitId, hcode, ht, hunit⟩ := codes_return_iff.mpr hlen
    simp only [RequestHandler.call, hcode, ht, hunit, Except.mapError, ok_bind] at hcall
    cases hanswer : h.answer request code t unitId with
    | error f =>
      rw [hanswer] at hcall
      cases hcall
    | ok r =>
      rw [hanswer] at hcall
      cases hcall
  · intro hlen
    have hcode : request.functionCode = .error .outOfRange := by
      rw [functionCode, elementAt, List.getElem?_eq_none (by omega)]
      rfl
    exact ⟨.outOfRange, by rw [RequestHandler.call, hcode]; rfl⟩

section Calls
variable {h : RequestHandler} {request : TcpDataUnit} {code : FunctionCode} {t : Word}
  {unitId : Byte}

/-- When the branch of a decoded request ends. -/
theorem branch_ends_iff (hh : h.WellFormed) {r : Request} (hkind : requestKind code = some r.kind)
    (hdecoded : request.pdu r.kind = .ok (some r.message)) :
    (∃ response h', Answers h request code t unitId response h') ↔
      r.length % 8 + r.startAddress % 8 ≤ 8 ∧
        (Accepted (h.validAddresses r.dataRow) r.startAddress r.length → r.Safe) := by
  constructor
  · rintro ⟨response, h', hanswers⟩
    cases hanswers with
    | illegalFunction branch =>
      rw [branch] at hkind
      cases hkind
    | deviceFailure branch decoded =>
      obtain rfl := Option.some.inj (hkind.symm.trans branch)
      rw [hdecoded] at decoded
      cases decoded
    | @illegalDataAddress q bm branch decoded bitmap refused =>
      rw [← Option.some.inj (hkind.symm.trans branch), hdecoded] at decoded
      obtain rfl : r = q := Request.message_injective (Option.some.inj (Except.ok.inj decoded))
      refine ⟨?_, ?_⟩
      · rcases Nat.eq_zero_or_pos r.length with hzero | hpos
        · omega
        · exact createRequestBitMap_high hpos bitmap
      · exact fun haccepted => absurd haccepted (not_accepted bitmap refused)
    | @served q bm data m branch decoded bitmap granted serves =>
      rw [← Option.some.inj (hkind.symm.trans branch), hdecoded] at decoded
      obtain rfl : r = q := Request.message_injective (Option.some.inj (Except.ok.inj decoded))
      have hpos : 1 ≤ r.length := Accepted.pos ⟨bm, bitmap, granted⟩
      exact ⟨createRequestBitMap_high hpos bitmap,
        fun _ => (Request.serve_ok_iff hh unitId bitmap granted).mp ⟨m, data, serves⟩⟩
  · rintro ⟨hhigh, hsafe⟩
    obtain ⟨bm, hbm⟩ : ∃ bm, createRequestBitMap r.startAddress r.length = .ok bm := by
      rcases Nat.eq_zero_or_pos r.length with hzero | hpos
      · rw [hzero]
        exact ⟨[], rfl⟩
      · have hlt := length_lt_word r
        exact createRequestBitMap_total _ _ hpos (by unfold intMax; omega) hhigh
    obtain ⟨legal, hlegal⟩ := legalAddress_total (h.validAddresses r.dataRow) bm r.startAddress
    cases legal with
    | false => exact ⟨_, _, .illegalDataAddress hkind hdecoded hbm hlegal⟩
    | true =>
      obtain ⟨m, data, hserve⟩ :=
        (Request.serve_ok_iff hh unitId hbm hlegal).mpr (hsafe ⟨bm, hbm, hlegal⟩)
      exact ⟨_, _, .served hkind hdecoded hbm hlegal hserve⟩

/-- When a call whose codes are there ends. -/
theorem answers_iff (hh : h.WellFormed) (hcode : request.functionCode = .ok code) :
    (∃ response h', Answers h request code t unitId response h') ↔ InBounds h request := by
  constructor
  · rintro ⟨response, h', hanswers⟩ code' T hcode' hkind hsel
    obtain rfl : code = code' := Except.ok.inj (hcode.symm.trans hcode')
    have hreturns : ∃ m, request.pdu T = .ok m := by
      cases hanswers with
      | illegalFunction branch =>
        rw [branch] at hkind
        cases hkind
      | deviceFailure branch decoded =>
        obtain rfl := Option.some.inj (hkind.symm.trans branch)
        exact ⟨none, decoded⟩
      | illegalDataAddress branch decoded | served branch decoded =>
        obtain rfl := Option.some.inj (hkind.symm.trans branch)
        exact ⟨_, decoded⟩
    refine ⟨(pdu_returns_iff hkind).mp hreturns hsel, fun r hr => ?_⟩
    obtain ⟨q, hq, hmessage, rfl⟩ := request_of_pdu hkind hr
    obtain rfl := Request.message_injective hmessage
    exact (branch_ends_iff hh hkind hr).mp ⟨response, h', hanswers⟩
  · intro hbounds
    cases hkind : requestKind code with
    | none => exact ⟨_, _, .illegalFunction hkind⟩
    | some T =>
      by_cases hsel : request.Selects T
      · obtain ⟨hfits, hserves⟩ := hbounds code T hcode hkind hsel
        obtain ⟨m, hm⟩ := (pdu_returns_iff hkind).mpr fun _ => hfits
        cases m with
        | none => exact ⟨_, _, .deviceFailure hkind hm⟩
        | some m =>
          obtain ⟨r, _, rfl, rfl⟩ := request_of_pdu hkind hm
          exact (branch_ends_iff hh hkind hm).mpr (hserves r hm)
      · exact ⟨_, _, .deviceFailure hkind (pdu_of_not_selects hsel)⟩

end Calls

/-- With the bytes of the codes there, a call leaves its vectors when it does not end. -/
theorem faults_iff {h : RequestHandler} {request : TcpDataUnit} (hh : h.WellFormed)
    (hlen : 8 ≤ request.buffer.length) : h.faults request = true ↔ ¬ InBounds h request := by
  obtain ⟨code, t, unitId, hcode, ht, hunit⟩ := codes_return_iff.mpr hlen
  unfold RequestHandler.faults
  cases hcall : h.call request with
  | ok r =>
    obtain ⟨response, h'⟩ := r
    obtain ⟨code', t', unitId', hcode', _, _, hanswers⟩ := call_ok_iff.mp hcall
    exact iff_of_false Bool.false_ne_true fun hout =>
      hout ((answers_iff hh hcode').mp ⟨response, h', hanswers⟩)
  | error failure =>
    cases failure with
    | threw e =>
      have hshort := call_throws_iff.mp ⟨e, hcall⟩
      omega
    | fault f =>
      refine iff_of_true rfl fun hbounds => ?_
      obtain ⟨response, h', hanswers⟩ := (answers_iff hh hcode).mpr hbounds
      have hok := call_ok_iff.mpr ⟨code, t, unitId, hcode, ht, hunit, hanswers⟩
      rw [hcall] at hok
      cases hok

/-- A call ends with a response exactly when the unit has the bytes of the codes and the
indices are in range; it throws exactly when it does not have those bytes. -/
theorem call_ends_iff (h : RequestHandler) (hh : h.WellFormed) (request : TcpDataUnit) :
    ((∃ response h', h.call request = .ok (response, h')) ↔
        8 ≤ request.buffer.length ∧ InBounds h request) ∧
      ((∃ e, h.call request = .error (.threw e)) ↔ request.buffer.length < 8) := by
  refine ⟨?_, ?_⟩
  · constructor
    · rintro ⟨response, h', hcall⟩
      obtain ⟨code, t, unitId, hcode, ht, hunit, hanswers⟩ := call_ok_iff.mp hcall
      exact ⟨codes_return_iff.mp ⟨code, t, unitId, hcode, ht, hunit⟩,
        (answers_iff hh hcode).mp ⟨response, h', hanswers⟩⟩
    · rintro ⟨hlen, hbounds⟩
      obtain ⟨code, t, unitId, hcode, ht, hunit⟩ := codes_return_iff.mpr hlen
      obtain ⟨response, h', hanswers⟩ := (answers_iff hh hcode).mpr hbounds
      exact ⟨response, h', call_ok_iff.mpr ⟨code, t, unitId, hcode, ht, hunit, hanswers⟩⟩
  · exact call_throws_iff

/-- Two registers announced, with one value, in a session's buffer. -/
def shortValues : TcpDataUnit :=
  ⟨[0, 1, 0, 0, 0, 9, 1, 16, 0, 0, 0, 2, 2, 0x12, 0x34] ++ List.replicate 241 0, .request⟩

/-- The handler indexes past them, and answers when one register is announced. -/
theorem call_ends_one_register :
    RequestHandler.initial.call shortValues = .error (.fault (.outOfRange 1 1)) ∧
      ((∃ response h', RequestHandler.initial.call shortValues = .ok (response, h')) ↔
        8 ≤ shortValues.buffer.length ∧ InBounds .initial shortValues) ∧
      ((∃ e, RequestHandler.initial.call shortValues = .error (.threw e)) ↔
        shortValues.buffer.length < 8) :=
  ⟨rfl, call_ends_iff .initial wellFormed_initial shortValues⟩

end Server

end Modbus
