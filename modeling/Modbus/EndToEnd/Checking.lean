import Modbus.Client.Validation
import Modbus.EndToEnd.LateAnswers

/-! # What the check of responses says

`validate_response` is for the callers of `send_request`. What a call returns without an
error is the response to its own request, so whatever runs, the check has nothing to find.
It is content with every such response but one kind: the repetition of a single write,
which it compares with all of the client's buffer (`validated_iff`). -/
namespace Modbus.EndToEnd
open Bytes Checked TcpDataUnit Transition Stream Server Client

/-- The check of the response that a frame brings. -/
theorem Brings.valid_iff {f : WireFrame} {a : Answer} (h : Brings f a) :
    validateResponse ⟨frame a.transactionId a.request.message, .request⟩
        ⟨readBuffer f.bytes, .response⟩ = .ok none ↔
      ¬ (SingleWrite a.request.message ∧
        isException ⟨readBuffer f.bytes, .response⟩ = .ok false) := by
  obtain ⟨code, hbyte, hkind⟩ := h.code
  obtain ⟨sent, hkind', hsent, hseven, _⟩ := request_code a.request.kind_type a.transactionId
  obtain rfl : code &&& 0x7F#8 = sent := Option.some.inj (hkind.symm.trans hkind')
  have hid := transactionId_request a.transactionId a.request
  have hfunction : functionCode ⟨frame a.transactionId a.request.message, .request⟩ =
      .ok (code &&& 0x7F#8) := by
    rw [functionCode_of_getElem hsent, hseven]
  have hcode := code_received hbyte
  rw [validateResponse_iff hid hfunction (transactionId_wire f) hcode,
    echoes_iff hid hfunction (transactionId_wire f) hcode, isException_of_getElem hcode,
    isSingleWrite_iff a.request.kind_type hkind]
  constructor
  · rintro ⟨_, _, hbytes⟩ ⟨hsingle, hflag⟩
    -- the buffer of the client is longer than the repetition
    have hclear : code &&& 0x80#8 = 0#8 := by simpa using hflag
    have hlen := congrArg List.length (hbytes hsingle hclear)
    rw [length_readBuffer h.fits, length_singleWrite hsingle] at hlen
    exact absurd hlen (by decide)
  · intro hnot
    refine ⟨h.own, rfl, fun hsingle hclear => absurd ⟨hsingle, ?_⟩ hnot⟩
    simp [hclear]

/-- In every run: when a call that waits on a connection gets a response, without an error,
`validate_response` accepts it for the request, unless the request is a single write and
the response no exception, and then never. -/
theorem validated_iff (config : ServerConfig) (handler : RequestHandler)
    (hhandler : handler.WellFormed) (s : Recorded)
    (h : Run Recorded.step Recorded.Admissible (.initial config handler) s) (id : SessionId)
    (r : Request) (call : Call) (response : TcpDataUnit)
    (hwaiting : (s.network.link id).waiting = some (r, call))
    (hresult : (sendRequest call (s.network.link id).connection).1 = .ok ⟨response, none⟩) :
    validateResponse call.request response = .ok none ↔
      ¬ (SingleWrite r.message ∧ response.isException = .ok false) := by
  obtain ⟨p, _, _, hflow⟩ := (piped_of_run hhandler h).flows id
  obtain ⟨t, hwaits⟩ := hflow.waits r call hwaiting
  rcases (hflow.takes hwaits).2 with hfail | ⟨f, a, _, hbrings, rfl, rfl, htaken⟩
  · exact absurd hresult (hfail response)
  · rw [htaken] at hresult
    cases hresult
    obtain ⟨_, _, _, _, _, _, rfl⟩ := hwaits
    exact hbrings.valid_iff

/-- The response to a single write has arrived. -/
def arrived : List NetworkEvent :=
  (.server (.listen true) :: accepts 0).map .service ++
    [.call 0 2 (.writeSingleCoil ⟨1, 0, true⟩),
      .service (.server (.session 0 (.readDone (.ok firstCoilOnRead)))), .service (.handle 0),
      .service (.server (.session 0 (.written none 12)))]

theorem validated_iff_arrived :
    ∃ s call response, Run Recorded.step Recorded.Admissible (.initial .default .initial) s ∧
      (s.network.link 0).waiting = some (.writeSingleCoil ⟨1, 0, true⟩, call) ∧
      (sendRequest call (s.network.link 0).connection).1 = .ok ⟨response, none⟩ ∧
      isException response = .ok false ∧
      (validateResponse call.request response = .ok none ↔
        ¬ (SingleWrite (Request.message (.writeSingleCoil ⟨1, 0, true⟩)) ∧
          response.isException = .ok false)) := by
  obtain ⟨s, hs, hwaiting, hconnection⟩ : ∃ s,
      exec Recorded.step Recorded.Admissible (.initial .default .initial) arrived = some s ∧
        (s.network.link 0).waiting = some (.writeSingleCoil ⟨1, 0, true⟩,
          { sentCall 2 (.writeSingleCoil ⟨1, 0, true⟩) with available := .ok 0 }) ∧
        (s.network.link 0).connection = ⟨⟨frame 2 firstCoilOn, []⟩, []⟩ := ⟨_, rfl, rfl, rfl⟩
  have hsize : firstCoilOn.size < 65536 := by decide
  have hbytes := @WireFrame.bytes_ofMessage 2 firstCoilOn hsize
  obtain ⟨starts, hloop⟩ := @readLoop_own 2 (.ofMessage 2 firstCoilOn hsize)
    (hbytes ▸ firstCoilOn_fits) rfl [] []
  rw [hbytes, List.append_nil] at hloop
  have hid : transactionId ⟨frame 2 firstCoilOn, .request⟩ = .ok 2 := rfl
  have hresult : (sendRequest { sentCall 2 (.writeSingleCoil ⟨1, 0, true⟩) with available := .ok 0 }
      (s.network.link 0).connection).1 =
        .ok ⟨⟨readBuffer (frame 2 firstCoilOn), .response⟩, none⟩ := by
    rw [hconnection]
    refine (sendRequest_cleared hid (Nat.zero_le _)).1.trans ?_
    rw [List.drop_zero, hloop]
    rfl
  exact ⟨s, _, _, Run.of_exec arrived hs, hwaiting, hresult, by decide,
    validated_iff .default .initial wellFormed_initial s (Run.of_exec arrived hs) 0 _ _ _ hwaiting
      hresult⟩

end Modbus.EndToEnd
