import Modbus.Client.TcpClient
import Modbus.Core.RoundTrip

/-! # Reading frames off the stream

A server frame is a header whose length field counts the bytes after it. A read of
a response that starts at a frame and succeeds takes exactly that frame
(`readResponse_frame_ok`), and it succeeds when nothing cuts it and the frame fits
into the buffer (`readResponse_frame`). The messages therefore come back one by one
from a stream of their frames. -/
namespace Modbus.Client
open Bytes Checked TcpDataUnit Stream

/-- A frame as a server sends it; what its body means is left open. -/
structure WireFrame where
  transactionId : Word
  body : Buffer
  nonempty : body ≠ []
  counted : body.length < 65536
deriving DecidableEq, Repr

def WireFrame.bytes (f : WireFrame) : Buffer := header f.transactionId f.body.length ++ f.body

/-- The bytes of the frames, as they are sent. -/
def streamOf (frames : List WireFrame) : Buffer := frames.flatMap WireFrame.bytes

theorem WireFrame.length_bytes (f : WireFrame) :
    f.bytes.length = tcpHeaderSize + f.body.length := by
  rw [bytes, List.length_append]
  rfl

theorem lengthField_wire (f : WireFrame) (rest : Buffer) :
    lengthField (header f.transactionId f.body.length ++ rest) = f.body.length := by
  rw [lengthField_header, Nat.mod_eq_of_lt f.counted]

theorem transactionId_wire (f : WireFrame) :
    transactionId ⟨readBuffer f.bytes, .response⟩ = .ok f.transactionId := by
  rw [readBuffer, WireFrame.bytes, List.append_assoc, transactionId_header]

/-- A successful read that starts at a frame takes that frame. -/
theorem readResponse_frame_ok {c c' : Connection} {du : TcpDataUnit} {f : WireFrame}
    {rest : Buffer} (hrest : c.source.rest = f.bytes ++ rest)
    (h : readResponse c = (.ok ⟨du, none⟩, c')) :
    f.bytes.length ≤ maxApuSize ∧ du = ⟨readBuffer f.bytes, .response⟩ ∧
      c'.source.rest = rest := by
  obtain ⟨head, body, hhead, hbody, hfits, happ, rfl⟩ := readResponse_ok h
  rw [hrest, WireFrame.bytes, List.append_assoc] at happ
  obtain ⟨rfl, htail⟩ := List.append_inj happ hhead
  rw [readBuffer, lengthField_wire] at hbody
  obtain ⟨hsame, hrest'⟩ := List.append_inj htail hbody
  rw [hbody] at hfits
  refine ⟨?_, by rw [hsame, WireFrame.bytes], hrest'⟩
  rw [f.length_bytes, Nat.add_comm]
  exact hfits

/-- Nothing can be read where the stream ends. -/
theorem readResponse_end {c c' : Connection} {du : TcpDataUnit} (hrest : c.source.rest = []) :
    readResponse c ≠ (.ok ⟨du, none⟩, c') := by
  intro h
  have := readResponse_consumes h
  rw [hrest] at this
  cases this

/-! ## Reads that are not cut -/

section Uncut
variable (rest : Buffer) (starts : List Buffer)

theorem lengthField_readBuffer {b : Buffer} (h : tcpHeaderSize ≤ b.length) :
    lengthField (readBuffer b) = lengthField b :=
  lengthField_append h _

/-- The header of an uncut read. -/
theorem read_header {rest : Buffer} (h : tcpHeaderSize ≤ rest.length) :
    read NetError.timedOut tcpHeaderSize ⟨rest, []⟩ =
        (none, rest.take tcpHeaderSize, ⟨rest.drop tcpHeaderSize, []⟩) ∧
      (rest.take tcpHeaderSize).length = tcpHeaderSize ∧
      lengthField (readBuffer (rest.take tcpHeaderSize)) = lengthField rest := by
  have hlen : (rest.take tcpHeaderSize).length = tcpHeaderSize := by
    rw [List.length_take, Nat.min_eq_left h]
  refine ⟨read_unplanned _ h, hlen, ?_⟩
  rw [lengthField_readBuffer (Nat.le_of_eq hlen.symm), lengthField_take (Nat.le_refl _) h]

/-- A message that does not fit into the buffer behind its header is refused, and its
bytes stay unread. -/
theorem readResponse_oversized (h : tcpHeaderSize ≤ rest.length)
    (hlong : maxApuSize < lengthField rest + tcpHeaderSize) :
    readResponse ⟨⟨rest, []⟩, starts⟩ =
      (.ok ⟨empty, some .invalidResponse⟩, ⟨⟨rest.drop tcpHeaderSize, []⟩, starts ++ [rest]⟩) := by
  obtain ⟨hhead, hsix, hfield⟩ := read_header h
  simp only [readResponse, hhead, hsix, hfield, ne_eq, not_true_eq_false, if_false, gt_iff_lt,
    if_pos hlong]

/-- An uncut read of a message that fits hands everything it read to the
constructor. -/
theorem readResponse_uncut (h : tcpHeaderSize + lengthField rest ≤ rest.length)
    (hfits : tcpHeaderSize + lengthField rest ≤ maxApuSize) :
    readResponse ⟨⟨rest, []⟩, starts⟩ =
      ((ofBuffer (readBuffer (rest.take (tcpHeaderSize + lengthField rest)))
          (tcpHeaderSize + lengthField rest) .response).map fun du => ⟨du, none⟩,
        ⟨⟨rest.drop (tcpHeaderSize + lengthField rest), []⟩, starts ++ [rest]⟩) := by
  obtain ⟨hhead, hsix, hfield⟩ := read_header (Nat.le_of_add_right_le h)
  have hbody : read NetError.timedOut (lengthField rest) ⟨rest.drop tcpHeaderSize, []⟩ =
      (none, (rest.drop tcpHeaderSize).take (lengthField rest),
        ⟨(rest.drop tcpHeaderSize).drop (lengthField rest), []⟩) := by
    apply read_unplanned
    rw [List.length_drop]
    omega
  have hlen : ((rest.drop tcpHeaderSize).take (lengthField rest)).length = lengthField rest := by
    rw [List.length_take, List.length_drop]
    omega
  have hfit : ¬ tcpHeaderSize + lengthField rest > maxApuSize := Nat.not_lt.mpr hfits
  simp only [readResponse, hhead, hsix, hfield, hfit, hbody, hlen, ne_eq, not_true_eq_false,
    if_false, List.drop_drop, ← List.take_add, Nat.add_comm (lengthField rest) tcpHeaderSize]
  cases ofBuffer (readBuffer (rest.take (tcpHeaderSize + lengthField rest)))
    (tcpHeaderSize + lengthField rest) .response <;> rfl

theorem length_readBuffer {received : Buffer} (h : received.length ≤ maxApuSize) :
    (readBuffer received).length = maxApuSize := by
  rw [readBuffer, List.length_append, List.length_replicate]
  omega

/-- The constructor accepts what was read unless the header announced no message. -/
theorem ofBuffer_readBuffer {b : Buffer} (h : b.length = tcpHeaderSize + lengthField b)
    (hfits : b.length ≤ maxApuSize) (hpos : 0 < lengthField b) :
    ofBuffer (readBuffer b) b.length .response = .ok ⟨readBuffer b, .response⟩ := by
  apply ofBuffer_front
  · rw [h]
    exact Nat.lt_add_of_pos_right hpos
  · exact hfits
  · exact Nat.le_of_eq h.symm

end Uncut

/-- A read that is not cut takes a frame that fits into the buffer. -/
theorem readResponse_frame (f : WireFrame) (hfits : f.bytes.length ≤ maxApuSize) (rest : Buffer)
    (starts : List Buffer) :
    readResponse ⟨⟨f.bytes ++ rest, []⟩, starts⟩ =
      (.ok ⟨⟨readBuffer f.bytes, .response⟩, none⟩, ⟨⟨rest, []⟩, starts ++ [f.bytes ++ rest]⟩) := by
  have hlen := f.length_bytes
  have hfield : ∀ more, lengthField (f.bytes ++ more) = f.body.length := by
    intro more
    rw [WireFrame.bytes, List.append_assoc, lengthField_wire]
  have hself : lengthField f.bytes = f.body.length := by
    simpa using hfield []
  have hall : tcpHeaderSize + lengthField (f.bytes ++ rest) = f.bytes.length := by
    rw [hfield, hlen]
  have hacc : ofBuffer (readBuffer f.bytes) f.bytes.length .response =
      .ok ⟨readBuffer f.bytes, .response⟩ := by
    apply ofBuffer_readBuffer
    · rw [hself, hlen]
    · exact hfits
    · rw [hself]
      exact List.length_pos_iff.mpr f.nonempty
  have hread := readResponse_uncut (f.bytes ++ rest) starts
    (by rw [hall, List.length_append]; exact Nat.le_add_right _ _) (by rwa [hall])
  rw [hall, List.take_left, List.drop_left, hacc] at hread
  exact hread

/-! ## Messages from a stream of frames -/

/-- The frame of a message whose size its length field can hold. -/
def WireFrame.ofMessage (t : Word) (m : Message) (h : m.size < 65536) : WireFrame where
  transactionId := t
  body := m.serialize
  nonempty := by
    obtain ⟨code, hcode, _⟩ := m.serialize_code
    intro hnil
    rw [hnil] at hcode
    cases hcode
  counted := by rw [m.length_serialize]; exact h

theorem WireFrame.bytes_ofMessage {t : Word} {m : Message} (h : m.size < 65536) :
    (WireFrame.ofMessage t m h).bytes = frame t m := by
  rw [bytes, ofMessage, m.length_serialize, frame]

/-- `k` reads, one after the other. -/
def readResponses : Nat → Connection → List (Except Exn ReadResponse) × Connection
  | 0, c => ([], c)
  | k + 1, c =>
    let (result, c) := readResponse c
    let (results, c) := readResponses k c
    (result :: results, c)

/-- Every response is built by its value constructor. -/
theorem constructed_of_response {m : Message} (hm : m.type = .response) : Constructed m := by
  cases m <;> cases hm <;> constructor

theorem dataBytes_le_size (m : Message) : m.dataBytes ≤ m.size := by
  cases m <;>
    simp only [Message.dataBytes, Message.size, ByteValues.size, WriteMultipleCoilsRequest.size,
      WriteMultipleRegistersRequest.size, ReadWriteRegistersRequest.size,
      ReadWriteRegistersResponse.size] <;> omega

/-- The read returned the message under its transaction id. -/
def Returns (q : Word × Message) (result : Except Exn ReadResponse) : Prop :=
  ∃ du, result = .ok ⟨du, none⟩ ∧ du.transactionId = .ok q.1 ∧ du.pdu q.2.kind = .ok (some q.2)

theorem readResponse_message {t : Word} {m : Message} (hm : m.type = .response)
    (hc : m.FlagFree) (hfits : (frame t m).length ≤ maxApuSize) (rest : Buffer)
    (starts : List Buffer) :
    ∃ result, readResponse ⟨⟨frame t m ++ rest, []⟩, starts⟩ =
        (result, ⟨⟨rest, []⟩, starts ++ [frame t m ++ rest]⟩) ∧ Returns (t, m) result := by
  have hlen := length_frame t m
  have hsize : m.size < 65536 := by
    unfold maxApuSize at hfits
    omega
  have hbytes := WireFrame.bytes_ofMessage (t := t) hsize
  have hread := readResponse_frame (.ofMessage t m hsize) (by rwa [hbytes]) rest starts
  rw [hbytes] at hread
  refine ⟨_, hread, _, rfl, ?_, ?_⟩
  · rw [← hbytes]
    exact transactionId_wire _
  · have hcount : m.dataBytes ≤ 255 := by
      have := dataBytes_le_size m
      unfold maxApuSize tcpHeaderSize at *
      omega
    have hpdu := (pdu_frame_iff t (List.replicate (maxApuSize - (frame t m).length) 0)
      (constructed_of_response hm) hc).mpr hcount
    rwa [hm] at hpdu

/-- A stream of response frames that fit into the client's buffer comes back as the
responses, in order, and is consumed. -/
theorem readResponses_stream (responses : List (Word × Message))
    (hresp : ∀ q ∈ responses, q.2.type = .response) (hflag : ∀ q ∈ responses, q.2.FlagFree)
    (hfits : ∀ q ∈ responses, (frame q.1 q.2).length ≤ maxApuSize) (starts : List Buffer) :
    ∃ results c', readResponses responses.length
        ⟨⟨responses.flatMap fun q => frame q.1 q.2, []⟩, starts⟩ = (results, c') ∧
      c'.source.rest = [] ∧ List.Forall₂ Returns responses results := by
  induction responses generalizing starts with
  | nil => exact ⟨[], _, rfl, rfl, .nil⟩
  | cons q responses ih =>
    obtain ⟨result, hread, hret⟩ := readResponse_message (t := q.1) (hresp q List.mem_cons_self)
      (hflag q List.mem_cons_self) (hfits q List.mem_cons_self)
      (responses.flatMap fun q => frame q.1 q.2) starts
    obtain ⟨results, c', hrun, hrest, hall⟩ := ih
      (fun x hx => hresp x (List.mem_cons_of_mem q hx))
      (fun x hx => hflag x (List.mem_cons_of_mem q hx))
      (fun x hx => hfits x (List.mem_cons_of_mem q hx))
      (starts ++ [frame q.1 q.2 ++ responses.flatMap fun q => frame q.1 q.2])
    refine ⟨result :: results, c', ?_, hrest, .cons hret hall⟩
    simp only [List.length_cons, List.flatMap_cons, readResponses, hread, hrun]

/-- A coil response and an exception. -/
theorem readResponses_two :
    ∃ results c', readResponses 2
        ⟨⟨[((7 : Word), Message.readCoilsResponse ⟨1, [0xCD]⟩),
          (8, .exceptionResponse ⟨1, .readCoils, 2⟩)].flatMap fun q => frame q.1 q.2, []⟩, []⟩ =
          (results, c') ∧
      c'.source.rest = [] ∧
      List.Forall₂ Returns [(7, .readCoilsResponse ⟨1, [0xCD]⟩),
        (8, .exceptionResponse ⟨1, .readCoils, 2⟩)] results :=
  readResponses_stream [(7, .readCoilsResponse ⟨1, [0xCD]⟩),
    (8, .exceptionResponse ⟨1, .readCoils, 2⟩)] (by decide)
    (by
      intro q hq
      rcases List.mem_pair.mp hq with rfl | rfl
      · trivial
      · exact (by decide : (1 : Nat) < 0x80))
    (by decide) []

/-- An exception for a code that has the exception flag already: the decoder clears
the flag, and another message comes back. -/
theorem flagged_exception_changed :
    let m : Message := .exceptionResponse ⟨1, 0x81, 2⟩
    ∃ du c', readResponse ⟨⟨frame 7 m, []⟩, []⟩ = (.ok ⟨du, none⟩, c') ∧
      du.pdu .exceptionResponse = .ok (some (.exceptionResponse ⟨1, 0x01, 2⟩)) ∧
      du.pdu .exceptionResponse ≠ .ok (some m) := by
  refine ⟨⟨readBuffer (frame 7 (.exceptionResponse ⟨1, 0x81, 2⟩)), .response⟩,
    ⟨⟨[], []⟩, [frame 7 (.exceptionResponse ⟨1, 0x81, 2⟩)]⟩, ?_, ?_, ?_⟩ <;> decide +kernel

end Modbus.Client
