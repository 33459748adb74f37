import Modbus.Core.Frame

/-! # Round trip of whole frames

What a receiver finds in a buffer that starts with a frame, whatever follows the
frame in it: the transaction id, a message of the type that was sent and of no
other, and that very message when its data can be counted in one byte
(`pdu_frame_iff`). A frame of its own is accepted unless the narrowing of its
length to `int` spoils it (`accepts_frame_iff`), and the two give the round trip
with its exact condition. -/
namespace Modbus.TcpDataUnit
open Bytes Checked Walk

/-! ## A buffer that starts with a frame -/

variable (t : Word) (m : Message) (pad : Buffer)

theorem frame_drop_header : (frame t m ++ pad).drop tcpHeaderSize = m.serialize ++ pad := rfl

theorem frame_code : (frame t m ++ pad)[7]? = m.serialize[1]? := by
  obtain ⟨code, hcode, _⟩ := m.serialize_code
  have hlt : 1 < m.serialize.length := (List.getElem?_eq_some_iff.mp hcode).1
  calc (frame t m ++ pad)[7]? = (m.serialize ++ pad)[1]? := rfl
    _ = m.serialize[1]? := List.getElem?_append_left hlt

theorem transactionId_frame : transactionId ⟨frame t m ++ pad, m.type⟩ = .ok t := by
  rw [frame, List.append_assoc, transactionId_header]

/-- The length field holds the low 16 bits of the message size. -/
theorem lengthField_frame : lengthField (frame t m) = m.size % 65536 :=
  lengthField_header t m.size m.serialize

theorem selects_frame_iff {U : MessageKind} :
    Selects ⟨frame t m ++ pad, m.type⟩ U ↔ U = m.kind := by
  obtain ⟨code, hcode, hm⟩ := m.serialize_code
  constructor
  · rintro ⟨htype, code', hcode', hU⟩
    rw [frame_code, hcode] at hcode'
    cases hcode'
    exact hU.unique htype.symm hm
  · rintro rfl
    exact ⟨rfl, code, by rw [frame_code, hcode], hm⟩

theorem pdu_frame_other {U : MessageKind} (hU : U ≠ m.kind) :
    pdu ⟨frame t m ++ pad, m.type⟩ U = .ok none :=
  pdu_of_not_selects fun h => hU ((selects_frame_iff t m pad).mp h)

/-- The message comes back exactly when its byte count was not truncated. -/
theorem pdu_frame_iff {m : Message} (hm : Constructed m) (hc : m.FlagFree) :
    pdu ⟨frame t m ++ pad, m.type⟩ m.kind = .ok (some m) ↔ m.dataBytes ≤ 255 := by
  obtain ⟨bytes, got, hp, hreads, hiff⟩ := Message.decodesBack hm hc
  have hat : bytes <+: (frame t m ++ pad).drop tcpHeaderSize := by
    rw [frame_drop_header]
    exact hp.trans (List.prefix_append _ _)
  have hdec : m.kind.decode (frame t m ++ pad) tcpHeaderSize =
      .ok (got, tcpHeaderSize + bytes.length) := hreads _ _ hat
  have hpdu : pdu ⟨frame t m ++ pad, m.type⟩ m.kind = .ok (some got) := by
    rw [pdu_of_selects ((selects_frame_iff t m pad).mpr rfl), hdec]
    rfl
  rw [hpdu, ← hiff]
  simp

/-! ## A frame of its own -/

/-- A frame is accepted when its size, cut to 32 bits, is a positive `int`. -/
theorem accepts_frame_iff :
    (∃ du, ofBuffer (frame t m) (frame t m).length m.type = .ok du) ↔
      0 < m.size % 0x100000000 ∧ m.size % 0x100000000 < 0x80000000 := by
  have hlong : tcpHeaderSize ≤ (frame t m).length := by
    rw [length_frame]
    exact Nat.le_add_right _ _
  have hacc : (∃ du, ofBuffer (frame t m) (frame t m).length m.type = .ok du) ↔
      Covers (m.size % 65536) m.size := by
    rw [length_frame]
    simp only [ofBuffer_data_iff, lengthField_frame, and_iff_right hlong, exists_and_left,
      exists_eq, and_true]
  rw [hacc]
  unfold Covers
  omega

/-- The round trip of `m` under transaction id `t`: the unit built from it is
accepted when parsed again, with its transaction id, as no other message type,
and as `m` itself exactly up to 255 data bytes. -/
def RoundTrips (t : Word) (m : Message) : Prop :=
  ∃ sent, ofMessage t m = .ok sent ∧
    ∃ du, ofBuffer sent.buffer sent.buffer.length m.kind.type = .ok du ∧
      du.transactionId = .ok t ∧
      (∀ U, U ≠ m.kind → du.pdu U = .ok none) ∧
      (du.pdu m.kind = .ok (some m) ↔ m.dataBytes ≤ 255)

theorem RoundTrips.accepted {t : Word} {m : Message} (h : RoundTrips t m) :
    ∃ du, ofBuffer (frame t m) (frame t m).length m.type = .ok du := by
  obtain ⟨sent, hsent, du, hdu, _⟩ := h
  rw [ofMessage_eq] at hsent
  cases hsent
  exact ⟨du, hdu⟩

/-- The round trip holds for every constructed message whose size is a positive
`int` after the narrowing, so for every message below 2 GiB. -/
theorem roundTrips_iff (t : Word) (m : Message) (hm : Constructed m) (hc : m.FlagFree) :
    RoundTrips t m ↔ 0 < m.size % 0x100000000 ∧ m.size % 0x100000000 < 0x80000000 := by
  rw [← accepts_frame_iff t m]
  constructor
  · exact RoundTrips.accepted
  · rintro ⟨du, hdu⟩
    refine ⟨_, ofMessage_eq t m, du, hdu, ?_⟩
    obtain ⟨_, _, _, rfl⟩ := ofBuffer_ok_iff.mp hdu
    have htid := transactionId_frame t m []
    have hself := pdu_frame_iff t [] hm hc
    rw [List.append_nil] at htid hself
    refine ⟨htid, ?_, hself⟩
    intro U hU
    have hother := pdu_frame_other t m [] hU
    rwa [List.append_nil] at hother

theorem roundTrips_read_coils : RoundTrips 0xFFFF (.readCoilsRequest ⟨17, 0x0013, 0x0025⟩) :=
  (roundTrips_iff 0xFFFF _ (.readCoilsRequest 17 0x0013 0x0025) trivial).mpr (by decide)

/-- A response with 2³¹ data bytes is larger than the largest `int`. -/
theorem not_roundTrips_of_length {values : List Byte} (hlen : values.length = 0x80000000) :
    ¬ RoundTrips 1 (.readCoilsResponse ⟨1, values⟩) := by
  intro h
  have hacc := (accepts_frame_iff 1 _).mp h.accepted
  have hsize : Message.size (.readCoilsResponse ⟨1, values⟩) = 3 + values.length := by
    simp only [Message.size, ByteValues.size]
    omega
  rw [hsize, hlen] at hacc
  omega

/-- So its own frame is refused. -/
theorem two_gib_frame_refused :
    Constructed (.readCoilsResponse ⟨1, List.replicate 0x80000000 0⟩) ∧
      Message.FlagFree (.readCoilsResponse ⟨1, List.replicate 0x80000000 0⟩) ∧
      ¬ RoundTrips 1 (.readCoilsResponse ⟨1, List.replicate 0x80000000 0⟩) :=
  ⟨.readCoilsResponse 1 _, trivial, not_roundTrips_of_length (List.length_replicate ..)⟩

end Modbus.TcpDataUnit
