import Modbus.Client.Framing

/-! # How long a response may be

The client reads a response into a buffer of `MAX_APU_SIZE` = 256 bytes, header
included, and refuses a length field that does not fit behind the header. The
protocol's own limit is `max_pdu_size` = 253 bytes after the unit id, which with
the unit id and the header makes frames of up to 260 bytes. -/
namespace Modbus.Client
open Bytes TcpDataUnit Stream

/-- When the peer sends the frame of `m`, whatever follows it, the read returns that
frame, padded to the client's buffer, without an error. -/
def ReadsBack (t : Word) (m : Message) : Prop :=
  ∀ rest starts, ∃ c', readResponse ⟨⟨frame t m ++ rest, []⟩, starts⟩ =
    (.ok ⟨⟨readBuffer (frame t m), .response⟩, none⟩, c')

/-- A message within the limit of the protocol, a response above all, is read back
exactly when its frame fits into the client's buffer, which leaves out the four longest
sizes. -/
theorem readsBack_iff (t : Word) (m : Message) (hpdu : m.size - 1 ≤ maxPduSize) :
    ReadsBack t m ↔ m.size ≤ 250 := by
  have hlen := length_frame t m
  unfold maxPduSize at hpdu
  have hsize : m.size < 65536 := by omega
  have hbytes := WireFrame.bytes_ofMessage (t := t) hsize
  constructor
  · intro hback
    refine Nat.le_of_not_lt fun hlong => ?_
    have hfield : lengthField (frame t m) = m.size := by
      rw [lengthField_frame, Nat.mod_eq_of_lt hsize]
    have hread := readResponse_oversized (frame t m) []
      (by rw [hlen]; exact Nat.le_add_right _ _)
      (by rw [hfield]; unfold maxApuSize tcpHeaderSize; omega)
    obtain ⟨c', hok⟩ := hback [] []
    rw [List.append_nil, hread] at hok
    cases hok
  · intro hshort rest starts
    have hfits : (WireFrame.ofMessage t m hsize).bytes.length ≤ maxApuSize := by
      rw [hbytes, hlen]
      unfold maxApuSize tcpHeaderSize
      omega
    have hread := readResponse_frame (.ofMessage t m hsize) hfits rest starts
    rw [hbytes] at hread
    exact ⟨_, hread⟩

/-- A response with one register. -/
theorem readsBack_one_register :
    ReadsBack 7 (.readHoldingRegistersResponse ⟨1, [0x12, 0x34]⟩) :=
  (readsBack_iff 7 (.readHoldingRegistersResponse ⟨1, [0x12, 0x34]⟩) (by decide)).mpr (by decide)

/-- The answer to a read of 125 registers. -/
def maximalRead : Message := .readHoldingRegistersResponse ⟨1, List.replicate 250 0⟩

/-- Its PDU has 252 bytes, and the client refuses its frame. -/
theorem maximal_read_refused :
    maximalRead.type = .response ∧ maximalRead.size - 1 = 252 ∧
      (readResponse ⟨⟨frame 7 maximalRead, []⟩, []⟩).1 = .ok ⟨empty, some .invalidResponse⟩ ∧
      ¬ ReadsBack 7 maximalRead := by
  have hread : (readResponse ⟨⟨frame 7 maximalRead, []⟩, []⟩).1 =
      .ok ⟨empty, some .invalidResponse⟩ := by
    decide +kernel
  refine ⟨rfl, by decide +kernel, hread, ?_⟩
  intro hback
  obtain ⟨c', hok⟩ := hback [] []
  rw [List.append_nil] at hok
  rw [hok] at hread
  cases hread

end Modbus.Client
