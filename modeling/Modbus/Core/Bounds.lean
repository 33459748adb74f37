import Modbus.Core.Frame

/-! # Where decoding stays inside the buffer

A decoder trusts the byte count it finds. It stays inside the buffer when the
bytes its fixed fields and its byte count ask for are there (`readsAt`), and
nothing else is checked: a message that is too short for them is decoded all the
same, out of whatever follows it. -/
namespace Modbus
open Bytes Checked Walk

/-- The bytes of a message type before its data, byte count included. -/
def MessageKind.fixedSize : MessageKind → Nat
  | .writeMultipleCoilsRequest => 7
  | .writeMultipleRegistersRequest => 7
  | .readWriteRegistersRequest => 11
  | .maskWriteRegisterRequest => 8
  | .exceptionResponse => 3
  | .readCoilsResponse => 3
  | .readDiscreteInputsResponse => 3
  | .readHoldingRegistersResponse => 3
  | .readInputRegistersResponse => 3
  | .readWriteRegistersResponse => 3
  | .maskWriteRegisterResponse => 8
  | _ => 6

/-- The byte count of a message of type `T` at `pos`: the last of its fixed
bytes, in the types that have one. -/
def MessageKind.byteCount (T : MessageKind) (b : Buffer) (pos : Nat) : Nat :=
  match T with
  | .writeMultipleCoilsRequest | .writeMultipleRegistersRequest => (b.getD (pos + 6) 0).toNat
  | .readWriteRegistersRequest => (b.getD (pos + 10) 0).toNat
  | .readCoilsResponse | .readDiscreteInputsResponse | .readHoldingRegistersResponse
  | .readInputRegistersResponse | .readWriteRegistersResponse => (b.getD (pos + 2) 0).toNat
  | _ => 0

/-- The data bytes that are read: an odd byte count asks for one byte more than the
register decoders read. -/
def MessageKind.dataSize (T : MessageKind) (b : Buffer) (pos : Nat) : Nat :=
  match T with
  | .writeMultipleRegistersRequest | .readWriteRegistersRequest | .readWriteRegistersResponse =>
    2 * (T.byteCount b pos / 2)
  | _ => T.byteCount b pos

/-- How far a decoder reads. -/
def MessageKind.readSize (T : MessageKind) (b : Buffer) (pos : Nat) : Nat :=
  T.fixedSize + T.dataSize b pos

theorem MessageKind.readSize_le (T : MessageKind) (b : Buffer) (pos : Nat) :
    T.readSize b pos ≤ T.fixedSize + T.byteCount b pos := by
  have heven : ∀ c : Nat, 2 * (c / 2) ≤ c := fun c => Nat.mul_div_le c 2
  unfold readSize dataSize
  split
  · exact Nat.add_le_add_left (heven _) _
  · exact Nat.add_le_add_left (heven _) _
  · exact Nat.add_le_add_left (heven _) _
  · exact Nat.le_refl _

/-! ## Enough bytes are enough -/

section Enough
variable {b : Buffer} {pos : Nat}

/-- Enough bytes behind a position are a head and the data after it. -/
theorem exists_counted {k n : Nat} (h : pos + (k + n) ≤ b.length) :
    ∃ head vs, head.length = k ∧ vs.length = n ∧ head ++ vs <+: b.drop pos := by
  obtain ⟨bytes, hlen, hp⟩ := exists_prefix h
  refine ⟨bytes.take k, bytes.drop k, ?_, ?_, ?_⟩
  · rw [List.length_take, hlen]
    omega
  · rw [List.length_drop, hlen]
    omega
  · rwa [List.take_append_drop]

/-- A byte of what stands at a position is a byte of the buffer. -/
theorem getD_drop_of_getElem {bytes : List Byte} {i : Nat} {x : Byte} (hp : bytes <+: b.drop pos)
    (hx : bytes[i]? = some x) : b.getD (pos + i) 0 = x := by
  obtain ⟨rest, hrest⟩ := hp
  have hlt : i < bytes.length := (List.getElem?_eq_some_iff.mp hx).1
  have hget : b[pos + i]? = some x := by
    rw [← List.getElem?_drop, ← hrest, List.getElem?_append_left hlt, hx]
  rw [List.getD_eq_getElem?_getD, hget, Option.getD_some]

theorem AddressRange.readsAt (h : pos + 6 ≤ b.length) : ReadsAt decode b pos 6 := by
  obtain ⟨bytes, hlen, hp⟩ := exists_prefix h
  match bytes, hlen with
  | [u, fc, a1, a0, n1, n0], hlen => exact ⟨_, _, hlen, hp, reads u fc a1 a0 n1 n0⟩

theorem CoilValue.readsAt (h : pos + 6 ≤ b.length) : ReadsAt decode b pos 6 := by
  obtain ⟨bytes, hlen, hp⟩ := exists_prefix h
  match bytes, hlen with
  | [u, fc, a1, a0, v1, v0], hlen => exact ⟨_, _, hlen, hp, reads u fc a1 a0 v1 v0⟩

theorem RegisterValue.readsAt (h : pos + 6 ≤ b.length) : ReadsAt decode b pos 6 := by
  obtain ⟨bytes, hlen, hp⟩ := exists_prefix h
  match bytes, hlen with
  | [u, fc, a1, a0, v1, v0], hlen => exact ⟨_, _, hlen, hp, reads u fc a1 a0 v1 v0⟩

theorem RegisterMask.readsAt (h : pos + 8 ≤ b.length) : ReadsAt decode b pos 8 := by
  obtain ⟨bytes, hlen, hp⟩ := exists_prefix h
  match bytes, hlen with
  | [u, fc, a1, a0, m1, m0, o1, o0], hlen =>
    exact ⟨_, _, hlen, hp, reads u fc a1 a0 m1 m0 o1 o0⟩

theorem ExceptionResponse.readsAt (h : pos + 3 ≤ b.length) : ReadsAt decode b pos 3 := by
  obtain ⟨bytes, hlen, hp⟩ := exists_prefix h
  match bytes, hlen with
  | [u, fc, x], hlen => exact ⟨_, _, hlen, hp, reads u fc x⟩

/-- The bytes of a counted message, from its head and its data. -/
theorem readsAt_counted {α : Type} {w : Decoder α} {head vs : List Byte} {k n : Nat} {a : α}
    (hhead : head.length = k) (hvs : vs.length = n) (hp : head ++ vs <+: b.drop pos)
    (hreads : Reads w (head ++ vs) a) : ReadsAt w b pos (k + n) :=
  ⟨head ++ vs, a, by rw [List.length_append, hhead, hvs], hp, hreads⟩

theorem ByteValues.readsAt (h : pos + (3 + (b.getD (pos + 2) 0).toNat) ≤ b.length) :
    ReadsAt decode b pos (3 + (b.getD (pos + 2) 0).toNat) := by
  obtain ⟨head, vs, hhead, hvs, hp⟩ := exists_counted h
  match head, hhead with
  | [u, fc, c], hhead =>
    refine readsAt_counted hhead hvs hp (reads u fc c vs ?_)
    rw [hvs, getD_drop_of_getElem hp rfl]

theorem ReadWriteRegistersResponse.readsAt
    (h : pos + (3 + 2 * ((b.getD (pos + 2) 0).toNat / 2)) ≤ b.length) :
    ReadsAt decode b pos (3 + 2 * ((b.getD (pos + 2) 0).toNat / 2)) := by
  obtain ⟨head, vs, hhead, hvs, hp⟩ := exists_counted h
  match head, hhead with
  | [u, fc, c], hhead =>
    refine readsAt_counted hhead hvs hp (reads u fc c vs ?_)
    rw [hvs, getD_drop_of_getElem hp rfl]

theorem WriteMultipleCoilsRequest.readsAt
    (h : pos + (7 + (b.getD (pos + 6) 0).toNat) ≤ b.length) :
    ReadsAt decode b pos (7 + (b.getD (pos + 6) 0).toNat) := by
  obtain ⟨head, vs, hhead, hvs, hp⟩ := exists_counted h
  match head, hhead with
  | [u, fc, a1, a0, n1, n0, c], hhead =>
    refine readsAt_counted hhead hvs hp (reads u fc a1 a0 n1 n0 c vs ?_)
    rw [hvs, getD_drop_of_getElem hp rfl]

theorem WriteMultipleRegistersRequest.readsAt
    (h : pos + (7 + 2 * ((b.getD (pos + 6) 0).toNat / 2)) ≤ b.length) :
    ReadsAt decode b pos (7 + 2 * ((b.getD (pos + 6) 0).toNat / 2)) := by
  obtain ⟨head, vs, hhead, hvs, hp⟩ := exists_counted h
  match head, hhead with
  | [u, fc, a1, a0, n1, n0, c], hhead =>
    refine readsAt_counted hhead hvs hp (reads u fc a1 a0 n1 n0 c vs ?_)
    rw [hvs, getD_drop_of_getElem hp rfl]

theorem ReadWriteRegistersRequest.readsAt
    (h : pos + (11 + 2 * ((b.getD (pos + 10) 0).toNat / 2)) ≤ b.length) :
    ReadsAt decode b pos (11 + 2 * ((b.getD (pos + 10) 0).toNat / 2)) := by
  obtain ⟨head, vs, hhead, hvs, hp⟩ := exists_counted h
  match head, hhead with
  | [u, fc, r1, r0, k1, k0, w1, w0, n1, n0, c], hhead =>
    refine readsAt_counted hhead hvs hp (reads u fc r1 r0 k1 k0 w1 w0 n1 n0 c vs ?_)
    rw [hvs, getD_drop_of_getElem hp rfl]

/-- A decoder that finds its fixed fields and the bytes they count reads exactly
them. -/
theorem MessageKind.readsAt (T : MessageKind) (h : pos + T.readSize b pos ≤ b.length) :
    ReadsAt T.decode b pos (T.readSize b pos) := by
  cases T with
  | readCoilsRequest | readDiscreteInputsRequest | readHoldingRegistersRequest
  | readInputRegistersRequest | writeMultipleCoilsResponse | writeMultipleRegistersResponse =>
    exact (AddressRange.readsAt h).map _
  | writeSingleCoilRequest | writeSingleCoilResponse => exact (CoilValue.readsAt h).map _
  | writeSingleRegisterRequest | writeSingleRegisterResponse =>
    exact (RegisterValue.readsAt h).map _
  | maskWriteRegisterRequest | maskWriteRegisterResponse => exact (RegisterMask.readsAt h).map _
  | exceptionResponse => exact (ExceptionResponse.readsAt h).map _
  | readCoilsResponse | readDiscreteInputsResponse | readHoldingRegistersResponse
  | readInputRegistersResponse =>
    exact (ByteValues.readsAt h).map _
  | writeMultipleCoilsRequest => exact (WriteMultipleCoilsRequest.readsAt h).map _
  | writeMultipleRegistersRequest => exact (WriteMultipleRegistersRequest.readsAt h).map _
  | readWriteRegistersRequest => exact (ReadWriteRegistersRequest.readsAt h).map _
  | readWriteRegistersResponse => exact (ReadWriteRegistersResponse.readsAt h).map _

end Enough

namespace TcpDataUnit

/-- The message the header announces is too short for the fixed fields of `T`,
or for the data they count. -/
def TooShort (du : TcpDataUnit) (T : MessageKind) : Prop :=
  lengthField du.buffer < T.fixedSize ∨
    lengthField du.buffer < T.fixedSize + T.byteCount du.buffer tcpHeaderSize

instance (du : TcpDataUnit) (T : MessageKind) : Decidable (TooShort du T) :=
  inferInstanceAs (Decidable (_ ∨ _))

/-- `pdu<T>()` dereferences nothing past the end of the buffer, and gives up on a
message that is too short. -/
def DecodesInBounds (du : TcpDataUnit) (T : MessageKind) : Prop :=
  (∃ r, du.pdu T = .ok r) ∧ (TooShort du T → du.pdu T = .ok none)

/-- Once the checks have passed, `pdu` never gives up. -/
theorem pdu_ne_none {du : TcpDataUnit} {T : MessageKind} (h : du.Selects T) :
    du.pdu T ≠ .ok none := by
  intro hnone
  rw [pdu_of_selects h, bind_ok] at hnone
  obtain ⟨⟨m, pos⟩, _, hsome⟩ := hnone
  cases hsome

/-- Decoding is safe exactly when it is not asked for the type of a message that
is too short for it. -/
theorem decodesInBounds_iff (b : Buffer) (n : Nat) (type : MessageType) (du : TcpDataUnit)
    (hn : n ≤ b.length) (h : ofBuffer b n type = .ok du) (T : MessageKind) :
    DecodesInBounds du T ↔ ¬ (du.Selects T ∧ TooShort du T) := by
  obtain ⟨_, _, _, rfl⟩ := ofBuffer_ok_iff.mp h
  have hfits := lengthField_le h
  constructor
  · rintro ⟨_, hshort⟩ ⟨hsel, htoo⟩
    exact pdu_ne_none hsel (hshort htoo)
  · intro hok
    by_cases hsel : Selects ⟨b, type⟩ T
    · -- the whole message lies inside the bytes read
      have hlong : ¬ TooShort ⟨b, type⟩ T := fun htoo => hok ⟨hsel, htoo⟩
      have hcount : T.fixedSize + T.byteCount b tcpHeaderSize ≤ lengthField b :=
        Nat.le_of_not_lt fun hlt => hlong (.inr hlt)
      have hreach := T.readSize_le b tcpHeaderSize
      have hlen : tcpHeaderSize + T.readSize b tcpHeaderSize ≤ b.length := by
        omega
      obtain ⟨m, hm⟩ := (T.readsAt hlen).ok
      refine ⟨⟨some m, ?_⟩, fun htoo => absurd htoo hlong⟩
      rw [pdu_of_selects hsel, hm]
      rfl
    · have hnone := pdu_of_not_selects hsel
      exact ⟨⟨none, hnone⟩, fun _ => hnone⟩

/-- A read request of twelve bytes, asked for as what it is. -/
theorem decodesInBounds_read_coils :
    DecodesInBounds ⟨[0, 1, 0, 0, 0, 6, 1, 1, 0, 0, 0, 8], .request⟩ .readCoilsRequest :=
  (decodesInBounds_iff [0, 1, 0, 0, 0, 6, 1, 1, 0, 0, 0, 8] 12 .request _ (Nat.le_refl 12) rfl
    .readCoilsRequest).mpr (by
      rintro ⟨_, htoo⟩
      revert htoo
      decide)

/-- A session buffer: a multiple coil write of thirteen bytes that counts 255
bytes of data. -/
def overrunBuffer : Buffer :=
  [0, 1, 0, 0, 0, 7, 1, 15, 0, 0, 0, 8, 255] ++ List.replicate 243 0

/-- It is accepted, and its decoder runs past the 256 bytes. -/
theorem overrun_of_session_buffer :
    overrunBuffer.length = 256 ∧
      ofBuffer overrunBuffer 13 .request = .ok ⟨overrunBuffer, .request⟩ ∧
      pdu ⟨overrunBuffer, .request⟩ .writeMultipleCoilsRequest = .error (.outOfRange 256 256) ∧
      ¬ DecodesInBounds ⟨overrunBuffer, .request⟩ .writeMultipleCoilsRequest := by
  have hpdu : pdu ⟨overrunBuffer, .request⟩ .writeMultipleCoilsRequest =
      .error (.outOfRange 256 256) := by
    decide +kernel
  refine ⟨by decide +kernel, by decide +kernel, hpdu, ?_⟩
  rintro ⟨⟨r, hr⟩, _⟩
  rw [hpdu] at hr
  cases hr

end TcpDataUnit

end Modbus
