import Modbus.Core.Reach

/-! # Encoding what was decoded

A frame that holds a message and nothing else is decoded to a message of its own
size. Serializing that message gives the frame back unless the decoder dropped
something: it keeps of a coil value whether it is 0xFF00, of a count of register
bytes its half, and of the register count of a read-write request nothing at all.
Where those fields are written the way the encoder writes them, no two frames are
decoded to one message (`serialize_iff_canonical`). -/
namespace Modbus
open Bytes Checked Walk TcpDataUnit

/-- The fields of a frame that its decoder does not keep as they are, written the way
the encoder writes them. -/
def Canonical (T : MessageKind) (b : Buffer) : Prop :=
  match T with
  | .writeSingleCoilRequest | .writeSingleCoilResponse =>
    wordAt b 10 = coilStatusOn ∨ wordAt b 10 = 0
  | .writeMultipleRegistersRequest => (b.getD 12 0).toNat % 2 = 0
  | .readWriteRegistersRequest =>
    (wordAt b 14).toNat = (b.getD 16 0).toNat / 2 ∧ (b.getD 16 0).toNat % 2 = 0
  | .readWriteRegistersResponse => (b.getD 8 0).toNat % 2 = 0
  | _ => True

/-! ## Fields -/

/-- A coil value comes back when it is one of the two the encoder writes. -/
theorem coil_back (v1 v0 : Byte) :
    ((if word v1 v0 == coilStatusOn then 0xFF else 0x00) = v1 ∧ 0x00 = v0) ↔
      word v1 v0 = coilStatusOn ∨ word v1 v0 = 0 := by
  by_cases hon : word v1 v0 = coilStatusOn
  · have hhi : hiByte coilStatusOn = v1 := by rw [← hon, hiByte_word]
    have hlo : loByte coilStatusOn = v0 := by rw [← hon, loByte_word]
    rw [if_pos (beq_iff_eq.mpr hon)]
    exact iff_of_true ⟨hhi, hlo⟩ (.inl hon)
  · rw [if_neg (fun h => hon (beq_iff_eq.mp h)), or_iff_right hon]
    constructor
    · rintro ⟨rfl, rfl⟩
      rfl
    · intro hzero
      have hhi : hiByte 0 = v1 := by rw [← hzero, hiByte_word]
      have hlo : loByte 0 = v0 := by rw [← hzero, loByte_word]
      exact ⟨hhi, hlo⟩

/-- A byte count comes back from the number of registers when it is even. -/
theorem count_back (c : Byte) : BitVec.ofNat 8 (c.toNat / 2 * 2) = c ↔ c.toNat % 2 = 0 := by
  have hlt := c.isLt
  rw [← BitVec.toNat_inj, BitVec.toNat_ofNat]
  omega

/-- A byte count of bytes always comes back. -/
theorem ofNat_count {vs : Buffer} {c : Byte} (h : vs.length = c.toNat) :
    BitVec.ofNat 8 vs.length = c := by
  rw [h, BitVec.ofNat_toNat, BitVec.setWidth_eq]

/-! ## Layouts -/

section Layouts
variable {b : Buffer} {pos p : Nat} {code : Byte}

/-- A prefix as long as the rest of the buffer is the rest. -/
theorem drop_eq_message {bytes : Buffer} (hp : bytes <+: b.drop pos)
    (hlen : b.length = pos + bytes.length) : b.drop pos = bytes := by
  refine (hp.eq_of_length ?_).symm
  rw [List.length_drop, hlen, Nat.add_sub_cancel_left]

theorem AddressRange.reencodes {m : AddressRange} (h : decode b pos = .ok (m, p))
    (hsize : b.length = pos + m.size) (hcode : (b.drop pos)[1]? = some code) :
    m.serialize code = b.drop pos := by
  obtain ⟨bytes, hlen, hp⟩ := exists_prefix (Nat.le_of_eq hsize.symm)
  match bytes, hlen with
  | [u, fc, a1, a0, n1, n0], _ =>
    rw [reads u fc a1 a0 n1 n0 b pos hp] at h
    cases h
    rw [drop_eq_message hp hsize] at hcode ⊢
    cases hcode
    simp only [serialize, hiByte_word, loByte_word]

theorem CoilValue.reencodes_iff {m : CoilValue} (h : decode b pos = .ok (m, p))
    (hsize : b.length = pos + m.size) (hcode : (b.drop pos)[1]? = some code) :
    m.serialize code = b.drop pos ↔
      wordAt b (pos + 4) = coilStatusOn ∨ wordAt b (pos + 4) = 0 := by
  obtain ⟨bytes, hlen, hp⟩ := exists_prefix (Nat.le_of_eq hsize.symm)
  match bytes, hlen with
  | [u, fc, a1, a0, v1, v0], _ =>
    have hvalue : wordAt b (pos + 4) = word v1 v0 := by
      rw [wordAt, getD_drop_of_getElem (i := 4) hp rfl, getD_drop_of_getElem (i := 5) hp rfl]
    rw [reads u fc a1 a0 v1 v0 b pos hp] at h
    cases h
    rw [drop_eq_message hp hsize] at hcode ⊢
    cases hcode
    rw [hvalue, ← coil_back]
    simp only [serialize, hiByte_word, loByte_word, List.cons.injEq, and_true, true_and]

theorem RegisterValue.reencodes {m : RegisterValue} (h : decode b pos = .ok (m, p))
    (hsize : b.length = pos + m.size) (hcode : (b.drop pos)[1]? = some code) :
    m.serialize code = b.drop pos := by
  obtain ⟨bytes, hlen, hp⟩ := exists_prefix (Nat.le_of_eq hsize.symm)
  match bytes, hlen with
  | [u, fc, a1, a0, v1, v0], _ =>
    rw [reads u fc a1 a0 v1 v0 b pos hp] at h
    cases h
    rw [drop_eq_message hp hsize] at hcode ⊢
    cases hcode
    simp only [serialize, hiByte_word, loByte_word]

theorem RegisterMask.reencodes {m : RegisterMask} (h : decode b pos = .ok (m, p))
    (hsize : b.length = pos + m.size) (hcode : (b.drop pos)[1]? = some code) :
    m.serialize code = b.drop pos := by
  obtain ⟨bytes, hlen, hp⟩ := exists_prefix (Nat.le_of_eq hsize.symm)
  match bytes, hlen with
  | [u, fc, a1, a0, m1, m0, o1, o0], _ =>
    rw [reads u fc a1 a0 m1 m0 o1 o0 b pos hp] at h
    cases h
    rw [drop_eq_message hp hsize] at hcode ⊢
    cases hcode
    simp only [serialize, hiByte_word, loByte_word]

/-- The flag of the code byte is put back. -/
theorem ExceptionResponse.reencodes {m : ExceptionResponse} (h : decode b pos = .ok (m, p))
    (hsize : b.length = pos + m.size) (hcode : (b.drop pos)[1]? = some code)
    (hflag : code &&& 0x80#8 ≠ 0#8) : m.serialize = b.drop pos := by
  have hback : ∀ code : Byte, code &&& 0x80#8 ≠ 0#8 → (code &&& 0x7F#8) ||| 0x80#8 = code := by
    decide +kernel
  obtain ⟨bytes, hlen, hp⟩ := exists_prefix (Nat.le_of_eq hsize.symm)
  match bytes, hlen with
  | [u, fc, x], _ =>
    rw [reads u fc x b pos hp] at h
    cases h
    rw [drop_eq_message hp hsize] at hcode ⊢
    cases hcode
    rw [serialize, hback code hflag]

theorem ByteValues.reencodes {m : ByteValues} (h : decode b pos = .ok (m, p))
    (hsize : b.length = pos + m.size) (hcode : (b.drop pos)[1]? = some code) :
    m.serialize code = b.drop pos := by
  obtain ⟨head, vs, hhead, hvs, hp⟩ := exists_counted (decode_reaches h)
  match head, hhead with
  | [u, fc, c], _ =>
    rw [getD_drop_of_getElem (i := 2) hp rfl] at hvs
    rw [reads u fc c vs hvs b pos hp] at h
    cases h
    rw [drop_eq_message hp (by rw [hsize, size, Nat.one_mul, List.length_append]; rfl)] at hcode ⊢
    cases hcode
    rw [serialize, ofNat_count hvs]

theorem WriteMultipleCoilsRequest.reencodes {m : WriteMultipleCoilsRequest}
    (h : decode b pos = .ok (m, p)) (hsize : b.length = pos + m.size)
    (hcode : (b.drop pos)[1]? = some code) : m.serialize code = b.drop pos := by
  obtain ⟨head, vs, hhead, hvs, hp⟩ := exists_counted (decode_reaches h)
  match head, hhead with
  | [u, fc, a1, a0, n1, n0, c], _ =>
    rw [getD_drop_of_getElem (i := 6) hp rfl] at hvs
    rw [reads u fc a1 a0 n1 n0 c vs hvs b pos hp] at h
    cases h
    rw [drop_eq_message hp (by rw [hsize, size, Nat.one_mul, List.length_append]; rfl)] at hcode ⊢
    cases hcode
    simp only [serialize, ofNat_count hvs, hiByte_word, loByte_word]

/-- Registers that were read from their bytes, and their number. -/
theorem words_back {vs : Buffer} {c : Byte} (hvs : vs.length = 2 * (c.toNat / 2)) :
    bytesOf (wordsOf vs) = vs ∧ (wordsOf vs).length = c.toNat / 2 := by
  refine ⟨bytesOf_wordsOf _ vs hvs, ?_⟩
  rw [length_wordsOf, hvs, Nat.mul_div_cancel_left _ (by decide)]

theorem WriteMultipleRegistersRequest.reencodes_iff {m : WriteMultipleRegistersRequest}
    (h : decode b pos = .ok (m, p)) (hsize : b.length = pos + m.size)
    (hcode : (b.drop pos)[1]? = some code) :
    m.serialize code = b.drop pos ↔ (b.getD (pos + 6) 0).toNat % 2 = 0 := by
  obtain ⟨head, vs, hhead, hvs, hp⟩ := exists_counted (decode_reaches h)
  match head, hhead with
  | [u, fc, a1, a0, n1, n0, c], _ =>
    rw [getD_drop_of_getElem (i := 6) hp rfl] at hvs ⊢
    obtain ⟨hbytes, hnum⟩ := words_back hvs
    rw [reads u fc a1 a0 n1 n0 c vs hvs b pos hp] at h
    cases h
    rw [drop_eq_message hp (by rw [hsize, size, hnum, ← hvs, List.length_append]; rfl)] at hcode ⊢
    cases hcode
    rw [← count_back]
    simp only [serialize, hbytes, hnum, hiByte_word, loByte_word, List.cons_append,
      List.nil_append, List.cons.injEq, and_true, true_and]

theorem ReadWriteRegistersResponse.reencodes_iff {m : ReadWriteRegistersResponse}
    (h : decode b pos = .ok (m, p)) (hsize : b.length = pos + m.size)
    (hcode : (b.drop pos)[1]? = some code) :
    m.serialize code = b.drop pos ↔ (b.getD (pos + 2) 0).toNat % 2 = 0 := by
  obtain ⟨head, vs, hhead, hvs, hp⟩ := exists_counted (decode_reaches h)
  match head, hhead with
  | [u, fc, c], _ =>
    rw [getD_drop_of_getElem (i := 2) hp rfl] at hvs ⊢
    obtain ⟨hbytes, hnum⟩ := words_back hvs
    rw [reads u fc c vs hvs b pos hp] at h
    cases h
    rw [drop_eq_message hp (by rw [hsize, size, hnum, ← hvs, List.length_append]; rfl)] at hcode ⊢
    cases hcode
    rw [← count_back]
    simp only [serialize, hbytes, hnum, List.cons_append, List.nil_append, List.cons.injEq,
      and_true, true_and]

/-- The register count that was replaced comes back when it was the number of values. -/
theorem ReadWriteRegistersRequest.reencodes_iff {m : ReadWriteRegistersRequest}
    (h : decode b pos = .ok (m, p)) (hsize : b.length = pos + m.size)
    (hcode : (b.drop pos)[1]? = some code) :
    m.serialize code = b.drop pos ↔
      (wordAt b (pos + 8)).toNat = (b.getD (pos + 10) 0).toNat / 2 ∧
        (b.getD (pos + 10) 0).toNat % 2 = 0 := by
  obtain ⟨head, vs, hhead, hvs, hp⟩ := exists_counted (decode_reaches h)
  match head, hhead with
  | [u, fc, r1, r0, k1, k0, w1, w0, n1, n0, c], _ =>
    have hcount : wordAt b (pos + 8) = word n1 n0 := by
      rw [wordAt, getD_drop_of_getElem (i := 8) hp rfl, getD_drop_of_getElem (i := 9) hp rfl]
    rw [getD_drop_of_getElem (i := 10) hp rfl] at hvs ⊢
    obtain ⟨hbytes, hnum⟩ := words_back hvs
    rw [reads u fc r1 r0 k1 k0 w1 w0 n1 n0 c vs hvs b pos hp] at h
    cases h
    rw [drop_eq_message hp (by rw [hsize, size, ofValues, hnum, ← hvs, List.length_append]; rfl)] at hcode ⊢
    cases hcode
    have hword : (hiByte (BitVec.ofNat 16 (c.toNat / 2)) = n1 ∧
        loByte (BitVec.ofNat 16 (c.toNat / 2)) = n0) ↔ (word n1 n0).toNat = c.toNat / 2 := by
      have hlt := c.isLt
      have hnat : (BitVec.ofNat 16 (c.toNat / 2)).toNat = c.toNat / 2 := by
        rw [BitVec.toNat_ofNat]
        omega
      constructor
      · rintro ⟨rfl, rfl⟩
        rw [word_hi_lo, hnat]
      · intro heq
        have hsame : word n1 n0 = BitVec.ofNat 16 (c.toNat / 2) :=
          BitVec.eq_of_toNat_eq (heq.trans hnat.symm)
        rw [← hsame, hiByte_word, loByte_word]
        exact ⟨rfl, rfl⟩
    rw [hcount, ← hword, ← count_back, and_assoc]
    simp only [serialize, ofValues, hbytes, hnum, hiByte_word, loByte_word, List.cons_append,
      List.nil_append, List.cons.injEq, and_true, true_and]

end Layouts

/-! ## All message types -/

/-- The frame `b`, received as `type` and asked for a `T`, gives `m`, which is as
long as the frame says. -/
structure Carries (b : Buffer) (type : MessageType) (T : MessageKind) (m : Message) : Prop where
  framed : b.length = tcpHeaderSize + lengthField b
  decoded : ∃ du, ofBuffer b b.length type = .ok du ∧ du.pdu T = .ok (some m)
  measured : m.size = lengthField b

theorem Carries.reencodes_iff {b : Buffer} {type : MessageType} {T : MessageKind} {m : Message}
    (h : Carries b type T m) : m.serialize = b.drop tcpHeaderSize ↔ Canonical T b := by
  obtain ⟨hframe, ⟨du, haccepted, hpdu⟩, hsize⟩ := h
  obtain ⟨_, _, _, rfl⟩ := ofBuffer_ok_iff.mp haccepted
  obtain ⟨⟨_, code, hseven, hmatch⟩, p, hdecode⟩ := decode_of_pdu hpdu
  have hcode : (b.drop tcpHeaderSize)[1]? = some code := by
    rw [List.getElem?_drop]
    exact hseven
  rw [← hsize] at hframe
  cases T with
  | readCoilsRequest | readDiscreteInputsRequest | readHoldingRegistersRequest
  | readInputRegistersRequest | writeMultipleCoilsResponse | writeMultipleRegistersResponse =>
    obtain ⟨a, ha, rfl⟩ := wrap_ok hdecode
    cases hmatch
    exact iff_of_true (AddressRange.reencodes ha hframe hcode) trivial
  | writeSingleCoilRequest | writeSingleCoilResponse =>
    obtain ⟨a, ha, rfl⟩ := wrap_ok hdecode
    cases hmatch
    exact CoilValue.reencodes_iff ha hframe hcode
  | writeSingleRegisterRequest | writeSingleRegisterResponse =>
    obtain ⟨a, ha, rfl⟩ := wrap_ok hdecode
    cases hmatch
    exact iff_of_true (RegisterValue.reencodes ha hframe hcode) trivial
  | maskWriteRegisterRequest | maskWriteRegisterResponse =>
    obtain ⟨a, ha, rfl⟩ := wrap_ok hdecode
    cases hmatch
    exact iff_of_true (RegisterMask.reencodes ha hframe hcode) trivial
  | exceptionResponse =>
    obtain ⟨a, ha, rfl⟩ := wrap_ok hdecode
    exact iff_of_true (ExceptionResponse.reencodes ha hframe hcode hmatch) trivial
  | readCoilsResponse | readDiscreteInputsResponse | readHoldingRegistersResponse
  | readInputRegistersResponse =>
    obtain ⟨a, ha, rfl⟩ := wrap_ok hdecode
    cases hmatch
    exact iff_of_true (ByteValues.reencodes ha hframe hcode) trivial
  | writeMultipleCoilsRequest =>
    obtain ⟨a, ha, rfl⟩ := wrap_ok hdecode
    cases hmatch
    exact iff_of_true (WriteMultipleCoilsRequest.reencodes ha hframe hcode) trivial
  | writeMultipleRegistersRequest =>
    obtain ⟨a, ha, rfl⟩ := wrap_ok hdecode
    cases hmatch
    exact WriteMultipleRegistersRequest.reencodes_iff ha hframe hcode
  | readWriteRegistersRequest =>
    obtain ⟨a, ha, rfl⟩ := wrap_ok hdecode
    cases hmatch
    exact ReadWriteRegistersRequest.reencodes_iff ha hframe hcode
  | readWriteRegistersResponse =>
    obtain ⟨a, ha, rfl⟩ := wrap_ok hdecode
    cases hmatch
    exact ReadWriteRegistersResponse.reencodes_iff ha hframe hcode

/-- A message that a frame carries serializes to the frame's message bytes exactly when
the frame is canonical, and two canonical frames that carry one message have the same
message bytes. -/
theorem serialize_iff_canonical (b : Buffer) (type : MessageType) (T : MessageKind) (m : Message)
    (h : Carries b type T m) :
    (m.serialize = b.drop tcpHeaderSize ↔ Canonical T b) ∧
      ∀ b' type', Carries b' type' T m → Canonical T b → Canonical T b' →
        b.drop tcpHeaderSize = b'.drop tcpHeaderSize := by
  refine ⟨h.reencodes_iff, fun b' type' h' hb hb' => ?_⟩
  rw [← h.reencodes_iff.mpr hb, h'.reencodes_iff.mpr hb']

theorem serialize_iff_canonical_read_coils :
    (Message.readCoilsRequest ⟨1, 0, 8⟩).serialize = [1, 1, 0, 0, 0, 8] ↔
      Canonical .readCoilsRequest [0, 1, 0, 0, 0, 6, 1, 1, 0, 0, 0, 8] :=
  (serialize_iff_canonical [0, 1, 0, 0, 0, 6, 1, 1, 0, 0, 0, 8] .request .readCoilsRequest
    (.readCoilsRequest ⟨1, 0, 8⟩) ⟨rfl, ⟨_, rfl, rfl⟩, rfl⟩).1

/-- The coil values 0x0001 and 0x0000 are both taken for off, a byte count of three for
one register, and a register count of nine for the one register that follows. -/
theorem frames_taken_alike :
    (Carries [0, 1, 0, 0, 0, 6, 1, 5, 0, 0, 0, 1] .request .writeSingleCoilRequest
        (.writeSingleCoilRequest ⟨1, 0, false⟩) ∧
      Carries [0, 1, 0, 0, 0, 6, 1, 5, 0, 0, 0, 0] .request .writeSingleCoilRequest
        (.writeSingleCoilRequest ⟨1, 0, false⟩) ∧
      (Message.writeSingleCoilRequest ⟨1, 0, false⟩).serialize ≠ [1, 5, 0, 0, 0, 1]) ∧
    (Carries [0, 1, 0, 0, 0, 9, 1, 16, 0, 0, 0, 1, 3, 0, 7] .request
        .writeMultipleRegistersRequest (.writeMultipleRegistersRequest ⟨1, 0, 1, [7]⟩) ∧
      (Message.writeMultipleRegistersRequest ⟨1, 0, 1, [7]⟩).serialize ≠
        [1, 16, 0, 0, 0, 1, 3, 0, 7]) ∧
    (Carries [0, 1, 0, 0, 0, 13, 1, 23, 0, 0, 0, 1, 0, 0, 0, 9, 2, 0, 7] .request
        .readWriteRegistersRequest (.readWriteRegistersRequest ⟨1, 0, 1, 0, 1, [7]⟩) ∧
      (Message.readWriteRegistersRequest ⟨1, 0, 1, 0, 1, [7]⟩).serialize ≠
        [1, 23, 0, 0, 0, 1, 0, 0, 0, 9, 2, 0, 7]) := by
  refine ⟨⟨⟨rfl, ⟨_, rfl, rfl⟩, rfl⟩, ⟨rfl, ⟨_, rfl, rfl⟩, rfl⟩, ?_⟩,
    ⟨⟨rfl, ⟨_, rfl, rfl⟩, rfl⟩, ?_⟩, ⟨rfl, ⟨_, rfl, rfl⟩, rfl⟩, ?_⟩
  all_goals decide

end Modbus
