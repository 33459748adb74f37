import Mathlib.Data.List.TakeDrop
import Modbus.Core.TcpDataUnit

/-! # What the decoders read and the encoders write

One fact per layout in each direction: the bytes its decoder reads and the value
it makes of them, for any bytes; the number of bytes `serialize` writes; and what
comes back when the decoder is put on the serialized bytes. The last is exact:
a byte count is one byte, so a message whose data is longer than 255 bytes comes
back as another one. -/
namespace Modbus
open Bytes Checked Walk

/-! ## Decoding any bytes -/

theorem AddressRange.reads (u fc a1 a0 n1 n0 : Byte) :
    Reads AddressRange.decode [u, fc, a1, a0, n1, n0] ⟨u, word a1 a0, word n1 n0⟩ :=
  (Reads.next u).bind ((Reads.skip fc).bind ((Reads.nextWord a1 a0).bind
    ((Reads.nextWord n1 n0).bind (Reads.pure _))))

theorem CoilValue.reads (u fc a1 a0 v1 v0 : Byte) :
    Reads CoilValue.decode [u, fc, a1, a0, v1, v0] ⟨u, word a1 a0, word v1 v0 == coilStatusOn⟩ :=
  (Reads.next u).bind ((Reads.skip fc).bind ((Reads.nextWord a1 a0).bind
    ((Reads.nextWord v1 v0).bind (Reads.pure _))))

theorem RegisterValue.reads (u fc a1 a0 v1 v0 : Byte) :
    Reads RegisterValue.decode [u, fc, a1, a0, v1, v0] ⟨u, word a1 a0, word v1 v0⟩ :=
  (Reads.next u).bind ((Reads.skip fc).bind ((Reads.nextWord a1 a0).bind
    ((Reads.nextWord v1 v0).bind (Reads.pure _))))

theorem RegisterMask.reads (u fc a1 a0 m1 m0 o1 o0 : Byte) :
    Reads RegisterMask.decode [u, fc, a1, a0, m1, m0, o1, o0]
      ⟨u, word a1 a0, word m1 m0, word o1 o0⟩ :=
  (Reads.next u).bind ((Reads.skip fc).bind ((Reads.nextWord a1 a0).bind
    ((Reads.nextWord m1 m0).bind ((Reads.nextWord o1 o0).bind (Reads.pure _)))))

theorem ExceptionResponse.reads (u fc x : Byte) :
    Reads ExceptionResponse.decode [u, fc, x] ⟨u, fc &&& 0x7F#8, x⟩ :=
  (Reads.next u).bind ((Reads.next fc).bind ((Reads.next x).bind (Reads.pure _)))

theorem ByteValues.reads (u fc c : Byte) (vs : List Byte) (hc : vs.length = c.toNat) :
    Reads ByteValues.decode ([u, fc, c] ++ vs) ⟨u, vs⟩ := by
  have h : Reads ByteValues.decode ([u] ++ ([fc] ++ ([c] ++ (vs ++ [])))) ⟨u, vs⟩ :=
    (Reads.next u).bind ((Reads.skip fc).bind ((Reads.next c).bind
      ((hc ▸ Reads.times_next vs).bind (Reads.pure _))))
  simpa using h

theorem ReadWriteRegistersResponse.reads (u fc c : Byte) (vs : List Byte)
    (hc : vs.length = 2 * (c.toNat / 2)) :
    Reads ReadWriteRegistersResponse.decode ([u, fc, c] ++ vs) ⟨u, wordsOf vs⟩ := by
  have h : Reads ReadWriteRegistersResponse.decode ([u] ++ ([fc] ++ ([c] ++ (vs ++ []))))
      ⟨u, wordsOf vs⟩ :=
    (Reads.next u).bind ((Reads.skip fc).bind ((Reads.next c).bind
      ((Reads.times_nextWord _ vs hc).bind (Reads.pure _))))
  simpa using h

theorem WriteMultipleCoilsRequest.reads (u fc a1 a0 n1 n0 c : Byte) (vs : List Byte)
    (hc : vs.length = c.toNat) :
    Reads WriteMultipleCoilsRequest.decode ([u, fc, a1, a0, n1, n0, c] ++ vs)
      ⟨u, word a1 a0, word n1 n0, vs⟩ := by
  have h : Reads WriteMultipleCoilsRequest.decode
      ([u] ++ ([fc] ++ ([a1, a0] ++ ([n1, n0] ++ ([c] ++ (vs ++ []))))))
      ⟨u, word a1 a0, word n1 n0, vs⟩ :=
    (Reads.next u).bind ((Reads.skip fc).bind ((Reads.nextWord a1 a0).bind
      ((Reads.nextWord n1 n0).bind ((Reads.next c).bind
        ((hc ▸ Reads.times_next vs).bind (Reads.pure _))))))
  simpa using h

theorem WriteMultipleRegistersRequest.reads (u fc a1 a0 n1 n0 c : Byte) (vs : List Byte)
    (hc : vs.length = 2 * (c.toNat / 2)) :
    Reads WriteMultipleRegistersRequest.decode ([u, fc, a1, a0, n1, n0, c] ++ vs)
      ⟨u, word a1 a0, word n1 n0, wordsOf vs⟩ := by
  have h : Reads WriteMultipleRegistersRequest.decode
      ([u] ++ ([fc] ++ ([a1, a0] ++ ([n1, n0] ++ ([c] ++ (vs ++ []))))))
      ⟨u, word a1 a0, word n1 n0, wordsOf vs⟩ :=
    (Reads.next u).bind ((Reads.skip fc).bind ((Reads.nextWord a1 a0).bind
      ((Reads.nextWord n1 n0).bind ((Reads.next c).bind
        ((Reads.times_nextWord _ vs hc).bind (Reads.pure _))))))
  simpa using h

theorem ReadWriteRegistersRequest.reads (u fc r1 r0 k1 k0 w1 w0 n1 n0 c : Byte) (vs : List Byte)
    (hc : vs.length = 2 * (c.toNat / 2)) :
    Reads ReadWriteRegistersRequest.decode ([u, fc, r1, r0, k1, k0, w1, w0, n1, n0, c] ++ vs)
      (.ofValues u (word r1 r0) (word k1 k0) (word w1 w0) (wordsOf vs)) := by
  have h : Reads ReadWriteRegistersRequest.decode
      ([u] ++ ([fc] ++ ([r1, r0] ++ ([k1, k0] ++ ([w1, w0] ++ ([n1, n0] ++ ([c] ++ (vs ++ []))))))))
      (.ofValues u (word r1 r0) (word k1 k0) (word w1 w0) (wordsOf vs)) :=
    (Reads.next u).bind ((Reads.skip fc).bind ((Reads.nextWord r1 r0).bind
      ((Reads.nextWord k1 k0).bind ((Reads.nextWord w1 w0).bind ((Reads.nextWord n1 n0).bind
        ((Reads.next c).bind ((Reads.times_nextWord _ vs hc).bind (Reads.pure _))))))))
  simpa using h

/-! ## The bytes written -/

/-- `serialize` writes as many bytes as `size` announces. -/
theorem Message.length_serialize (m : Message) : m.serialize.length = m.size := by
  cases m with
  | writeMultipleCoilsRequest m =>
    simp [serialize, size, WriteMultipleCoilsRequest.serialize, WriteMultipleCoilsRequest.size]
    omega
  | writeMultipleRegistersRequest m =>
    simp [serialize, size, WriteMultipleRegistersRequest.serialize,
      WriteMultipleRegistersRequest.size]
    omega
  | readWriteRegistersRequest m =>
    simp [serialize, size, ReadWriteRegistersRequest.serialize, ReadWriteRegistersRequest.size]
    omega
  | readCoilsResponse m | readDiscreteInputsResponse m | readHoldingRegistersResponse m
  | readInputRegistersResponse m =>
    simp [serialize, size, ByteValues.serialize, ByteValues.size]
    omega
  | readWriteRegistersResponse m =>
    simp [serialize, size, ReadWriteRegistersResponse.serialize, ReadWriteRegistersResponse.size]
    omega
  | _ => rfl

/-! ## Decoding what was serialized -/

/-- On the bytes `out` the decoder reads some of them, and what it returns is
`m` exactly when `data` bytes can be counted in one byte. -/
def DecodesBack {α : Type} (w : Decoder α) (out : Buffer) (m : α) (data : Nat) : Prop :=
  ∃ bytes got, bytes <+: out ∧ Reads w bytes got ∧ (got = m ↔ data ≤ 255)

theorem DecodesBack.exact {α : Type} {w : Decoder α} {out : Buffer} {m : α} (h : Reads w out m) :
    DecodesBack w out m 0 :=
  ⟨out, m, List.prefix_rfl, h, by simp⟩

theorem DecodesBack.map {α β : Type} {w : Decoder α} {out : Buffer} {m : α} {data : Nat}
    {f : α → β} (hf : ∀ a b, f a = f b → a = b) (h : DecodesBack w out m data) :
    DecodesBack (do return f (← w)) out (f m) data := by
  obtain ⟨bytes, got, hp, hr, hiff⟩ := h
  refine ⟨bytes, f got, hp, hr.map f, ?_⟩
  rw [← hiff]
  exact ⟨hf got m, congrArg f⟩

/-- What a truncated count leaves of a vector is the vector when it was not
truncated. -/
theorem take_mod_eq_iff {α : Type} (xs : List α) (n : Nat) (hn : 0 < n) :
    xs.take (xs.length % n) = xs ↔ xs.length < n := by
  rw [List.take_eq_self_iff]
  constructor
  · intro h
    have := Nat.mod_lt xs.length hn
    omega
  · intro h
    exact Nat.le_of_eq (Nat.mod_eq_of_lt h).symm

/-- The bytes a register decoder takes, and the registers it makes of them,
when the count was written for `ws`. -/
theorem registers_back (ws : List Word) :
    ∃ vs, vs <+: bytesOf ws ∧ vs.length = 2 * ((BitVec.ofNat 8 (ws.length * 2)).toNat / 2) ∧
      wordsOf vs = ws.take (ws.length % 128) := by
  have hcount : (BitVec.ofNat 8 (ws.length * 2)).toNat / 2 = ws.length % 128 := by
    rw [BitVec.toNat_ofNat]
    omega
  refine ⟨(bytesOf ws).take (2 * (ws.length % 128)), List.take_prefix _ _, ?_, ?_⟩
  · rw [hcount, List.length_take, length_bytesOf]
    have := Nat.mod_le ws.length 128
    omega
  · rw [bytesOf_take, wordsOf_bytesOf]

theorem AddressRange.decodesBack (code : FunctionCode) (m : AddressRange) :
    DecodesBack decode (m.serialize code) m 0 := by
  have h := reads m.unitId code (hiByte m.startAddress) (loByte m.startAddress)
    (hiByte m.length) (loByte m.length)
  rw [word_hi_lo, word_hi_lo] at h
  exact .exact h

theorem CoilValue.decodesBack (code : FunctionCode) (m : CoilValue) :
    DecodesBack decode (m.serialize code) m 0 := by
  have h := reads m.unitId code (hiByte m.startAddress) (loByte m.startAddress)
    (if m.value then 0xFF else 0x00) 0x00
  have hv : (word (if m.value then 0xFF else 0x00) 0x00 == coilStatusOn) = m.value := by
    cases m.value <;> rfl
  rw [word_hi_lo, hv] at h
  exact .exact h

theorem RegisterValue.decodesBack (code : FunctionCode) (m : RegisterValue) :
    DecodesBack decode (m.serialize code) m 0 := by
  have h := reads m.unitId code (hiByte m.startAddress) (loByte m.startAddress)
    (hiByte m.value) (loByte m.value)
  rw [word_hi_lo, word_hi_lo] at h
  exact .exact h

theorem RegisterMask.decodesBack (code : FunctionCode) (m : RegisterMask) :
    DecodesBack decode (m.serialize code) m 0 := by
  have h := reads m.unitId code (hiByte m.startAddress) (loByte m.startAddress)
    (hiByte m.andMask) (loByte m.andMask) (hiByte m.orMask) (loByte m.orMask)
  rw [word_hi_lo, word_hi_lo, word_hi_lo] at h
  exact .exact h

/-- The exception flag is the high bit, so only a code without it comes back. -/
theorem flag_back : ∀ code : Byte, ((code ||| 0x80#8) &&& 0x7F#8 = code ↔ code.toNat < 0x80) := by
  decide +kernel

theorem ExceptionResponse.decodesBack (m : ExceptionResponse) (hm : m.funcCode.toNat < 0x80) :
    DecodesBack decode m.serialize m 0 := by
  have h := reads m.unitId (m.funcCode ||| 0x80#8) m.exceptionCode
  rw [(flag_back m.funcCode).mpr hm] at h
  exact .exact h

/-- The bytes a decoder takes when the count was written for `values`. -/
theorem length_bytes_back (values : List Byte) :
    (values.take (values.length % 256)).length = (BitVec.ofNat 8 values.length).toNat := by
  have hle := Nat.mod_le values.length 256
  rw [List.length_take, BitVec.toNat_ofNat]
  omega

/-- Bytes come back when they can be counted in one byte. -/
theorem bytes_fit_iff (values : List Byte) :
    values.take (values.length % 256) = values ↔ values.length ≤ 255 := by
  rw [take_mod_eq_iff values 256 (by omega), Nat.lt_succ_iff]

theorem ByteValues.decodesBack (code : FunctionCode) (m : ByteValues) :
    DecodesBack decode (m.serialize code) m m.values.length := by
  refine ⟨_, _, ?_, reads m.unitId code _ _ (length_bytes_back m.values), ?_⟩
  · exact (List.prefix_append_right_inj _).mpr (List.take_prefix _ _)
  · rw [← bytes_fit_iff]
    exact ⟨congrArg ByteValues.values, fun h => by rw [h]⟩

theorem WriteMultipleCoilsRequest.decodesBack (code : FunctionCode)
    (m : WriteMultipleCoilsRequest) :
    DecodesBack decode (m.serialize code) m m.values.length := by
  have h := reads m.unitId code (hiByte m.startAddress) (loByte m.startAddress)
    (hiByte m.length) (loByte m.length) _ _ (length_bytes_back m.values)
  rw [word_hi_lo, word_hi_lo] at h
  refine ⟨_, _, ?_, h, ?_⟩
  · exact (List.prefix_append_right_inj _).mpr (List.take_prefix _ _)
  · rw [← bytes_fit_iff]
    exact ⟨congrArg WriteMultipleCoilsRequest.values, fun h => by rw [h]⟩

/-- Registers come back when their bytes can be counted in one byte. -/
theorem registers_fit_iff (ws : List Word) :
    ws.take (ws.length % 128) = ws ↔ 2 * ws.length ≤ 255 := by
  rw [take_mod_eq_iff ws 128 (by omega)]
  omega

theorem WriteMultipleRegistersRequest.decodesBack (code : FunctionCode)
    (m : WriteMultipleRegistersRequest) :
    DecodesBack decode (m.serialize code) m (2 * m.values.length) := by
  obtain ⟨vs, hp, hlen, hw⟩ := registers_back m.values
  have h := reads m.unitId code (hiByte m.startAddress) (loByte m.startAddress)
    (hiByte m.length) (loByte m.length) _ vs hlen
  rw [word_hi_lo, word_hi_lo, hw] at h
  refine ⟨_, _, ?_, h, ?_⟩
  · exact (List.prefix_append_right_inj _).mpr hp
  · rw [← registers_fit_iff]
    exact ⟨congrArg WriteMultipleRegistersRequest.values, fun h => by rw [h]⟩

theorem ReadWriteRegistersRequest.decodesBack (code : FunctionCode) (u : Byte) (r k w : Word)
    (values : List Word) :
    DecodesBack decode ((ofValues u r k w values).serialize code) (ofValues u r k w values)
      (2 * values.length) := by
  obtain ⟨vs, hp, hlen, hw⟩ := registers_back values
  have h := reads u code (hiByte r) (loByte r) (hiByte k) (loByte k) (hiByte w) (loByte w)
    (hiByte (BitVec.ofNat 16 values.length)) (loByte (BitVec.ofNat 16 values.length)) _ vs hlen
  rw [word_hi_lo, word_hi_lo, word_hi_lo, hw] at h
  refine ⟨_, _, ?_, h, ?_⟩
  · exact (List.prefix_append_right_inj _).mpr hp
  · rw [← registers_fit_iff]
    exact ⟨congrArg ReadWriteRegistersRequest.values, fun h => by rw [h]⟩

theorem ReadWriteRegistersResponse.decodesBack (code : FunctionCode)
    (m : ReadWriteRegistersResponse) :
    DecodesBack decode (m.serialize code) m (2 * m.values.length) := by
  obtain ⟨vs, hp, hlen, hw⟩ := registers_back m.values
  have h := reads m.unitId code _ vs hlen
  rw [hw] at h
  refine ⟨_, _, ?_, h, ?_⟩
  · exact (List.prefix_append_right_inj _).mpr hp
  · rw [← registers_fit_iff]
    exact ⟨congrArg ReadWriteRegistersResponse.values, fun h => by rw [h]⟩

/-! ## All message types -/

/-- The data bytes a message carries after its byte count. -/
def Message.dataBytes : Message → Nat
  | .writeMultipleCoilsRequest m => m.values.length
  | .writeMultipleRegistersRequest m => 2 * m.values.length
  | .readWriteRegistersRequest m => 2 * m.values.length
  | .readCoilsResponse m => m.values.length
  | .readDiscreteInputsResponse m => m.values.length
  | .readHoldingRegistersResponse m => m.values.length
  | .readInputRegistersResponse m => m.values.length
  | .readWriteRegistersResponse m => 2 * m.values.length
  | _ => 0

/-- An exception response for a function code without the exception flag, or
any other message. -/
def Message.FlagFree : Message → Prop
  | .exceptionResponse m => m.funcCode.toNat < 0x80
  | _ => True

/-- Every constructed message comes back from its own bytes, up to the limit of
the byte count. -/
theorem Message.decodesBack {m : Message} (hm : Constructed m) (hc : m.FlagFree) :
    DecodesBack m.kind.decode m.serialize m m.dataBytes := by
  cases hm with
  | readCoilsRequest | readDiscreteInputsRequest | readHoldingRegistersRequest
  | readInputRegistersRequest | writeMultipleCoilsResponse | writeMultipleRegistersResponse =>
    exact (AddressRange.decodesBack _ _).map (by simp)
  | writeSingleCoilRequest | writeSingleCoilResponse =>
    exact (CoilValue.decodesBack _ _).map (by simp)
  | writeSingleRegisterRequest | writeSingleRegisterResponse =>
    exact (RegisterValue.decodesBack _ _).map (by simp)
  | maskWriteRegisterRequest | maskWriteRegisterResponse =>
    exact (RegisterMask.decodesBack _ _).map (by simp)
  | writeMultipleCoilsRequest | writeMultipleCoilsRequestBools =>
    exact (WriteMultipleCoilsRequest.decodesBack _ _).map (by simp)
  | writeMultipleRegistersRequest =>
    exact (WriteMultipleRegistersRequest.decodesBack _ _).map (by simp)
  | readWriteRegistersRequest =>
    exact (ReadWriteRegistersRequest.decodesBack _ _ _ _ _ _).map (by simp)
  | exceptionResponse =>
    exact (ExceptionResponse.decodesBack _ hc).map (by simp)
  | readCoilsResponse | readDiscreteInputsResponse | readHoldingRegistersResponse
  | readHoldingRegistersResponseWords | readInputRegistersResponse
  | readInputRegistersResponseWords =>
    exact (ByteValues.decodesBack _ _).map (by simp)
  | readWriteRegistersResponse =>
    exact (ReadWriteRegistersResponse.decodesBack _ _).map (by simp)

end Modbus
