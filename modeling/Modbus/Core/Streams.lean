import Modbus.Lib.PrefixCode
import Modbus.Core.RoundTrip

/-! # Equal messages, equal bytes

The messages of one type are compared field by field, and one comparison forgets a
field: two `write_multiple_registers_request`s with different lengths are equal. Otherwise
equal messages are those with the same bytes (`equal_iff_frame`). Frames of messages of
one type are a prefix code, so the messages on a stream are determined by its bytes, and
those that have come by what has come of it (`stream_prefix_iff`). -/
namespace Modbus
open Bytes Checked TcpDataUnit PrefixCode

/-! ## Messages are determined by their bytes -/

theorem hi_lo_iff {w v : Word} : (hiByte w = hiByte v ∧ loByte w = loByte v) ↔ w = v := by
  constructor
  · rintro ⟨hhi, hlo⟩
    rw [← word_hi_lo w, hhi, hlo, word_hi_lo]
  · rintro rfl
    exact ⟨rfl, rfl⟩

theorem hi_lo_and {w v : Word} {p : Prop} :
    (hiByte w = hiByte v ∧ loByte w = loByte v ∧ p) ↔ (w = v ∧ p) := by
  rw [← and_assoc, hi_lo_iff]

theorem bytesOf_inj {ws vs : List Word} : bytesOf ws = bytesOf vs ↔ ws = vs := by
  refine ⟨fun h => ?_, congrArg bytesOf⟩
  rw [← wordsOf_bytesOf ws, h, wordsOf_bytesOf]

section Layouts
variable (code : FunctionCode)

theorem AddressRange.serialize_inj : Function.Injective (serialize code) := by
  rintro ⟨u, a, n⟩ ⟨u', a', n'⟩ h
  simpa [serialize, hi_lo_iff, hi_lo_and] using h

theorem CoilValue.serialize_inj : Function.Injective (serialize code) := by
  rintro ⟨u, a, v⟩ ⟨u', a', v'⟩ h
  have hvalue : v = v' := by
    cases v <;> cases v' <;> simp [serialize] at h ⊢
  subst hvalue
  simpa [serialize, hi_lo_iff] using h

theorem RegisterValue.serialize_inj : Function.Injective (serialize code) := by
  rintro ⟨u, a, v⟩ ⟨u', a', v'⟩ h
  simpa [serialize, hi_lo_iff, hi_lo_and] using h

theorem RegisterMask.serialize_inj : Function.Injective (serialize code) := by
  rintro ⟨u, a, x, o⟩ ⟨u', a', x', o'⟩ h
  simpa [serialize, hi_lo_iff, hi_lo_and] using h

theorem WriteMultipleCoilsRequest.serialize_inj : Function.Injective (serialize code) := by
  rintro ⟨u, a, n, vs⟩ ⟨u', a', n', vs'⟩ h
  simp only [serialize, List.cons_append, List.nil_append, List.cons.injEq, hi_lo_and] at h
  obtain ⟨rfl, _, rfl, rfl, _, rfl⟩ := h
  rfl

theorem WriteMultipleRegistersRequest.serialize_inj : Function.Injective (serialize code) := by
  rintro ⟨u, a, n, vs⟩ ⟨u', a', n', vs'⟩ h
  simp only [serialize, List.cons_append, List.nil_append, List.cons.injEq, hi_lo_and,
    bytesOf_inj] at h
  obtain ⟨rfl, _, rfl, rfl, _, rfl⟩ := h
  rfl

theorem ReadWriteRegistersRequest.serialize_inj : Function.Injective (serialize code) := by
  rintro ⟨u, r, k, w, n, vs⟩ ⟨u', r', k', w', n', vs'⟩ h
  simp only [serialize, List.cons_append, List.nil_append, List.cons.injEq, hi_lo_and,
    bytesOf_inj] at h
  obtain ⟨rfl, _, rfl, rfl, rfl, rfl, _, rfl⟩ := h
  rfl

theorem ByteValues.serialize_inj : Function.Injective (serialize code) := by
  rintro ⟨u, vs⟩ ⟨u', vs'⟩ h
  simp only [serialize, List.cons_append, List.nil_append, List.cons.injEq] at h
  obtain ⟨rfl, _, _, rfl⟩ := h
  rfl

theorem ReadWriteRegistersResponse.serialize_inj : Function.Injective (serialize code) := by
  rintro ⟨u, vs⟩ ⟨u', vs'⟩ h
  simp only [serialize, List.cons_append, List.nil_append, List.cons.injEq, bytesOf_inj] at h
  obtain ⟨rfl, _, _, rfl⟩ := h
  rfl

end Layouts

theorem ExceptionResponse.serialize_inj {m m' : ExceptionResponse} (hm : m.funcCode.toNat < 0x80)
    (hm' : m'.funcCode.toNat < 0x80) (h : m.serialize = m'.serialize) : m = m' := by
  obtain ⟨u, c, e⟩ := m
  obtain ⟨u', c', e'⟩ := m'
  simp only [serialize, List.cons.injEq] at h
  obtain ⟨rfl, hcode, rfl, _⟩ := h
  have hback : (c ||| 0x80#8) &&& 0x7F#8 = (c' ||| 0x80#8) &&& 0x7F#8 := by rw [hcode]
  rw [(flag_back c).mpr hm, (flag_back c').mpr hm'] at hback
  rw [hback]

/-- Messages of one type that have the same bytes are the same. -/
theorem Message.serialize_inj {m m' : Message} (htype : m.type = m'.type) (hm : m.FlagFree)
    (hm' : m'.FlagFree) (h : m.serialize = m'.serialize) : m = m' := by
  have hkind : m.kind = m'.kind := by
    obtain ⟨code, hcode, hmatches⟩ := m.serialize_code
    obtain ⟨code', hcode', hmatches'⟩ := m'.serialize_code
    obtain rfl : code = code' := by
      rw [h, hcode'] at hcode
      exact (Option.some.inj hcode).symm
    exact MessageKind.Matches.unique htype hmatches hmatches'
  cases m <;> cases m' <;> cases hkind
  case readCoilsRequest | readDiscreteInputsRequest | readHoldingRegistersRequest
    | readInputRegistersRequest | writeMultipleCoilsResponse | writeMultipleRegistersResponse =>
    exact congrArg _ (AddressRange.serialize_inj _ h)
  case writeSingleCoilRequest | writeSingleCoilResponse =>
    exact congrArg _ (CoilValue.serialize_inj _ h)
  case writeSingleRegisterRequest | writeSingleRegisterResponse =>
    exact congrArg _ (RegisterValue.serialize_inj _ h)
  case maskWriteRegisterRequest | maskWriteRegisterResponse =>
    exact congrArg _ (RegisterMask.serialize_inj _ h)
  case writeMultipleCoilsRequest =>
    exact congrArg _ (WriteMultipleCoilsRequest.serialize_inj _ h)
  case writeMultipleRegistersRequest =>
    exact congrArg _ (WriteMultipleRegistersRequest.serialize_inj _ h)
  case readWriteRegistersRequest =>
    exact congrArg _ (ReadWriteRegistersRequest.serialize_inj _ h)
  case readCoilsResponse | readDiscreteInputsResponse | readHoldingRegistersResponse
    | readInputRegistersResponse =>
    exact congrArg _ (ByteValues.serialize_inj _ h)
  case readWriteRegistersResponse =>
    exact congrArg _ (ReadWriteRegistersResponse.serialize_inj _ h)
  case exceptionResponse =>
    exact congrArg _ (ExceptionResponse.serialize_inj hm hm' h)

theorem header_inj {t t' : Word} {n n' : Nat} (h : header t n = header t' n') :
    t = t' ∧ n % 65536 = n' % 65536 := by
  have hid := transactionId_header t n [] .request
  have hlen := lengthField_header t n []
  rw [h, transactionId_header] at hid
  rw [h, lengthField_header] at hlen
  exact ⟨(Except.ok.inj hid).symm, hlen.symm⟩

/-! ## `operator==` -/

def AddressRange.equal (lhs rhs : AddressRange) : Bool :=
  lhs.unitId == rhs.unitId && lhs.startAddress == rhs.startAddress && lhs.length == rhs.length

def CoilValue.equal (lhs rhs : CoilValue) : Bool :=
  lhs.unitId == rhs.unitId && lhs.startAddress == rhs.startAddress && lhs.value == rhs.value

def RegisterValue.equal (lhs rhs : RegisterValue) : Bool :=
  lhs.unitId == rhs.unitId && lhs.startAddress == rhs.startAddress && lhs.value == rhs.value

def RegisterMask.equal (lhs rhs : RegisterMask) : Bool :=
  lhs.unitId == rhs.unitId && lhs.startAddress == rhs.startAddress &&
    lhs.andMask == rhs.andMask && lhs.orMask == rhs.orMask

def WriteMultipleCoilsRequest.equal (lhs rhs : WriteMultipleCoilsRequest) : Bool :=
  lhs.unitId == rhs.unitId && lhs.startAddress == rhs.startAddress && lhs.length == rhs.length &&
    lhs.values == rhs.values

/-- The length is not compared. -/
def WriteMultipleRegistersRequest.equal (lhs rhs : WriteMultipleRegistersRequest) : Bool :=
  lhs.unitId == rhs.unitId && lhs.startAddress == rhs.startAddress && lhs.values == rhs.values

def ReadWriteRegistersRequest.equal (lhs rhs : ReadWriteRegistersRequest) : Bool :=
  lhs.unitId == rhs.unitId && lhs.readStartAddress == rhs.readStartAddress &&
    lhs.readNumRegisters == rhs.readNumRegisters &&
    lhs.writeStartAddress == rhs.writeStartAddress &&
    lhs.writeNumRegisters == rhs.writeNumRegisters && lhs.values == rhs.values

def ExceptionResponse.equal (lhs rhs : ExceptionResponse) : Bool :=
  lhs.unitId == rhs.unitId && lhs.funcCode == rhs.funcCode &&
    lhs.exceptionCode == rhs.exceptionCode

def ByteValues.equal (lhs rhs : ByteValues) : Bool :=
  lhs.unitId == rhs.unitId && lhs.values == rhs.values

def ReadWriteRegistersResponse.equal (lhs rhs : ReadWriteRegistersResponse) : Bool :=
  lhs.unitId == rhs.unitId && lhs.values == rhs.values

/-- `lhs == rhs`, which compiles for messages of one type only. -/
def Message.equal : Message → Message → Bool
  | .readCoilsRequest lhs, .readCoilsRequest rhs => lhs.equal rhs
  | .readDiscreteInputsRequest lhs, .readDiscreteInputsRequest rhs => lhs.equal rhs
  | .readHoldingRegistersRequest lhs, .readHoldingRegistersRequest rhs => lhs.equal rhs
  | .readInputRegistersRequest lhs, .readInputRegistersRequest rhs => lhs.equal rhs
  | .writeSingleCoilRequest lhs, .writeSingleCoilRequest rhs => lhs.equal rhs
  | .writeSingleRegisterRequest lhs, .writeSingleRegisterRequest rhs => lhs.equal rhs
  | .writeMultipleCoilsRequest lhs, .writeMultipleCoilsRequest rhs => lhs.equal rhs
  | .writeMultipleRegistersRequest lhs, .writeMultipleRegistersRequest rhs => lhs.equal rhs
  | .readWriteRegistersRequest lhs, .readWriteRegistersRequest rhs => lhs.equal rhs
  | .maskWriteRegisterRequest lhs, .maskWriteRegisterRequest rhs => lhs.equal rhs
  | .exceptionResponse lhs, .exceptionResponse rhs => lhs.equal rhs
  | .readCoilsResponse lhs, .readCoilsResponse rhs => lhs.equal rhs
  | .readDiscreteInputsResponse lhs, .readDiscreteInputsResponse rhs => lhs.equal rhs
  | .readHoldingRegistersResponse lhs, .readHoldingRegistersResponse rhs => lhs.equal rhs
  | .readInputRegistersResponse lhs, .readInputRegistersResponse rhs => lhs.equal rhs
  | .writeSingleCoilResponse lhs, .writeSingleCoilResponse rhs => lhs.equal rhs
  | .writeSingleRegisterResponse lhs, .writeSingleRegisterResponse rhs => lhs.equal rhs
  | .writeMultipleCoilsResponse lhs, .writeMultipleCoilsResponse rhs => lhs.equal rhs
  | .writeMultipleRegistersResponse lhs, .writeMultipleRegistersResponse rhs => lhs.equal rhs
  | .readWriteRegistersResponse lhs, .readWriteRegistersResponse rhs => lhs.equal rhs
  | .maskWriteRegisterResponse lhs, .maskWriteRegisterResponse rhs => lhs.equal rhs
  | _, _ => false

theorem AddressRange.equal_iff {lhs rhs : AddressRange} : lhs.equal rhs = true ↔ lhs = rhs := by
  cases lhs
  cases rhs
  simp [equal, and_assoc]

theorem CoilValue.equal_iff {lhs rhs : CoilValue} : lhs.equal rhs = true ↔ lhs = rhs := by
  cases lhs
  cases rhs
  simp [equal, and_assoc]

theorem RegisterValue.equal_iff {lhs rhs : RegisterValue} : lhs.equal rhs = true ↔ lhs = rhs := by
  cases lhs
  cases rhs
  simp [equal, and_assoc]

theorem RegisterMask.equal_iff {lhs rhs : RegisterMask} : lhs.equal rhs = true ↔ lhs = rhs := by
  cases lhs
  cases rhs
  simp [equal, and_assoc]

theorem WriteMultipleCoilsRequest.equal_iff {lhs rhs : WriteMultipleCoilsRequest} :
    lhs.equal rhs = true ↔ lhs = rhs := by
  cases lhs
  cases rhs
  simp [equal, and_assoc]

theorem ReadWriteRegistersRequest.equal_iff {lhs rhs : ReadWriteRegistersRequest} :
    lhs.equal rhs = true ↔ lhs = rhs := by
  cases lhs
  cases rhs
  simp [equal, and_assoc]

theorem ExceptionResponse.equal_iff {lhs rhs : ExceptionResponse} :
    lhs.equal rhs = true ↔ lhs = rhs := by
  cases lhs
  cases rhs
  simp [equal, and_assoc]

theorem ByteValues.equal_iff {lhs rhs : ByteValues} : lhs.equal rhs = true ↔ lhs = rhs := by
  cases lhs
  cases rhs
  simp [equal]

theorem ReadWriteRegistersResponse.equal_iff {lhs rhs : ReadWriteRegistersResponse} :
    lhs.equal rhs = true ↔ lhs = rhs := by
  cases lhs
  cases rhs
  simp [equal]

/-- Two block writes of registers that differ in their lengths at most. -/
def SameButLength (m m' : Message) : Prop :=
  ∃ unitId startAddress length length' values,
    m = .writeMultipleRegistersRequest ⟨unitId, startAddress, length, values⟩ ∧
      m' = .writeMultipleRegistersRequest ⟨unitId, startAddress, length', values⟩

theorem Message.equal_iff {m m' : Message} (hkind : m.kind = m'.kind) :
    m.equal m' = true ↔ m = m' ∨ SameButLength m m' := by
  cases m <;> cases m' <;> cases hkind
  case writeMultipleRegistersRequest lhs rhs =>
    obtain ⟨u, a, n, vs⟩ := lhs
    obtain ⟨u', a', n', vs'⟩ := rhs
    constructor
    · intro h
      simp only [equal, WriteMultipleRegistersRequest.equal, Bool.and_eq_true, beq_iff_eq] at h
      obtain ⟨⟨rfl, rfl⟩, rfl⟩ := h
      exact .inr ⟨u, a, n, n', vs, rfl, rfl⟩
    · rintro (h | ⟨_, _, _, _, _, h, h'⟩)
      · cases h
        simp [equal, WriteMultipleRegistersRequest.equal]
      · cases h
        cases h'
        simp [equal, WriteMultipleRegistersRequest.equal]
  all_goals
    simp [equal, SameButLength, AddressRange.equal_iff, CoilValue.equal_iff,
      RegisterValue.equal_iff, RegisterMask.equal_iff, WriteMultipleCoilsRequest.equal_iff,
      ReadWriteRegistersRequest.equal_iff, ExceptionResponse.equal_iff, ByteValues.equal_iff,
      ReadWriteRegistersResponse.equal_iff]

/-! ## Frames -/

/-- A frame that another continues, or that is the other, is of the same message. -/
theorem frame_prefix_inj {t t' : Word} {m m' : Message} (htype : m.type = m'.type)
    (hm : m.FlagFree) (hm' : m'.FlagFree) (hsize : m.size < 65536) (hsize' : m'.size < 65536)
    (h : frame t m <+: frame t' m') : t = t' ∧ m = m' := by
  obtain ⟨rest, hrest⟩ := h
  rw [frame, frame, List.append_assoc] at hrest
  obtain ⟨hheader, hbody⟩ := List.append_inj hrest rfl
  obtain ⟨rfl, hlen⟩ := header_inj hheader
  rw [Nat.mod_eq_of_lt hsize, Nat.mod_eq_of_lt hsize', ← m.length_serialize,
    ← m'.length_serialize] at hlen
  refine ⟨rfl, Message.serialize_inj htype hm hm' ?_⟩
  exact (List.prefix_append m.serialize rest |>.trans (hbody ▸ List.prefix_refl _)).eq_of_length hlen

/-- The comparison of two messages of one type finds that they have the same frame, unless
they are block writes of registers: there it does not see the length. -/
theorem equal_iff_frame (t : Word) (m m' : Message) (hkind : m.kind = m'.kind) (hm : m.FlagFree)
    (hm' : m'.FlagFree) : m.equal m' = true ↔ frame t m = frame t m' ∨ SameButLength m m' := by
  rw [Message.equal_iff hkind]
  refine or_congr_left ⟨congrArg _, fun h => ?_⟩
  have htype : m.type = m'.type := congrArg MessageKind.type hkind
  exact Message.serialize_inj htype hm hm' (List.append_inj_right h rfl)

/-- Two registers to write, and three to write with two values. -/
theorem equal_iff_frame_lengths :
    let m := Message.writeMultipleRegistersRequest ⟨17, 1, 2, [10, 258]⟩
    let m' := Message.writeMultipleRegistersRequest ⟨17, 1, 3, [10, 258]⟩
    m.equal m' = true ∧ frame 1 m ≠ frame 1 m' ∧
      (m.equal m' = true ↔ frame 1 m = frame 1 m' ∨ SameButLength m m') :=
  ⟨by decide, by decide, equal_iff_frame 1 _ _ rfl trivial trivial⟩

/-- What may stand in a stream of messages of one type: the size must fit into the length
field. -/
def Streamed (type : MessageType) (p : Word × Message) : Prop :=
  p.2.type = type ∧ p.2.FlagFree ∧ p.2.size < 65536

theorem prefixFree_frames (type : MessageType) :
    PrefixFree (fun p : Word × Message => frame p.1 p.2) {p | Streamed type p} where
  nonempty p _ h := by
    have hlen := congrArg List.length h
    rw [length_frame] at hlen
    unfold tcpHeaderSize at hlen
    simp at hlen
  eq_of_prefix p hp q hq h := by
    obtain ⟨hptype, hpflag, hpsize⟩ := hp
    obtain ⟨hqtype, hqflag, hqsize⟩ := hq
    obtain ⟨hid, hm⟩ := frame_prefix_inj (hptype.trans hqtype.symm) hpflag hqflag hpsize hqsize h
    exact Prod.ext hid hm

/-- One stream of frames of messages of one type continues another exactly when its
messages, with their transaction ids, continue those of the other; so a stream has one
reading, and what has come of it is read as the whole will be. -/
theorem stream_prefix_iff (type : MessageType) (ms ms' : List (Word × Message))
    (hms : ∀ p ∈ ms, Streamed type p) (hms' : ∀ p ∈ ms', Streamed type p) :
    ((ms.flatMap fun p => frame p.1 p.2) <+: ms'.flatMap fun p => frame p.1 p.2) ↔ ms <+: ms' :=
  (prefixFree_frames type).flatMap_prefix_iff hms hms'

/-- A read request, and a write request behind it. -/
theorem stream_prefix_iff_two :
    let ms : List (Word × Message) := [(1, .readCoilsRequest ⟨1, 0, 8⟩)]
    let ms' := ms ++ [(2, .writeSingleCoilRequest ⟨1, 0, true⟩)]
    ((ms.flatMap fun p => frame p.1 p.2) <+: ms'.flatMap fun p => frame p.1 p.2) ↔ ms <+: ms' :=
  stream_prefix_iff .request _ _
    (List.forall_mem_singleton.mpr ⟨rfl, trivial, by decide⟩)
    (List.forall_mem_cons.mpr ⟨⟨rfl, trivial, by decide⟩,
      List.forall_mem_singleton.mpr ⟨rfl, trivial, by decide⟩⟩)

end Modbus
