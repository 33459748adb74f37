import Modbus.Core.Layout
import Modbus.Core.Response

/-! # Registers from the server's vector to the client's accessors

A register response splits its registers into bytes, the bytes travel, the decoder
collects them again, and the client reads them through `modbus_response_t` by the
byte, the register or the double register. An accessor touches a few bytes at offsets
made from its index (`Accessor.needs`); it throws when one of them is missing and
otherwise returns what they say in the order asked for. -/
namespace Modbus
open Bytes Checked Walk

/-! ## Returning and throwing -/

/-- The call returns when `inside` holds, and throws `out_of_range` when it does not. -/
def ReturnsIff {α : Type} (call : Except Exn α) (inside : Prop) : Prop :=
  (inside → ∃ a, call = .ok a) ∧ (¬ inside → call = .error .outOfRange)

theorem ReturnsIff.ok {α : Type} (a : α) {n : Nat} :
    ReturnsIff (.ok a) (∀ o ∈ ([] : List Nat), o < n) :=
  ⟨fun _ => ⟨a, rfl⟩, fun h => absurd (List.forall_mem_nil _) h⟩

/-- `at` is one more byte that has to be there. -/
theorem ReturnsIff.elementAt {α : Type} {data : Buffer} {o : Nat} {os : List Nat}
    {f : Byte → Except Exn α} (h : ∀ x, ReturnsIff (f x) (∀ p ∈ os, p < data.length)) :
    ReturnsIff (elementAt data o >>= f) (∀ p ∈ o :: os, p < data.length) := by
  rw [List.forall_mem_cons]
  by_cases ho : o < data.length
  · obtain ⟨x, hx⟩ : ∃ x, data[o]? = some x := exists_get ho
    have hread : Modbus.elementAt data o = .ok x := elementAt_ok.mpr hx
    rw [hread, ok_bind, and_iff_right ho]
    exact h x
  · have hread : Modbus.elementAt data o = .error .outOfRange := by
      rw [Modbus.elementAt, List.getElem?_eq_none (Nat.le_of_not_lt ho)]
    rw [hread]
    exact ⟨fun hin => absurd hin.1 ho, fun _ => rfl⟩

theorem ReturnsIff.map {α β : Type} {call : Except Exn α} {inside : Prop} (f : α → β)
    (h : ReturnsIff call inside) : ReturnsIff (call >>= fun a => .ok (f a)) inside := by
  constructor
  · intro hin
    obtain ⟨a, ha⟩ := h.1 hin
    exact ⟨f a, by rw [ha, ok_bind]⟩
  · intro hout
    rw [h.2 hout]
    rfl

/-! ## The accessors -/

inductive Accessor where
  | getBool
  | getUINT8
  | getINT8
  | getUINT16 (order : ByteOrder)
  | getINT16 (order : ByteOrder)
  | getUINT32 (order : ByteOrder)
  | getINT32 (order : ByteOrder)
deriving DecidableEq, Repr

namespace Accessor

/-- Calling the accessor, whatever it returns. -/
def call (r : ModbusResponse) (index : Nat) : Accessor → Except Exn Unit
  | .getBool => do let _ ← r.getBool index; return ()
  | .getUINT8 => do let _ ← r.getUINT8 index; return ()
  | .getINT8 => do let _ ← r.getINT8 index; return ()
  | .getUINT16 order => do let _ ← r.getUINT16 index order; return ()
  | .getINT16 order => do let _ ← r.getINT16 index order; return ()
  | .getUINT32 order => do let _ ← r.getUINT32 index order; return ()
  | .getINT32 order => do let _ ← r.getINT32 index order; return ()

/-- The offsets of the bytes the value is made of, the most significant one first. -/
def needs (index : Nat) : Accessor → List Nat
  | .getBool => [index / 8]
  | .getUINT8 | .getINT8 => [index]
  | .getUINT16 .normal | .getINT16 .normal => [2 * index, 2 * index + 1]
  | .getUINT16 .byteSwapped | .getINT16 .byteSwapped => [2 * index + 1, 2 * index]
  | .getUINT32 .normal | .getINT32 .normal =>
    [4 * index, 4 * index + 1, 4 * index + 2, 4 * index + 3]
  | .getUINT32 .byteSwapped | .getINT32 .byteSwapped =>
    [4 * index + 3, 4 * index + 2, 4 * index + 1, 4 * index]

end Accessor

namespace ModbusResponse

section Valid
variable {r : ModbusResponse} {data : Buffer} {i : Nat}

theorem byteAt_eq (hd : r.data = some data) (o : Nat) : r.byteAt o = elementAt data o := by
  rw [byteAt, hd, Option.getD_some]

theorem getUINT16_returnsIff (hv : r.isValid = true) (hd : r.data = some data)
    (order : ByteOrder) :
    ReturnsIff (r.getUINT16 i order) (∀ o ∈ (Accessor.getUINT16 order).needs i, o < data.length) := by
  cases order with
  | normal =>
    simp only [getUINT16, hv, byteAt_eq hd]
    exact .elementAt fun _ => .elementAt fun _ => .ok _
  | byteSwapped =>
    simp only [getUINT16, hv, byteAt_eq hd]
    exact .elementAt fun _ => .elementAt fun _ => .ok _

theorem getUINT32_returnsIff (hv : r.isValid = true) (hd : r.data = some data)
    (order : ByteOrder) :
    ReturnsIff (r.getUINT32 i order) (∀ o ∈ (Accessor.getUINT32 order).needs i, o < data.length) := by
  cases order with
  | normal =>
    simp only [getUINT32, hv, byteAt_eq hd]
    exact .elementAt fun _ => .elementAt fun _ => .elementAt fun _ => .elementAt fun _ => .ok _
  | byteSwapped =>
    simp only [getUINT32, hv, byteAt_eq hd]
    exact .elementAt fun _ => .elementAt fun _ => .elementAt fun _ => .elementAt fun _ => .ok _

/-- Every accessor of a valid response throws exactly when a byte it needs is missing. -/
theorem call_returnsIff (hv : r.isValid = true) (hd : r.data = some data) (a : Accessor) (i : Nat) :
    ReturnsIff (a.call r i) (∀ o ∈ a.needs i, o < data.length) := by
  cases a with
  | getBool =>
    refine ReturnsIff.map _ ?_
    simp only [getBool, hv, byteAt_eq hd]
    exact .elementAt fun _ => .ok _
  | getUINT8 =>
    simp only [Accessor.call, getUINT8, hv, byteAt_eq hd]
    exact .elementAt fun _ => .ok _
  | getINT8 =>
    refine ReturnsIff.map _ ?_
    simp only [getINT8, hv, byteAt_eq hd]
    exact .elementAt fun _ => .ok _
  | getUINT16 order => exact (getUINT16_returnsIff hv hd order).map _
  | getINT16 order =>
    cases order <;> exact ((getUINT16_returnsIff hv hd _).map _).map _
  | getUINT32 order => exact (getUINT32_returnsIff hv hd order).map _
  | getINT32 order =>
    cases order <;> exact ((getUINT32_returnsIff hv hd _).map _).map _

/-! ## The values -/

theorem getUINT16_byteSwapped {b0 b1 : Byte} (hv : r.isValid = true) (hd : r.data = some data)
    (h0 : data[2 * i]? = some b0) (h1 : data[2 * i + 1]? = some b1) :
    r.getUINT16 i .byteSwapped = .ok (word b1 b0) := by
  simp [getUINT16, hv, byteAt_eq hd, elementAt, h0, h1]

theorem getUINT32_of_bytes {b0 b1 b2 b3 : Byte} (hv : r.isValid = true) (hd : r.data = some data)
    (h0 : data[4 * i]? = some b0) (h1 : data[4 * i + 1]? = some b1)
    (h2 : data[4 * i + 2]? = some b2) (h3 : data[4 * i + 3]? = some b3) :
    r.getUINT32 i .normal = .ok (dword b0 b1 b2 b3) ∧
      r.getUINT32 i .byteSwapped = .ok (dword b3 b2 b1 b0) := by
  simp [getUINT32, hv, byteAt_eq hd, elementAt, h0, h1, h2, h3]

theorem getINT16_of_getUINT16 {order : ByteOrder} {x : Word} (h : r.getUINT16 i order = .ok x) :
    r.getINT16 i order = .ok x.toInt := by
  rw [getINT16, h, ok_bind, pure_eq_ok]

theorem getINT32_of_getUINT32 {order : ByteOrder} {x : BitVec 32}
    (h : r.getUINT32 i order = .ok x) : r.getINT32 i order = .ok x.toInt := by
  rw [getINT32, h, ok_bind, pure_eq_ok]

end Valid

theorem toNat_dword (b0 b1 b2 b3 : Byte) :
    (dword b0 b1 b2 b3).toNat =
      ((b0.toNat * 256 + b1.toNat) * 256 + b2.toNat) * 256 + b3.toNat := by
  have h0 := b0.isLt
  have h1 := b1.isLt
  have h2 := b2.isLt
  have h3 := b3.isLt
  simp only [dword, BitVec.toNat_add, BitVec.toNat_shiftLeft, BitVec.toNat_setWidth,
    Nat.shiftLeft_eq]
  omega

end ModbusResponse

/-! ## The whole path -/

/-- The number that bytes spell, the most significant one first. -/
def bigEndian (bytes : List Byte) : Nat := bytes.foldl (fun n b => n * 256 + b.toNat) 0

/-- What the client can read of a response that carries the registers `w`. -/
structure ReadsRegisters (r : ModbusResponse) (w : List Word) : Prop where
  register : ∀ i x, w[i]? = some x →
    r.getUINT16 i .normal = .ok x ∧ r.getINT16 i .normal = .ok x.toInt
  register_swapped : ∀ i x, w[i]? = some x → ∃ y : Word,
    y.toNat = bigEndian (bytesOf [x]).reverse ∧
      r.getUINT16 i .byteSwapped = .ok y ∧ r.getINT16 i .byteSwapped = .ok y.toInt
  double : ∀ k hi lo, w[2 * k]? = some hi → w[2 * k + 1]? = some lo → ∃ y : BitVec 32,
    y.toNat = hi.toNat * 65536 + lo.toNat ∧
      r.getUINT32 k .normal = .ok y ∧ r.getINT32 k .normal = .ok y.toInt
  double_swapped : ∀ k hi lo, w[2 * k]? = some hi → w[2 * k + 1]? = some lo → ∃ y : BitVec 32,
    y.toNat = bigEndian (bytesOf [hi, lo]).reverse ∧
      r.getUINT32 k .byteSwapped = .ok y ∧ r.getINT32 k .byteSwapped = .ok y.toInt
  throws : ∀ (a : Accessor) i, ReturnsIff (a.call r i) (∀ o ∈ a.needs i, o < 2 * w.length)

section Registers
variable {r : ModbusResponse} {w : List Word} {i : Nat}

theorem register_bytes {x : Word} (hx : w[i]? = some x) :
    (bytesOf w)[2 * i]? = some (hiByte x) ∧ (bytesOf w)[2 * i + 1]? = some (loByte x) := by
  rw [getElem?_bytesOf_hi, getElem?_bytesOf_lo, hx]
  exact ⟨rfl, rfl⟩

/-- Two registers are one double register, its upper half first. -/
theorem getUINT32_registers {hi lo : Word} (hv : r.isValid = true) (hd : r.data = some (bytesOf w))
    (hhi : w[2 * i]? = some hi) (hlo : w[2 * i + 1]? = some lo) :
    r.getUINT32 i .normal =
        .ok (ModbusResponse.dword (hiByte hi) (loByte hi) (hiByte lo) (loByte lo)) ∧
      r.getUINT32 i .byteSwapped =
        .ok (ModbusResponse.dword (loByte lo) (hiByte lo) (loByte hi) (hiByte hi)) := by
  obtain ⟨h0, h1⟩ := register_bytes hhi
  obtain ⟨h2, h3⟩ := register_bytes hlo
  rw [show 2 * (2 * i) = 4 * i by omega] at h0 h1
  rw [show 2 * (2 * i + 1) = 4 * i + 2 by omega] at h2 h3
  exact ModbusResponse.getUINT32_of_bytes hv hd h0 h1 h2 h3

/-- A valid response over the bytes of `w` gives `w` back. -/
theorem readsRegisters (hv : r.isValid = true) (hd : r.data = some (bytesOf w)) :
    ReadsRegisters r w := by
  constructor
  case register =>
    intro i x hx
    obtain ⟨hhi, hlo⟩ := register_bytes hx
    have hread := ModbusResponse.getUINT16_normal hv hd hhi hlo
    rw [word_hi_lo] at hread
    exact ⟨hread, ModbusResponse.getINT16_of_getUINT16 hread⟩
  case register_swapped =>
    intro i x hx
    obtain ⟨hhi, hlo⟩ := register_bytes hx
    have hread := ModbusResponse.getUINT16_byteSwapped hv hd hhi hlo
    refine ⟨_, ?_, hread, ModbusResponse.getINT16_of_getUINT16 hread⟩
    simp [toNat_word, bigEndian, Nat.mul_comm]
  case double =>
    intro k hi lo hhi hlo
    have hread := (getUINT32_registers hv hd hhi hlo).1
    refine ⟨_, ?_, hread, ModbusResponse.getINT32_of_getUINT32 hread⟩
    rw [ModbusResponse.toNat_dword, toNat_hiByte, toNat_loByte, toNat_hiByte, toNat_loByte]
    omega
  case double_swapped =>
    intro k hi lo hhi hlo
    have hread := (getUINT32_registers hv hd hhi hlo).2
    refine ⟨_, ?_, hread, ModbusResponse.getINT32_of_getUINT32 hread⟩
    simp [ModbusResponse.toNat_dword, bigEndian]
  case throws =>
    intro a i
    rw [← length_bytesOf]
    exact ModbusResponse.call_returnsIff hv hd a i

end Registers

/-- Registers that fit one message are split completely: the byte count does not leave
the `int`. -/
theorem ByteValues.ofWords_eq (unitId : Byte) {w : List Word} (hfit : w.length ≤ 127) :
    ofWords unitId w = .ok ⟨unitId, bytesOf w⟩ := by
  have hcount : toInt32 (w.length * 2 : Nat) = (w.length * 2 : Nat) := by
    unfold toInt32
    rw [Int.bmod_def]
    split <;> omega
  have hall : ((w.length * 2 : Nat) : Int).toNat / 2 = w.length := by omega
  simp only [ofWords, hcount, hall, List.take_length]
  rw [if_neg (by omega)]

/-- The two responses that carry registers. -/
inductive RegisterResponse where
  | holding
  | input
deriving DecidableEq, Repr

namespace RegisterResponse

def kind : RegisterResponse → MessageKind
  | .holding => .readHoldingRegistersResponse
  | .input => .readInputRegistersResponse

def message : RegisterResponse → ByteValues → Message
  | .holding => .readHoldingRegistersResponse
  | .input => .readInputRegistersResponse

def functionCode : RegisterResponse → FunctionCode
  | .holding => .readHoldingRegisters
  | .input => .readInputRegisters

theorem dataType_ne (k : RegisterResponse) :
    ModbusResponse.dataType k.functionCode ≠ .invalidDataType := by
  cases k <;> decide

/-- The decoder on the serialized bytes, wherever they stand. -/
theorem decode_serialize (k : RegisterResponse) {m : ByteValues} (hm : m.values.length ≤ 255)
    (before after : Buffer) :
    k.kind.decode (before ++ (k.message m).serialize ++ after) before.length =
      .ok (k.message m, before.length + (k.message m).size) := by
  have hcount : m.values.length = (BitVec.ofNat 8 m.values.length).toNat := by
    rw [BitVec.toNat_ofNat]
    omega
  have hreads : Reads k.kind.decode (k.message m).serialize (k.message m) := by
    cases k <;> exact (ByteValues.reads m.unitId _ _ m.values hcount).map _
  have hthere : (k.message m).serialize <+:
      (before ++ (k.message m).serialize ++ after).drop before.length := by
    rw [List.append_assoc, List.drop_left]
    exact List.prefix_append _ _
  rw [hreads _ _ hthere, Message.length_serialize]

/-- A response built from registers, sent, decoded at any place of a buffer and wrapped
for the client reads as these registers. -/
theorem response_path (k : RegisterResponse) (unitId : Byte) (w : List Word)
    (hsome : 1 ≤ w.length) (hfit : w.length ≤ 127) (before after : Buffer)
    (startAddress numValues : Word) (hnum : numValues ≠ 0#16) :
    ∃ m m', ByteValues.ofWords unitId w = .ok m ∧
      k.kind.decode (before ++ (k.message m).serialize ++ after) before.length =
        .ok (k.message m', before.length + (k.message m).size) ∧
      ReadsRegisters ⟨ModbusResponse.dataType k.functionCode, some m'.values, startAddress,
        numValues⟩ w := by
  refine ⟨⟨unitId, bytesOf w⟩, ⟨unitId, bytesOf w⟩, ByteValues.ofWords_eq unitId hfit, ?_, ?_⟩
  · exact k.decode_serialize (by rw [length_bytesOf]; omega) before after
  · apply readsRegisters _ rfl
    have hdata : bytesOf w ≠ [] := by
      intro hnil
      have hlen := length_bytesOf w
      rw [hnil, List.length_nil] at hlen
      omega
    simp [ModbusResponse.isValid, k.dataType_ne, hdata, hnum]

/-- Three holding registers behind the header of a unit. -/
theorem response_path_three :
    ∃ m m', ByteValues.ofWords 1#8 [0x1234#16, 0x8000#16, 0xFFFE#16] = .ok m ∧
      holding.kind.decode ([0, 7, 0, 0, 0, 9] ++ (holding.message m).serialize ++ [])
          [0, 7, 0, 0, 0, 9].length =
        .ok (holding.message m', [0, 7, 0, 0, 0, 9].length + (holding.message m).size) ∧
      ReadsRegisters ⟨ModbusResponse.dataType holding.functionCode, some m'.values, 0x10#16,
        3#16⟩ [0x1234#16, 0x8000#16, 0xFFFE#16] :=
  response_path .holding 1#8 [0x1234#16, 0x8000#16, 0xFFFE#16] (by decide) (by decide)
    [0, 7, 0, 0, 0, 9] [] 0x10#16 3#16 (by decide)

end RegisterResponse

end Modbus
