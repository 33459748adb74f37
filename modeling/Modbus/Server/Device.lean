import Modbus.Server.Service

/-! # The device behind the handler

What a client of the server is told to expect is a device with four tables: coils and
holding registers that keep what was last written, and two tables of inputs. The
memory of the handler shows one (`RequestHandler.device`). A branch that the access
check granted stays inside its vectors exactly when it has the values it indexes
(`Request.serve_ok_iff`). Switching off a coil that is on it acknowledges and ignores, and
some blocks of coils it gets wrong; where it does what it is asked to (`Regular`), the
response and the memory afterwards are those of the device (`Request.serve_refines`). -/
namespace Modbus.Server
open Bytes Checked TcpDataUnit Writes

structure Device where
  coils : Nat → Bool
  discreteInputs : Nat → Bool
  holdingRegisters : Nat → Word
  inputRegisters : Nat → Word

/-- What a request is answered with. -/
inductive Reply where
  | bits (values : List Bool)
  | words (values : List Word)
  | written
deriving DecidableEq, Repr

namespace Request

/-- The coils a request writes, in order. -/
def coilWrites : Request → List (Nat × Bool)
  | .writeSingleCoil r => [(r.startAddress.toNat, r.value)]
  | .writeMultipleCoils r =>
    (List.range r.length.toNat).map fun i => (r.startAddress.toNat + i, bitAt r.values i)
  | _ => []

/-- The registers a request writes, in order. -/
def registerWrites : Request → List (Nat × Word)
  | .writeSingleRegister r => [(r.startAddress.toNat, r.value)]
  | .writeMultipleRegisters r =>
    (List.range r.length.toNat).map fun i => (r.startAddress.toNat + i, r.values.getD i 0)
  | _ => []

/-- What a client that sent the request reads from a response of the type that belongs to
it. The handler acknowledges three of the writes with the request itself. -/
def shown : Request → Message → Option Reply
  | .readDiscreteInputs r, .readDiscreteInputsResponse m =>
    some (.bits ((List.range r.length.toNat).map fun i => bitAt m.values i))
  | .readCoils r, .readCoilsResponse m =>
    some (.bits ((List.range r.length.toNat).map fun i => bitAt m.values i))
  | .readHoldingRegisters _, .readHoldingRegistersResponse m => some (.words (wordsOf m.values))
  | .readInputRegisters _, .readInputRegistersResponse m => some (.words (wordsOf m.values))
  | .writeSingleCoil _, .writeSingleCoilResponse _ => some .written
  | .writeSingleCoil _, .writeSingleCoilRequest _ => some .written
  | .writeMultipleCoils _, .writeMultipleCoilsResponse _ => some .written
  | .writeSingleRegister _, .writeSingleRegisterResponse _ => some .written
  | .writeSingleRegister _, .writeSingleRegisterRequest _ => some .written
  | .writeMultipleRegisters _, .writeMultipleRegistersResponse _ => some .written
  | .writeMultipleRegisters _, .writeMultipleRegistersRequest _ => some .written
  | _, _ => none

end Request

namespace Device

def apply (d : Device) (r : Request) : Device :=
  { d with
    coils := applyWrites d.coils r.coilWrites
    holdingRegisters := applyWrites d.holdingRegisters r.registerWrites }

def reply (d : Device) (r : Request) : Reply :=
  match r with
  | .readDiscreteInputs _ =>
    .bits ((List.range r.length).map fun i => d.discreteInputs (r.startAddress + i))
  | .readCoils _ => .bits ((List.range r.length).map fun i => d.coils (r.startAddress + i))
  | .readHoldingRegisters _ =>
    .words ((List.range r.length).map fun i => d.holdingRegisters (r.startAddress + i))
  | .readInputRegisters _ =>
    .words ((List.range r.length).map fun i => d.inputRegisters (r.startAddress + i))
  | _ => .written

end Device

namespace RequestHandler

/-- The device that the memory shows. -/
def device (h : RequestHandler) : Device where
  coils := bitAt (h.memorySpace .coils)
  discreteInputs := bitAt (h.memorySpace .discreteInputs)
  holdingRegisters := registerAt (h.memorySpace .holdingRegisters)
  inputRegisters := registerAt (h.memorySpace .inputRegisters)

/-- Every valid address is in the memory. -/
structure WellFormed (h : RequestHandler) : Prop where
  coils : (h.validAddresses .coils).length ≤ (h.memorySpace .coils).length
  discreteInputs : (h.validAddresses .discreteInputs).length ≤ (h.memorySpace .discreteInputs).length
  holdingRegisters : RegistersFit (h.validAddresses .holdingRegisters) (h.memorySpace .holdingRegisters)
  inputRegisters : RegistersFit (h.validAddresses .inputRegisters) (h.memorySpace .inputRegisters)

end RequestHandler

/-- A handler whose masks were respected is as well formed as before. -/
theorem Protected.wellFormed {h h' : RequestHandler} (hsame : Protected h h')
    (hh : h.WellFormed) : h'.WellFormed := by
  refine ⟨?_, ?_, ?_, ?_⟩
  · rw [hsame.validAddresses, hsame.length]
    exact hh.coils
  · rw [hsame.validAddresses, hsame.length]
    exact hh.discreteInputs
  · intro a ha
    rw [hsame.validAddresses] at ha
    rw [hsame.length]
    exact hh.holdingRegisters a ha
  · intro a ha
    rw [hsame.validAddresses] at ha
    rw [hsame.length]
    exact hh.inputRegisters a ha

theorem wellFormed_initial : RequestHandler.initial.WellFormed := by
  have hfit : ∀ mem : Buffer, mem.length = 8 → RegistersFit [0x0B] mem := by
    intro mem hmem a ha
    have hlt := lt_length_of_bitAt ha
    have hall : ∀ a < 8, bitAt [0x0B] a = true → a < 4 := by decide
    have ha4 := hall a (by simp at hlt; omega) ha
    unfold intMax
    omega
  exact ⟨by decide, by decide, hfit _ rfl, hfit _ rfl⟩

/-! ## Blocks as writes and reads of a table -/

/-- The values read from a range of coils. -/
theorem copyDataBits_shown {src bm out : Buffer} {start n : Nat} (hn : 1 ≤ n)
    (hbm : createRequestBitMap start n = .ok bm) (hfit : start / 8 + bm.length ≤ src.length)
    (h : copyDataBits src bm start n = .ok out) :
    (List.range n).map (fun i => bitAt out i) =
      (List.range n).map fun i => bitAt src (start + i) := by
  obtain ⟨out', hout', _, hbits⟩ := copyDataBits_total hn hbm hfit
  obtain rfl : out' = out := Except.ok.inj (hout'.symm.trans h)
  exact List.map_congr_left fun i hi => hbits i (List.mem_range.mp hi)

/-- The values read from a range of registers. -/
theorem copyDataRegisters_shown {src out : Buffer} {start n : Nat} (hn : 1 ≤ n)
    (hfit : 2 * (start + (n - 1)) + 1 < src.length)
    (hint : 2 * (start + (n - 1)) + 1 ≤ intMax)
    (h : copyDataRegisters src start n = .ok out) :
    wordsOf out = (List.range n).map fun i => registerAt src (start + i) := by
  obtain ⟨out', hout', hlen, hbytes⟩ := copyDataRegisters_total hn hfit hint
    (count_of_copyDataRegisters h)
  obtain rfl : out' = out := Except.ok.inj (hout'.symm.trans h)
  have hout : out' = bytesOf ((List.range n).map fun i => registerAt src (start + i)) := by
    refine List.ext_getElem? fun k => ?_
    by_cases hk : k < 2 * n
    · have hin : k / 2 < n := by omega
      rw [hbytes k hk]
      rcases Nat.mod_two_eq_zero_or_one k with heven | hodd
      · obtain ⟨i, rfl⟩ : ∃ i, k = 2 * i := ⟨k / 2, by omega⟩
        rw [getElem?_bytesOf_hi, List.getElem?_map, List.getElem?_range (by omega)]
        simp only [Option.map_some, registerAt, hiByte_word]
        rw [show 2 * i + 2 * start = 2 * (start + i) by omega]
      · obtain ⟨i, rfl⟩ : ∃ i, k = 2 * i + 1 := ⟨k / 2, by omega⟩
        rw [getElem?_bytesOf_lo, List.getElem?_map, List.getElem?_range (by omega)]
        simp only [Option.map_some, registerAt, loByte_word]
        rw [show 2 * i + 1 + 2 * start = 2 * (start + i) + 1 by omega]
    · rw [List.getElem?_eq_none (by omega), List.getElem?_eq_none]
      rw [length_bytesOf, List.length_map, List.length_range]
      omega
  rw [hout, wordsOf_bytesOf]

/-- A block write of registers that did not fault had a value for each. -/
theorem length_of_writeRegisters {vs : List Word} {mem mem' : Buffer} {a n : Nat} (hn : 1 ≤ n)
    (h : writeRegisters vs mem a n = .ok mem') : n ≤ vs.length := by
  simp only [writeRegisters, bind_ok, int_ok] at h
  obtain ⟨_, ⟨_, rfl⟩, hloop⟩ := h
  have hread : n = 0 ∨ n - 1 < vs.length :=
    loop_invariant (P := fun i _ => i = 0 ∨ i - 1 < vs.length) (Nat.zero_le n) (.inl rfl) (by
      intro i m m' _ _ _ hbody
      simp only [bind_ok, get_ok] at hbody
      obtain ⟨_, _, v, hv, _⟩ := hbody
      exact .inr (List.getElem?_eq_some_iff.mp hv).1) hloop
  omega

/-- Where a block write of coils carries nothing into a byte that it has moved before, and
its bitmap marks no coil too many. -/
def Straight (start n : Nat) : Prop :=
  (start % 8 = 0 ∨ start % 8 + n ≤ 16) ∧ n % 8 + start % 8 ≠ 8

instance (start n : Nat) : Decidable (Straight start n) := inferInstanceAs (Decidable (_ ∧ _))

/-- There it amounts to a write for every coil. -/
theorem writeCoils_writes {mem mem' bm values : Buffer} {start n : Nat} (hn : 1 ≤ n)
    (hstraight : Straight start n) (hbm : createRequestBitMap start n = .ok bm)
    (h : writeCoils mem bm values start = .ok mem') :
    bitAt mem' = applyWrites (bitAt mem)
      ((List.range n).map fun i => (start + i, bitAt values i)) := by
  obtain ⟨hcarry, hclosed⟩ := hstraight
  funext a
  rw [applyWrites_eq]
  by_cases ha : start ≤ a ∧ a < start + n
  · obtain ⟨i, rfl⟩ : ∃ i, a = start + i := Nat.exists_eq_add_of_le ha.1
    have hi : i < n := by omega
    have hvalue : lastWritten (bitAt mem)
        ((List.range n).map fun i => (start + i, bitAt values i)) (start + i) = bitAt values i :=
      lastWritten_map (fun _ _ hxy => Nat.add_left_cancel hxy) (List.mem_range.mpr hi)
    rw [hvalue, writeCoils_bits hn hbm h i hi, if_neg (by omega)]
  · rw [lastWritten_of_forall_ne, bitAt_writeCoils h, if_neg]
    · rintro ⟨hlo, hbit⟩
      rw [bitAt_createRequestBitMap hn hbm, if_neg hclosed] at hbit
      omega
    · intro w hw
      obtain ⟨i, hi, rfl⟩ := List.mem_map.mp hw
      have hin := List.mem_range.mp hi
      exact fun heq => ha (by omega)

/-! ## Branches -/

namespace Request

/-- The values that the branch of a block write indexes are there. -/
def Safe : Request → Prop
  | .writeMultipleCoils r =>
    (r.length.toNat + r.startAddress.toNat % 8) / 8 + 1 ≤ r.values.length
  | .writeMultipleRegisters r => r.length.toNat ≤ r.values.length
  | _ => True

instance : DecidablePred Safe := fun r => by
  cases r <;> unfold Safe <;> infer_instance

/-- A branch of the handler does what the device does. Left out are switching off a coil
that is on, which the handler acknowledges and ignores, and the blocks of coils that
`write_coils` cannot write. -/
def Regular (d : Device) : Request → Prop
  | .writeSingleCoil r => r.value = true ∨ d.coils r.startAddress.toNat = false
  | .writeMultipleCoils r => Straight r.startAddress.toNat r.length.toNat
  | _ => True

section Branches
variable {h : RequestHandler} {r : Request} {bm : Buffer}

/-- The addresses of a granted request are in the memory. -/
theorem bits_fit {row : DataRow} {start : Nat}
    (hmask : (h.validAddresses row).length ≤ (h.memorySpace row).length)
    (hlegal : legalAddress (h.validAddresses row) bm start = .ok true) :
    bm ≠ [] ∧ start / 8 + bm.length ≤ (h.memorySpace row).length := by
  obtain ⟨hne, hfit, _⟩ := legalAddress_iff.mp hlegal
  exact ⟨hne, Nat.le_trans hfit hmask⟩

theorem registers_fit {row : DataRow} {start n : Nat}
    (hmask : RegistersFit (h.validAddresses row) (h.memorySpace row))
    (hbm : createRequestBitMap start n = .ok bm)
    (hlegal : legalAddress (h.validAddresses row) bm start = .ok true) :
    1 ≤ n ∧ ∀ i < n, 2 * (start + i) + 1 < (h.memorySpace row).length ∧
      2 * (start + i) + 1 ≤ intMax := by
  have hacc : Accepted (h.validAddresses row) start n := ⟨bm, hbm, hlegal⟩
  exact ⟨hacc.pos, fun i hi => hmask _ (hacc.allowed hi)⟩

/-- The number of bytes that a request counts is an `int`. -/
theorem byteCount_le (count : Word) : 2 * count.toNat ≤ intMax := by
  have hlt := count.isLt
  unfold intMax
  omega

/-- Storing a row of coils or of registers changes one table of the device. -/
theorem store_coils {data : Buffer} {coils : Nat → Bool} (hview : bitAt data = coils) :
    (h.store .coils data).device = { h.device with coils } := by
  rw [← hview]
  rfl

theorem store_registers {data : Buffer} {registers : Nat → Word} (hview : registerAt data = registers) :
    (h.store .holdingRegisters data).device = { h.device with holdingRegisters := registers } := by
  rw [← hview]
  rfl

/-- A branch that returns returns the response and the row. -/
theorem exists_bind {α : Type} {x : Except Fault α} {f : α → Message × Buffer} :
    (∃ m data, (x >>= fun a => Except.ok (f a)) = .ok (m, data)) ↔ ∃ a, x = .ok a := by
  cases x with
  | error e => exact iff_of_false (by rintro ⟨_, _, h⟩; cases h) (by rintro ⟨_, h⟩; cases h)
  | ok a => exact iff_of_true ⟨_, _, rfl⟩ ⟨a, rfl⟩

/-- A granted branch stays inside its vectors exactly when it has the values it indexes. -/
theorem serve_ok_iff (hh : h.WellFormed) (unitId : Byte)
    (hbm : createRequestBitMap r.startAddress r.length = .ok bm)
    (hlegal : legalAddress (h.validAddresses r.dataRow) bm r.startAddress = .ok true) :
    (∃ m data, r.serve unitId bm (h.memorySpace r.dataRow) = .ok (m, data)) ↔ r.Safe := by
  have hpos : 1 ≤ r.length := Accepted.pos ⟨bm, hbm, hlegal⟩
  cases r with
  | readDiscreteInputs q =>
    obtain ⟨_, hfit⟩ := bits_fit hh.discreteInputs hlegal
    obtain ⟨out, hout, _⟩ := copyDataBits_total hpos hbm hfit
    exact iff_of_true (exists_bind.mpr ⟨out, hout⟩) trivial
  | readCoils q =>
    obtain ⟨_, hfit⟩ := bits_fit hh.coils hlegal
    obtain ⟨out, hout, _⟩ := copyDataBits_total hpos hbm hfit
    exact iff_of_true (exists_bind.mpr ⟨out, hout⟩) trivial
  | writeSingleCoil q =>
    obtain ⟨hne, hfit⟩ := bits_fit hh.coils hlegal
    have hlt := List.length_pos_iff.mpr hne
    have hin : q.startAddress.toNat / 8 < (h.memorySpace .coils).length :=
      Nat.lt_of_lt_of_le (Nat.lt_add_of_pos_right hlt) hfit
    obtain ⟨mem, hmem, _⟩ := writeCoil_total (h.memorySpace .coils) q.value q.startAddress.toNat hin
    refine iff_of_true (exists_bind.mpr ?_) trivial
    cases hvalue : q.value with
    | true => exact ⟨mem, by rw [if_pos rfl, ← hmem, hvalue]; rfl⟩
    | false => exact ⟨_, rfl⟩
  | writeMultipleCoils q =>
    obtain ⟨hne, hfit⟩ := bits_fit hh.coils hlegal
    have hlen : bm.length = (q.length.toNat + q.startAddress.toNat % 8) / 8 + 1 :=
      length_createRequestBitMap hpos hbm
    have hiff := @writeCoils_ok_iff _ _ q.values _ hne hfit
    rw [hlen] at hiff
    exact exists_bind.trans hiff
  | readHoldingRegisters q =>
    obtain ⟨_, hfit⟩ := registers_fit hh.holdingRegisters hbm hlegal
    obtain ⟨hlast, hint⟩ := hfit (q.length.toNat - 1) (Nat.sub_lt hpos Nat.one_pos)
    obtain ⟨out, hout, _⟩ := copyDataRegisters_total hpos hlast hint (byteCount_le q.length)
    exact iff_of_true (exists_bind.mpr ⟨out, hout⟩) trivial
  | readInputRegisters q =>
    obtain ⟨_, hfit⟩ := registers_fit hh.inputRegisters hbm hlegal
    obtain ⟨hlast, hint⟩ := hfit (q.length.toNat - 1) (Nat.sub_lt hpos Nat.one_pos)
    obtain ⟨out, hout, _⟩ := copyDataRegisters_total hpos hlast hint (byteCount_le q.length)
    exact iff_of_true (exists_bind.mpr ⟨out, hout⟩) trivial
  | writeSingleRegister q =>
    obtain ⟨_, hfit⟩ := registers_fit hh.holdingRegisters hbm hlegal
    obtain ⟨hin, hint⟩ := hfit 0 Nat.one_pos
    obtain ⟨mem, hmem, _⟩ := writeRegister_total _ q.value q.startAddress.toNat hin hint
    exact iff_of_true (exists_bind.mpr ⟨mem, hmem⟩) trivial
  | writeMultipleRegisters q =>
    obtain ⟨_, hfit⟩ := registers_fit hh.holdingRegisters hbm hlegal
    refine exists_bind.trans ⟨?_, fun hvalues => ?_⟩
    · rintro ⟨mem, hmem⟩
      exact length_of_writeRegisters hpos hmem
    · obtain ⟨mem, hmem, _⟩ := writeRegisters_first _ q.values q.startAddress.toNat hvalues hfit hpos
      exact ⟨mem, hmem⟩

/-- A granted branch that returns answers as the device does and leaves it as the device
would be, when it is regular. -/
theorem serve_refines (hh : h.WellFormed) {unitId : Byte} {m : Message} {data : Buffer}
    (hbm : createRequestBitMap r.startAddress r.length = .ok bm)
    (hlegal : legalAddress (h.validAddresses r.dataRow) bm r.startAddress = .ok true)
    (hregular : r.Regular h.device)
    (hserve : r.serve unitId bm (h.memorySpace r.dataRow) = .ok (m, data)) :
    r.shown m = some (h.device.reply r) ∧ (h.store r.dataRow data).device = h.device.apply r := by
  have hpos : 1 ≤ r.length := Accepted.pos ⟨bm, hbm, hlegal⟩
  cases r with
  | readDiscreteInputs q =>
    obtain ⟨out, hout, hret⟩ := bind_ok.mp hserve
    cases hret
    obtain ⟨_, hfit⟩ := bits_fit hh.discreteInputs hlegal
    refine ⟨congrArg (fun bits => some (Reply.bits bits)) (copyDataBits_shown hpos hbm hfit hout), ?_⟩
    rw [RequestHandler.store_self]
    rfl
  | readCoils q =>
    obtain ⟨out, hout, hret⟩ := bind_ok.mp hserve
    cases hret
    obtain ⟨_, hfit⟩ := bits_fit hh.coils hlegal
    refine ⟨congrArg (fun bits => some (Reply.bits bits)) (copyDataBits_shown hpos hbm hfit hout), ?_⟩
    rw [RequestHandler.store_self]
    rfl
  | readHoldingRegisters q =>
    obtain ⟨out, hout, hret⟩ := bind_ok.mp hserve
    cases hret
    obtain ⟨_, hfit⟩ := registers_fit hh.holdingRegisters hbm hlegal
    obtain ⟨hlast, hint⟩ := hfit (q.length.toNat - 1) (Nat.sub_lt hpos Nat.one_pos)
    refine ⟨congrArg (fun words => some (Reply.words words))
      (copyDataRegisters_shown hpos hlast hint hout), ?_⟩
    rw [RequestHandler.store_self]
    rfl
  | readInputRegisters q =>
    obtain ⟨out, hout, hret⟩ := bind_ok.mp hserve
    cases hret
    obtain ⟨_, hfit⟩ := registers_fit hh.inputRegisters hbm hlegal
    obtain ⟨hlast, hint⟩ := hfit (q.length.toNat - 1) (Nat.sub_lt hpos Nat.one_pos)
    refine ⟨congrArg (fun words => some (Reply.words words))
      (copyDataRegisters_shown hpos hlast hint hout), ?_⟩
    rw [RequestHandler.store_self]
    rfl
  | writeSingleCoil q =>
    obtain ⟨mem, hmem, hret⟩ := bind_ok.mp hserve
    cases hret
    refine ⟨rfl, store_coils ?_⟩
    cases hvalue : q.value with
    | true =>
      rw [hvalue, if_pos rfl] at hmem
      obtain ⟨mem', hmem', _, hview⟩ := writeCoil_total (h.memorySpace .coils) true
        q.startAddress.toNat (lt_length_of_writeCoil hmem)
      obtain rfl : mem' = data := Except.ok.inj (hmem'.symm.trans hmem)
      rw [hview, coilWrites, hvalue]
      rfl
    | false =>
      rw [hvalue] at hmem
      cases hmem
      -- the coil that is to be switched off is off
      have hoff := hregular.resolve_left (by rw [hvalue]; decide)
      rw [coilWrites, hvalue]
      exact (Function.update_eq_self_iff.mpr hoff.symm).symm
  | writeMultipleCoils q =>
    obtain ⟨mem, hmem, hret⟩ := bind_ok.mp hserve
    cases hret
    exact ⟨rfl, store_coils (writeCoils_writes hpos hregular hbm hmem)⟩
  | writeSingleRegister q =>
    obtain ⟨mem, hmem, hret⟩ := bind_ok.mp hserve
    cases hret
    obtain ⟨_, hfit⟩ := registers_fit hh.holdingRegisters hbm hlegal
    obtain ⟨hin, hint⟩ := hfit 0 Nat.one_pos
    obtain ⟨mem', hmem', _, hview⟩ := writeRegister_total _ q.value q.startAddress.toNat hin hint
    obtain rfl : mem' = data := Except.ok.inj (hmem'.symm.trans hmem)
    exact ⟨rfl, store_registers hview⟩
  | writeMultipleRegisters q =>
    obtain ⟨mem, hmem, hret⟩ := bind_ok.mp hserve
    cases hret
    obtain ⟨_, hfit⟩ := registers_fit hh.holdingRegisters hbm hlegal
    obtain ⟨mem', hmem', _, hview⟩ := writeRegisters_first _ q.values q.startAddress.toNat
      (length_of_writeRegisters hpos hmem) hfit hpos
    obtain rfl : mem' = data := Except.ok.inj (hmem'.symm.trans hmem)
    exact ⟨rfl, store_registers hview⟩

end Branches

end Request

end Modbus.Server
