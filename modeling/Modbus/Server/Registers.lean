import Modbus.Lib.Writes
import Modbus.Core.Response
import Modbus.Server.BitMap

/-! # Register memory

A register is two bytes of the memory, the high one first (`registerAt`). Single
and block writes of allowed registers amount to writes of a map from addresses to
words, so a read after any run of them returns the last values. The byte offsets and
the byte counts are computed as `int`, which bounds the addresses and the reads that
this holds for. -/
namespace Modbus.Server
open Bytes Checked Writes

/-- The big-endian value of register `r`. -/
def registerAt (mem : Buffer) (r : Nat) : Word := word (mem.getD (2 * r) 0) (mem.getD (2 * r + 1) 0)

inductive RegisterWrite where
  | single (value : Word) (address : Nat)
  | block (values : List Word) (address : Nat)
deriving DecidableEq, Repr

namespace RegisterWrite

def address : RegisterWrite → Nat
  | single _ a => a
  | block _ a => a

def count : RegisterWrite → Nat
  | single _ _ => 1
  | block vs _ => vs.length

def run (mem : Buffer) : RegisterWrite → Except Fault Buffer
  | single v a => writeRegister v mem a
  | block vs a => writeRegisters vs mem a vs.length

/-- What the operation asks for, as writes of a map. -/
def writes : RegisterWrite → List (Nat × Word)
  | single v a => [(a, v)]
  | block vs a => (List.range vs.length).map fun i => (a + i, vs.getD i 0)

end RegisterWrite

/-- The bitmap of the range can be made and the access check accepts it. -/
def Accepted (mask : Buffer) (start n : Nat) : Prop :=
  ∃ bm, createRequestBitMap start n = .ok bm ∧ legalAddress mask bm start = .ok true

/-- Every allowed register lies inside the memory, and the offsets of its bytes are `int`s. -/
def RegistersFit (mask mem : Buffer) : Prop :=
  ∀ a, bitAt mask a = true → 2 * a + 1 < mem.length ∧ 2 * a + 1 ≤ intMax

theorem Accepted.pos {mask : Buffer} {start n : Nat} (h : Accepted mask start n) : 1 ≤ n := by
  obtain ⟨bm, hbm, hlegal⟩ := h
  cases n with
  | zero =>
    obtain rfl : [] = bm := by simpa [createRequestBitMap] using hbm
    simp [legalAddress] at hlegal
  | succ n => omega

/-- A range that the access check refuses is not accepted. -/
theorem not_accepted {mask bm : Buffer} {start n : Nat} (hbm : createRequestBitMap start n = .ok bm)
    (hrefused : legalAddress mask bm start = .ok false) : ¬ Accepted mask start n := by
  rintro ⟨bm', hbm', hlegal⟩
  obtain rfl : bm = bm' := Except.ok.inj (hbm.symm.trans hbm')
  rw [hrefused] at hlegal
  cases hlegal

theorem Accepted.allowed {mask : Buffer} {start n i : Nat} (h : Accepted mask start n)
    (hi : i < n) : bitAt mask (start + i) = true := by
  have hn := h.pos
  obtain ⟨bm, hbm, hlegal⟩ := h
  exact legalAddress_sound hn hbm hlegal (by omega) (by omega)

/-! ## Writing -/

/-- Storing a word's two bytes writes one register. -/
theorem registerAt_set {mem : Buffer} {a : Nat} (v : Word) (ha : 2 * a + 1 < mem.length) :
    registerAt ((mem.set (2 * a) (hiByte v)).set (2 * a + 1) (loByte v)) =
      Function.update (registerAt mem) a v := by
  funext r
  rw [Function.update_apply]
  by_cases hr : r = a
  · subst hr
    rw [if_pos rfl, registerAt, List.getD_eq_getElem?_getD, List.getElem?_set_ne (by omega),
      List.getElem?_set_self (by omega), List.getD_eq_getElem?_getD,
      List.getElem?_set_self (by rw [List.length_set]; exact ha)]
    exact word_hi_lo v
  · simp only [if_neg hr, registerAt, List.getD_eq_getElem?_getD]
    rw [List.getElem?_set_ne (by omega), List.getElem?_set_ne (by omega),
      List.getElem?_set_ne (by omega), List.getElem?_set_ne (by omega)]

theorem writeRegister_total (mem : Buffer) (v : Word) (a : Nat) (ha : 2 * a + 1 < mem.length)
    (hint : 2 * a + 1 ≤ intMax) :
    ∃ mem', writeRegister v mem a = .ok mem' ∧ mem'.length = mem.length ∧
      registerAt mem' = Function.update (registerAt mem) a v := by
  refine ⟨(mem.set (2 * a) (hiByte v)).set (2 * a + 1) (loByte v), ?_, ?_, registerAt_set v ha⟩
  · simp only [writeRegister, bind_ok, int_ok, set_ok]
    refine ⟨2 * a, ⟨by omega, by omega⟩, _, ⟨by omega, rfl⟩, 2 * a + 1, ⟨by omega, rfl⟩, ?_, rfl⟩
    rw [List.length_set]
    exact ha
  · rw [List.length_set, List.length_set]

/-- The first `n` values are written one after the other. -/
theorem writeRegisters_first (mem : Buffer) (vs : List Word) (a : Nat) {n : Nat}
    (hn : n ≤ vs.length)
    (hfit : ∀ i < n, 2 * (a + i) + 1 < mem.length ∧ 2 * (a + i) + 1 ≤ intMax) (hpos : 1 ≤ n) :
    ∃ mem', writeRegisters vs mem a n = .ok mem' ∧ mem'.length = mem.length ∧
      registerAt mem' =
        applyWrites (registerAt mem) ((List.range n).map fun i => (a + i, vs.getD i 0)) := by
  obtain ⟨_, hint⟩ := hfit 0 hpos
  obtain ⟨mem', hrun, hlen, hview⟩ : ∃ mem', loop 0 n (fun i dst => do
        let index ← int (2 * i + a * 2)
        let value ← get vs i
        let dst ← set dst index (hiByte value)
        let next ← int (index + 1)
        set dst next (loByte value)) mem = .ok mem' ∧ mem'.length = mem.length ∧
      registerAt mem' = applyWrites (registerAt mem)
        ((List.range n).map fun i => (a + i, vs.getD i 0)) := by
    -- the first `i` values are written after `i` rounds
    apply loop_total (P := fun i m => List.length m = mem.length ∧ registerAt m =
        applyWrites (registerAt mem) ((List.range i).map fun i => (a + i, vs.getD i 0)))
      (Nat.zero_le n) ⟨rfl, rfl⟩
    intro i m _ hi ⟨hlen, hview⟩
    obtain ⟨hin, hmax⟩ := hfit i hi
    obtain ⟨v, hv⟩ : ∃ v, vs[i]? = some v := exists_get (Nat.lt_of_lt_of_le hi hn)
    refine ⟨(m.set (2 * (a + i)) (hiByte v)).set (2 * (a + i) + 1) (loByte v), ?_, ?_, ?_⟩
    · simp only [bind_ok, int_ok, get_ok, set_ok]
      refine ⟨2 * (a + i), ⟨by omega, by omega⟩, v, hv, _, ⟨by omega, rfl⟩, 2 * (a + i) + 1,
        ⟨by omega, rfl⟩, ?_, rfl⟩
      rw [List.length_set]
      omega
    · rw [List.length_set, List.length_set, hlen]
    · rw [registerAt_set v (by omega), hview, List.range_succ, List.map_append,
        applyWrites_append, List.map_cons, List.map_nil, List.getD_eq_getElem?_getD, hv]
      rfl
  refine ⟨mem', ?_, hlen, hview⟩
  simp only [writeRegisters, bind_ok, int_ok]
  exact ⟨a * 2, ⟨by omega, rfl⟩, hrun⟩

theorem writeRegisters_total (mem : Buffer) (vs : List Word) (a : Nat)
    (hfit : ∀ i < vs.length, 2 * (a + i) + 1 < mem.length ∧ 2 * (a + i) + 1 ≤ intMax)
    (hpos : 1 ≤ vs.length) :
    ∃ mem', writeRegisters vs mem a vs.length = .ok mem' ∧ mem'.length = mem.length ∧
      registerAt mem' =
        applyWrites (registerAt mem) ((List.range vs.length).map fun i => (a + i, vs.getD i 0)) :=
  writeRegisters_first mem vs a (Nat.le_refl _) hfit hpos

theorem RegisterWrite.run_total {mask mem : Buffer} (hfit : RegistersFit mask mem)
    (o : RegisterWrite) (ho : Accepted mask o.address o.count) :
    ∃ mem', o.run mem = .ok mem' ∧ mem'.length = mem.length ∧
      registerAt mem' = applyWrites (registerAt mem) o.writes := by
  have hall : ∀ i < o.count, 2 * (o.address + i) + 1 < mem.length ∧
      2 * (o.address + i) + 1 ≤ intMax := fun i hi => hfit _ (ho.allowed hi)
  cases o with
  | single v a =>
    obtain ⟨hin, hint⟩ := hall 0 (Nat.lt_succ_self 0)
    exact writeRegister_total mem v a hin hint
  | block vs a => exact writeRegisters_total mem vs a hall ho.pos

/-! ## Reading -/

theorem copyDataRegisters_total {mem : Buffer} {start n : Nat} (hn : 1 ≤ n)
    (hfit : 2 * (start + (n - 1)) + 1 < mem.length)
    (hint : 2 * (start + (n - 1)) + 1 ≤ intMax) (hbytes : 2 * n ≤ intMax) :
    ∃ out, copyDataRegisters mem start n = .ok out ∧ out.length = 2 * n ∧
      ∀ k < 2 * n, out[k]? = some (mem.getD (k + 2 * start) 0) := by
  obtain ⟨out, hrun, hfilled⟩ : ∃ out, loop 0 (n * 2) (fun i dst => do
        let index ← int (i + start * 2)
        let x ← get mem index
        set dst i x) (List.replicate (n * 2) 0#8) = .ok out ∧
      Filled 0 (n * 2) (fun k => mem.getD (k + 2 * start) 0) (List.replicate (n * 2) 0#8) out := by
    apply loop_fill 0 (Nat.zero_le _) (by simp)
    intro i d _ hi hd
    have hlen := hd.length_eq
    rw [List.length_replicate] at hlen
    obtain ⟨x, hx⟩ : ∃ x, mem[i + 2 * start]? = some x :=
      exists_get (by omega)
    simp only [Nat.add_zero, List.getD_eq_getElem?_getD, hx, Option.getD_some, bind_ok, int_ok,
      get_ok, set_ok]
    exact ⟨i + 2 * start, ⟨by omega, by omega⟩, x, hx, by omega, rfl⟩
  refine ⟨out, ?_, ?_, ?_⟩
  · simp only [copyDataRegisters, bind_ok, int_ok]
    exact ⟨start * 2, ⟨by omega, rfl⟩, n * 2, ⟨by omega, rfl⟩, hrun⟩
  · rw [hfilled.length_eq, List.length_replicate, Nat.mul_comm]
  · intro k hk
    exact hfilled.inside k (Nat.zero_le k) (by omega)

/-- A read that did not fault had an `int` number of bytes. -/
theorem count_of_copyDataRegisters {mem out : Buffer} {start n : Nat}
    (h : copyDataRegisters mem start n = .ok out) : 2 * n ≤ intMax := by
  simp only [copyDataRegisters, bind_ok, int_ok] at h
  obtain ⟨_, _, _, ⟨hbytes, _⟩, _⟩ := h
  rwa [Nat.mul_comm]

/-- A read of `n` allowed registers, as the client sees it. -/
theorem getUINT16_copyDataRegisters {mem : Buffer} {start n i : Nat} (hi : i < n)
    (hfit : 2 * (start + (n - 1)) + 1 < mem.length)
    (hint : 2 * (start + (n - 1)) + 1 ≤ intMax) {out : Buffer}
    (hout : copyDataRegisters mem start n = .ok out) {r : ModbusResponse} (hv : r.isValid = true)
    (hr : r.data = some out) : r.getUINT16 i .normal = .ok (registerAt mem (start + i)) := by
  obtain ⟨d, hd, _, hbytes⟩ := copyDataRegisters_total (by omega) hfit hint
    (count_of_copyDataRegisters hout)
  obtain rfl : d = out := Except.ok.inj (hd.symm.trans hout)
  rw [ModbusResponse.getUINT16_normal hv hr (hbytes (2 * i) (by omega))
    (hbytes (2 * i + 1) (by omega)), registerAt,
    show 2 * i + 2 * start = 2 * (start + i) by omega,
    show 2 * i + 1 + 2 * start = 2 * (start + i) + 1 by omega]

/-- Register memory is a map from addresses to words: any run of accepted writes
ends without a fault and keeps the memory's size, and every accepted range with an `int`
number of bytes then reads as the last values written, or the initial ones. -/
theorem registers_last_written (mem mask : Buffer) (hfit : RegistersFit mask mem)
    (ops : List RegisterWrite) (hops : ∀ o ∈ ops, Accepted mask o.address o.count) :
    ∃ mem', ops.foldlM RegisterWrite.run mem = .ok mem' ∧ mem'.length = mem.length ∧
      ∀ start n, Accepted mask start n → 2 * n ≤ intMax →
        ∃ out, copyDataRegisters mem' start n = .ok out ∧
          ∀ i < n, ∀ r : ModbusResponse, r.isValid = true → r.data = some out →
            r.getUINT16 i .normal =
              .ok (lastWritten (registerAt mem) (ops.flatMap RegisterWrite.writes) (start + i)) := by
  obtain ⟨mem', hrun, hlen, hview⟩ := run_refines RegisterWrite.run registerAt
    RegisterWrite.writes (fun m => m.length = mem.length)
    (fun o => Accepted mask o.address o.count) (by
      intro m o hm ho
      obtain ⟨m', hrun, hlen, hview⟩ := o.run_total (by
        intro a ha
        rw [hm]
        exact hfit a ha) ho
      exact ⟨m', hrun, hlen.trans hm, hview⟩)
    ops mem rfl hops
  refine ⟨mem', hrun, hlen, ?_⟩
  intro start n hacc hbytes
  have hn := hacc.pos
  obtain ⟨hin, hint⟩ := hfit _ (hacc.allowed (i := n - 1) (by omega))
  rw [← hlen] at hin
  obtain ⟨out, hout, _, _⟩ := copyDataRegisters_total hn hin hint hbytes
  refine ⟨out, hout, ?_⟩
  intro i hi r hv hr
  rw [getUINT16_copyDataRegisters hi hin hint hout hv hr, hview, applyWrites_eq]

/-- Two registers at addresses 0 and 1, both allowed: a single and a block write. -/
theorem registers_last_written_two :
    ∃ mem', [RegisterWrite.single 0x0102#16 1, .block [0x0304#16, 0x0506#16] 0].foldlM
        RegisterWrite.run [0, 0, 0, 0] = .ok mem' ∧ mem'.length = 4 ∧
      ∀ start n, Accepted [0x03] start n → 2 * n ≤ intMax →
        ∃ out, copyDataRegisters mem' start n = .ok out ∧
          ∀ i < n, ∀ r : ModbusResponse, r.isValid = true → r.data = some out →
            r.getUINT16 i .normal =
              .ok (lastWritten (registerAt [0, 0, 0, 0])
                ([RegisterWrite.single 0x0102#16 1, .block [0x0304#16, 0x0506#16] 0].flatMap
                  RegisterWrite.writes) (start + i)) :=
  registers_last_written [0, 0, 0, 0] [0x03] (by
      intro a ha
      have hlt := lt_length_of_bitAt ha
      have hall : ∀ a < 8, bitAt [0x03] a = true → a < 2 := by decide
      have ha2 := hall a (by simp at hlt; omega) ha
      simp only [List.length_cons, List.length_nil, intMax]
      omega)
    [.single 0x0102#16 1, .block [0x0304#16, 0x0506#16] 0] (by
      intro o ho
      rcases List.mem_pair.mp ho with rfl | rfl
      · exact ⟨[0x02], by decide, by decide⟩
      · exact ⟨[0x03], by decide, by decide⟩)

/-- Reading more registers than have an `int` number of bytes overflows. -/
theorem copyDataRegisters_overflow (mem : Buffer) {n : Nat} (hn : intMax < n * 2) :
    copyDataRegisters mem 0 n = .error .intOverflow := by
  have hint : int (n * 2) = .error .intOverflow := if_neg (by omega)
  simp only [copyDataRegisters, Nat.zero_mul]
  rw [hint]
  rfl

/-- A memory of 2³⁰ registers, and the mask that allows them all. -/
def allRegisters : Buffer := List.replicate 0x80000000 0

def allAllowed : Buffer :=
  List.replicate (0x40000000 / 8) 0xFF#8 ++ [bitMasks.getD (0x40000000 % 8) 0]

/-- Every allowed register is in the memory, and reading all of them is accepted,
but their number of bytes is no `int`. -/
theorem all_registers_unreadable :
    (∀ a, bitAt allAllowed a = true → 2 * a + 1 < allRegisters.length) ∧
      createRequestBitMap 0 0x40000000 = .ok allAllowed ∧
      legalAddress allAllowed allAllowed 0 = .ok true ∧
      copyDataRegisters allRegisters 0 0x40000000 = .error .intOverflow := by
  have hbm : createRequestBitMap 0 0x40000000 = .ok allAllowed :=
    createRequestBitMap_aligned 0 0x40000000 rfl (by decide) (by decide)
  have hlen := length_createRequestBitMap (by decide) hbm
  refine ⟨?_, hbm, ?_, copyDataRegisters_overflow _ (by decide)⟩
  · intro a ha
    rw [bitAt_createRequestBitMap (by decide) hbm, if_neg (by decide)] at ha
    rw [allRegisters, List.length_replicate]
    omega
  · rw [legalAddress_iff]
    refine ⟨List.ne_nil_of_length_pos (by omega), by omega, ?_⟩
    intro j hj
    rwa [Nat.zero_div, Nat.mul_zero, Nat.zero_add]

end Modbus.Server
