import Modbus.Lib.Writes
import Modbus.Core.Response
import Modbus.Server.BitMap

/-! # Coil memory

Coil memory is read and written as a map from addresses to bits. A range read
moves the requested bits down to the start of its result (`copyDataBits_total`)
and a single write changes one bit (`writeCoil_total`), so a read after any run
of single writes returns the last status of every coil. -/
namespace Modbus.Server
open Bytes Checked Writes

/-! ## Reading a range -/

theorem copyMasked_total {src bm : Buffer} {startByte : Nat}
    (hfit : startByte + bm.length ≤ src.length) :
    ∃ d, copyMasked src bm startByte = .ok d ∧ d.length = bm.length ∧
      ∀ j, bitAt d j = (bitAt src (8 * startByte + j) && bitAt bm j) := by
  obtain ⟨d, hd, hfilled⟩ : ∃ d, copyMasked src bm startByte = .ok d ∧
      Filled 0 bm.length (fun i => src.getD (i + startByte) 0 &&& bm.getD i 0)
        (List.replicate bm.length 0#8) d := by
    apply loop_fill 0 (Nat.zero_le _) (by simp)
    intro i d _ hi hd
    obtain ⟨x, hx⟩ : ∃ x, src[i + startByte]? = some x :=
      exists_get (by omega)
    have hlen := hd.length_eq
    rw [List.length_replicate] at hlen
    simp [hx, hlen, hi]
  have hlen : d.length = bm.length := by rw [hfilled.length_eq, List.length_replicate]
  refine ⟨d, hd, hlen, ?_⟩
  intro j
  by_cases hj : j / 8 < bm.length
  · have hbyte := hfilled.inside (j / 8) (Nat.zero_le _) hj
    have hsrc : (8 * startByte + j) / 8 = j / 8 + startByte := by omega
    have hmod : (8 * startByte + j) % 8 = j % 8 := by omega
    simp only [bitAt, hsrc, hmod, List.getD_eq_getElem?_getD, hbyte, Option.getD_some,
      BitVec.getLsbD_and]
  · have hbm : bitAt bm j = false := bitAt_of_length_le (by omega)
    rw [bitAt_of_length_le (by omega), hbm, Bool.and_false]

/-- The copy's loop leaves every byte it still has to read as it was. -/
theorem shiftDown_loop (s : Nat) {d : Buffer} (hpos : 0 < d.length) :
    ∃ e, loop 0 (d.length - 1) (fun i (dst : Buffer) => do
        let x ← get dst i
        let y ← get dst (i + 1)
        set dst i ((x >>> s) ||| (y <<< (8 - s)))) d = .ok e ∧
      Filled 0 (d.length - 1) (fun i => (d.getD i 0 >>> s) ||| (d.getD (i + 1) 0 <<< (8 - s)))
        d e := by
  apply loop_fill 0 (Nat.zero_le _) (by omega)
  intro i e _ hi he
  obtain ⟨x, hx⟩ : ∃ x, d[i]? = some x := exists_get (by omega)
  obtain ⟨y, hy⟩ : ∃ y, d[i + 1]? = some y := exists_get (by omega)
  have hx' := (he.outside i (by omega)).trans hx
  have hy' := (he.outside (i + 1) (by omega)).trans hy
  have hlen : i < e.length := by rw [he.length_eq]; omega
  simp only [Nat.add_zero, List.getD_eq_getElem?_getD, hx, hy, Option.getD_some, bind_ok, get_ok,
    set_ok]
  exact ⟨x, hx', y, hy', hlen, rfl⟩

/-- The whole vector moves down by the offset. -/
theorem shiftDown_total {s : Nat} (hs : s < 8) {d : Buffer} (hd : d ≠ []) :
    ∃ d', shiftDown s d.length d = .ok d' ∧ d'.length = d.length ∧
      ∀ j, bitAt d' j = bitAt d (j + s) := by
  have hpos : 0 < d.length := List.length_pos_iff.mpr hd
  obtain ⟨e, he, hfilled⟩ := shiftDown_loop s hpos
  obtain ⟨last, hlast⟩ : ∃ x, d[d.length - 1]? = some x :=
    exists_get (by omega)
  have hlast' := (hfilled.outside (d.length - 1) (by omega)).trans hlast
  have hlen := hfilled.length_eq
  refine ⟨e.set (d.length - 1) (last >>> s), ?_, by rw [List.length_set, hlen], ?_⟩
  · simp only [shiftDown, bind_ok, modify_ok]
    exact ⟨e, he, last, hlast', rfl⟩
  · intro j
    have hp : j % 8 < 8 := Nat.mod_lt _ (by omega)
    rcases Nat.lt_trichotomy (j / 8) (d.length - 1) with hj | hj | hj
    · have hbyte := hfilled.inside (j / 8) (Nat.zero_le _) hj
      rw [bitAt_set_ne (by omega)]
      conv_lhs => rw [← Nat.div_add_mod j 8]
      rw [bitAt_of_getElem? hbyte hp, getLsbD_shr_or_shl _ _ hs hp]
      simp only [bitAt]
      split
      · next h =>
        rw [show (j + s) / 8 = j / 8 by omega, show (j + s) % 8 = s + j % 8 by omega]
      · next h =>
        rw [show (j + s) / 8 = j / 8 + 1 by omega, show (j + s) % 8 = s + j % 8 - 8 by omega]
    · rw [← Nat.div_add_mod j 8, hj, bitAt_set_eq (by omega) hp, BitVec.getLsbD_ushiftRight,
        show 8 * (d.length - 1) + j % 8 + s = 8 * (d.length - 1) + (s + j % 8) by omega]
      by_cases hsp : s + j % 8 < 8
      · rw [bitAt_of_getElem? hlast hsp]
      · rw [BitVec.getLsbD_of_ge _ _ (by omega), bitAt_of_length_le (by omega)]
    · rw [bitAt_of_length_le (by rw [List.length_set]; omega), bitAt_of_length_le (by omega)]

/-- Every bit of a range read that fits into the memory: the coil at its place, where
the bitmap marks it. The result has the least number of bytes. -/
theorem copyDataBits_bits {src bm : Buffer} {start n : Nat} (hn : 1 ≤ n)
    (hbm : createRequestBitMap start n = .ok bm) (hfit : start / 8 + bm.length ≤ src.length) :
    ∃ out, copyDataBits src bm start n = .ok out ∧ out.length = (n + 7) / 8 ∧
      ∀ j < 8 * ((n + 7) / 8),
        bitAt out j = (bitAt src (start + j) && bitAt bm (start % 8 + j)) := by
  have hlen := length_createRequestBitMap hn hbm
  have hs : start % 8 < 8 := Nat.mod_lt _ (by omega)
  obtain ⟨d, hd, hdlen, hdbits⟩ := copyMasked_total hfit
  obtain ⟨e, he, helen, hebits⟩ := shiftDown_total hs (d := d)
    (List.length_pos_iff.mp (by omega))
  rw [hdlen] at he
  have hbits : ∀ j, bitAt e j = (bitAt src (start + j) && bitAt bm (start % 8 + j)) := by
    intro j
    rw [hebits, hdbits, Nat.add_comm j, ← Nat.add_assoc, Nat.div_add_mod]
  simp only [copyDataBits, hd, he, ok_bind]
  -- the bitmap is at most one byte longer than the data
  split
  · next hne =>
    have hdrop : e.dropLast.length = (n + 7) / 8 := by
      rw [List.length_dropLast]
      omega
    refine ⟨e.dropLast, rfl, hdrop, ?_⟩
    intro j hj
    rw [← hbits j]
    simp only [bitAt, List.getD_eq_getElem?_getD, List.getElem?_dropLast]
    rw [if_pos (by omega)]
  · next heq =>
    exact ⟨e, rfl, by omega, fun j _ => hbits j⟩

/-- So the requested coils come first, as they are. -/
theorem copyDataBits_total {src bm : Buffer} {start n : Nat} (hn : 1 ≤ n)
    (hbm : createRequestBitMap start n = .ok bm) (hfit : start / 8 + bm.length ≤ src.length) :
    ∃ out, copyDataBits src bm start n = .ok out ∧ out.length = (n + 7) / 8 ∧
      ∀ j < n, bitAt out j = bitAt src (start + j) := by
  obtain ⟨out, hout, hlen, hbits⟩ := copyDataBits_bits hn hbm hfit
  refine ⟨out, hout, hlen, ?_⟩
  intro j hj
  rw [hbits j (by omega), createRequestBitMap_covers hn hbm hj, Bool.and_true]

/-! ## What a range read shows -/

/-- Two memories read the same, with nothing but zeros behind the requested coils. -/
def ReadsAlike (mem₁ mem₂ bm : Buffer) (start n : Nat) : Prop :=
  ∃ out, copyDataBits mem₁ bm start n = .ok out ∧ copyDataBits mem₂ bm start n = .ok out ∧
    ∀ j, n ≤ j → bitAt out j = false

/-- The padding of a range read is what the bitmap marks behind the request. -/
theorem copyDataBits_padding {src bm out : Buffer} {start n : Nat} (hn : 1 ≤ n)
    (hbm : createRequestBitMap start n = .ok bm) (hlen : out.length = (n + 7) / 8)
    (hbits : ∀ j < 8 * ((n + 7) / 8),
      bitAt out j = (bitAt src (start + j) && bitAt bm (start % 8 + j))) :
    (∀ j, n ≤ j → bitAt out j = false) ↔
      (n % 8 + start % 8 = 8 →
        ∀ a, start + n ≤ a → a < start + n + start % 8 → bitAt src a = false) := by
  have hmarks := bitAt_createRequestBitMap hn hbm
  constructor
  · intro hzero hclosed a hlo hhi
    have hmarked : bitAt bm (start % 8 + (a - start)) = true := by
      rw [hmarks, if_pos hclosed]
      omega
    have hbit := hbits (a - start) (by omega)
    rw [hzero _ (by omega), hmarked, Bool.and_true, Nat.add_sub_cancel' (by omega)] at hbit
    exact hbit.symm
  · intro hoff j hj
    by_cases hin : j < 8 * ((n + 7) / 8)
    · rw [hbits j hin]
      by_cases hclosed : n % 8 + start % 8 = 8
      · rw [hoff hclosed _ (by omega) (by omega), Bool.false_and]
      · have hclear : bitAt bm (start % 8 + j) = false := by
          rw [Bool.eq_false_iff, ne_eq, hmarks, if_neg hclosed]
          omega
        rw [hclear, Bool.and_false]
    · exact bitAt_of_length_le (by omega)

/-- Memories that agree on the requested coils read the same, with zero padding,
exactly when the request does not close a byte in the middle of its count, or the coils
that would be shown behind it are off in both. -/
theorem readsAlike_iff (mem₁ mem₂ bm : Buffer) (start n : Nat) (hn : 1 ≤ n)
    (hbm : createRequestBitMap start n = .ok bm) (hsize : mem₁.length = mem₂.length)
    (hfit : start / 8 + bm.length ≤ mem₁.length)
    (hagree : ∀ a, start ≤ a → a < start + n → bitAt mem₁ a = bitAt mem₂ a) :
    ReadsAlike mem₁ mem₂ bm start n ↔
      (n % 8 + start % 8 = 8 → ∀ a, start + n ≤ a → a < start + n + start % 8 →
        bitAt mem₁ a = false ∧ bitAt mem₂ a = false) := by
  obtain ⟨out₁, hout₁, hlen₁, hbits₁⟩ := copyDataBits_bits hn hbm hfit
  obtain ⟨out₂, hout₂, hlen₂, hbits₂⟩ := copyDataBits_bits hn hbm (hsize ▸ hfit)
  have hpad₁ := copyDataBits_padding hn hbm hlen₁ hbits₁
  have hpad₂ := copyDataBits_padding hn hbm hlen₂ hbits₂
  constructor
  · rintro ⟨out, h₁, h₂, hzero⟩ hclosed a hlo hhi
    obtain rfl : out₁ = out := Except.ok.inj (hout₁.symm.trans h₁)
    obtain rfl : out₂ = out₁ := Except.ok.inj (hout₂.symm.trans h₂)
    exact ⟨hpad₁.mp hzero hclosed a hlo hhi, hpad₂.mp hzero hclosed a hlo hhi⟩
  · intro hoff
    have hzero₁ := hpad₁.mpr fun hclosed a hlo hhi => (hoff hclosed a hlo hhi).1
    have hzero₂ := hpad₂.mpr fun hclosed a hlo hhi => (hoff hclosed a hlo hhi).2
    have hsame : out₁ = out₂ := by
      apply eq_of_bitAt (hlen₁.trans hlen₂.symm)
      intro j hj
      by_cases hjn : j < n
      · rw [hlen₁] at hj
        rw [hbits₁ j hj, hbits₂ j hj, hagree _ (by omega) (by omega)]
      · rw [hzero₁ j (by omega), hzero₂ j (by omega)]
    exact ⟨out₁, hout₁, hsame ▸ hout₂, hzero₁⟩

/-- Three coils from address 2, in memories that differ around them. -/
theorem readsAlike_three :
    ReadsAlike [0x14, 0x00] [0xF7, 0xFF] [0x1C] 2 3 := by
  have hagree : ∀ a < 5, 2 ≤ a → bitAt [0x14, 0x00] a = bitAt [0xF7, 0xFF] a := by decide
  exact (readsAlike_iff [0x14, 0x00] [0xF7, 0xFF] [0x1C] 2 3 (by decide) (by decide) rfl
    (by decide) fun a hlo hhi => hagree a hhi hlo).mpr fun hclosed => absurd hclosed (by decide)

/-- Four coils from address 4 show the four coils behind them. -/
theorem next_coils_shown :
    createRequestBitMap 4 4 = .ok [0xF0, 0xFF] ∧
      (∀ a, 4 ≤ a → a < 4 + 4 → bitAt [0x00, 0x00] a = bitAt [0x00, 0x0F] a) ∧
      copyDataBits [0x00, 0x00] [0xF0, 0xFF] 4 4 = .ok [0x00] ∧
      copyDataBits [0x00, 0x0F] [0xF0, 0xFF] 4 4 = .ok [0xF0] ∧
      ¬ ReadsAlike [0x00, 0x00] [0x00, 0x0F] [0xF0, 0xFF] 4 4 := by
  have h₁ : copyDataBits [0x00, 0x00] [0xF0, 0xFF] 4 4 = .ok [0x00] := by decide
  have h₂ : copyDataBits [0x00, 0x0F] [0xF0, 0xFF] 4 4 = .ok [0xF0] := by decide
  have hagree : ∀ a < 4 + 4, 4 ≤ a → bitAt [0x00, 0x00] a = bitAt [0x00, 0x0F] a := by decide
  refine ⟨by decide, fun a hlo hhi => hagree a hhi hlo, h₁, h₂, ?_⟩
  rintro ⟨out, hout₁, hout₂, _⟩
  rw [h₁] at hout₁
  rw [h₂, ← hout₁] at hout₂
  revert hout₂
  decide

/-! ## Single writes -/

/-- A single write inside the memory changes one bit. -/
theorem writeCoil_total (mem : Buffer) (status : Bool) (a : Nat) (ha : a / 8 < mem.length) :
    ∃ mem', writeCoil mem status a = .ok mem' ∧ mem'.length = mem.length ∧
      bitAt mem' = Function.update (bitAt mem) a status := by
  obtain ⟨x, hx⟩ : ∃ x, mem[a / 8]? = some x := exists_get ha
  obtain ⟨y, hy, hbits⟩ : ∃ y : Byte, writeCoil mem status a = .ok (mem.set (a / 8) y) ∧
      ∀ p < 8, y.getLsbD p = if p = a % 8 then status else x.getLsbD p := by
    cases status with
    | true =>
      refine ⟨x ||| (1#8 <<< (a % 8)), ?_, ?_⟩
      · simp only [writeCoil, if_true, modify_ok]
        exact ⟨x, hx, rfl⟩
      · intro p hp
        rw [BitVec.getLsbD_or, getLsbD_one_shl _ hp]
        by_cases h : p = a % 8 <;> simp [h]
    | false =>
      refine ⟨x &&& ~~~(1#8 <<< (a % 8)), ?_, ?_⟩
      · simp only [writeCoil, Bool.false_eq_true, if_false, modify_ok]
        exact ⟨x, hx, rfl⟩
      · intro p hp
        rw [BitVec.getLsbD_and, BitVec.getLsbD_not, getLsbD_one_shl _ hp]
        by_cases h : p = a % 8 <;> simp [h, hp]
  refine ⟨_, hy, List.length_set, ?_⟩
  funext k
  rw [Function.update_apply]
  have hp : k % 8 < 8 := Nat.mod_lt _ (by omega)
  by_cases hbyte : k / 8 = a / 8
  · have hk : k = 8 * (a / 8) + k % 8 := by omega
    have hiff : k = a ↔ k % 8 = a % 8 := by omega
    rw [hk, bitAt_set_eq ha hp, hbits _ hp, bitAt_of_getElem? hx hp, ← hk]
    simp only [hiff]
  · have hne : k ≠ a := fun h => hbyte (by rw [h])
    rw [bitAt_set_ne hbyte, if_neg hne]

/-- A run of single writes `(address, status)`. -/
def writeEachCoil (mem : Buffer) (ws : List (Nat × Bool)) : Except Fault Buffer :=
  ws.foldlM (fun mem w => writeCoil mem w.2 w.1) mem

theorem writeEachCoil_total (mem : Buffer) (ws : List (Nat × Bool))
    (hws : ∀ w ∈ ws, w.1 / 8 < mem.length) :
    ∃ mem', writeEachCoil mem ws = .ok mem' ∧ mem'.length = mem.length ∧
      bitAt mem' = lastWritten (bitAt mem) ws := by
  have hstep : ∀ m w, m.length = mem.length → w.1 / 8 < mem.length →
      ∃ m', writeCoil m w.2 w.1 = .ok m' ∧ m'.length = mem.length ∧
        bitAt m' = applyWrites (bitAt m) [w] := by
    intro m w hm hw
    obtain ⟨m', hm', hlen, hbits⟩ := writeCoil_total m w.2 w.1 (hm ▸ hw)
    exact ⟨m', hm', hlen.trans hm, hbits⟩
  obtain ⟨mem', hrun, hlen, hview⟩ := run_refines (fun mem w => writeCoil mem w.2 w.1) bitAt
    (fun w => [w]) (fun m => m.length = mem.length) (fun w => w.1 / 8 < mem.length) hstep
    ws mem rfl hws
  refine ⟨mem', hrun, hlen, ?_⟩
  rw [hview, List.flatMap_singleton', applyWrites_eq]

/-- Coil memory is a map from addresses to bits: after any single writes inside
it, a range read returns for every coil the last status written, or its initial
one, and so does `getBool` on the bytes read. -/
theorem copyDataBits_last_written (mem mask bm : Buffer) (ws : List (Nat × Bool)) (start n : Nat)
    (hmask : mask.length = mem.length) (hws : ∀ w ∈ ws, w.1 / 8 < mem.length) (hn : 1 ≤ n)
    (hbm : createRequestBitMap start n = .ok bm)
    (hlegal : legalAddress mask bm start = .ok true) :
    ∃ mem' out, writeEachCoil mem ws = .ok mem' ∧ copyDataBits mem' bm start n = .ok out ∧
      out.length = (n + 7) / 8 ∧
      ∀ j < n, bitAt out j = lastWritten (bitAt mem) ws (start + j) ∧
        ∀ r : ModbusResponse, r.isValid = true → r.data = some out →
          r.getBool j = .ok (lastWritten (bitAt mem) ws (start + j)) := by
  obtain ⟨mem', hrun, hlen, hview⟩ := writeEachCoil_total mem ws hws
  obtain ⟨_, hfit, _⟩ := legalAddress_iff.mp hlegal
  rw [hmask, ← hlen] at hfit
  obtain ⟨out, hout, houtlen, hbits⟩ := copyDataBits_total hn hbm hfit
  refine ⟨mem', out, hrun, hout, houtlen, ?_⟩
  intro j hj
  have hbit : bitAt out j = lastWritten (bitAt mem) ws (start + j) := by
    rw [hbits j hj, hview]
  refine ⟨hbit, ?_⟩
  intro r hv hr
  rw [ModbusResponse.getBool_of_bitAt hv hr (by omega), hbit]

/-- Ten coils from address 5, two of which were written before. -/
theorem copyDataBits_last_written_ten :
    ∃ mem' out, writeEachCoil [0x9A, 0xA9, 0x01] [(7, false), (9, true)] = .ok mem' ∧
      copyDataBits mem' [0xE0, 0x7F] 5 10 = .ok out ∧ out.length = (10 + 7) / 8 ∧
      ∀ j < 10,
        bitAt out j = lastWritten (bitAt [0x9A, 0xA9, 0x01]) [(7, false), (9, true)] (5 + j) ∧
        ∀ r : ModbusResponse, r.isValid = true → r.data = some out →
          r.getBool j =
            .ok (lastWritten (bitAt [0x9A, 0xA9, 0x01]) [(7, false), (9, true)] (5 + j)) :=
  copyDataBits_last_written [0x9A, 0xA9, 0x01] [0xFF, 0xFF, 0xFF] _ [(7, false), (9, true)] 5 10
    rfl (by decide) (by decide) (by decide) (by decide)

end Modbus.Server
