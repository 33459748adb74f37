import Modbus.Server.Coils

/-! # Block writes of coils

`writeCoils` moves the values up to where the requested coils lie and stores them
under the request bitmap. Storing is exact, bit by bit (`storeMasked_total`). The
move takes the carry into a byte from the byte before it, which from the third
byte on has been moved already (`shiftUp_total`), so the low bits there are not
the values that were sent but values of the byte before (`storesRequested_iff`). -/
namespace Modbus.Server
open Bytes Checked Writes

/-! ## Moving the values -/

/-- Byte `i` of the values after the rounds up to `i`. -/
def carried (s : Nat) (values : Buffer) : Nat → Byte
  | 0 => values.getD 0 0
  | i + 1 => (values.getD (i + 1) 0 <<< s) ||| (carried s values i >>> (8 - s))

theorem shiftUp_loop {s m : Nat} {values : Buffer} (hm : 1 ≤ m) (hlen : m ≤ values.length) :
    ∃ d, loop 1 m (fun i (statuses : Buffer) => do
        let x ← get statuses i
        let y ← get statuses (i - 1)
        set statuses i ((x <<< s) ||| (y >>> (8 - s)))) values = .ok d ∧
      Filled 1 m (carried s values) values d := by
  apply loop_fill 0 hm hlen
  intro i d hlo hhi hd
  obtain ⟨k, rfl⟩ : ∃ k, i = k + 1 := ⟨i - 1, by omega⟩
  obtain ⟨x, hx⟩ : ∃ x, values[k + 1]? = some x := exists_get (by omega)
  have hx' : d[k + 1]? = some x := (hd.outside (k + 1) (by omega)).trans hx
  have hy : d[k]? = some (carried s values k) := by
    cases k with
    | zero =>
      obtain ⟨y, hy⟩ : ∃ y, values[0]? = some y := exists_get (by omega)
      rw [hd.outside 0 (by omega), hy, carried, List.getD_eq_getElem?_getD, hy, Option.getD_some]
    | succ k => exact hd.inside (k + 1) (by omega) (by omega)
  have hlen : k + 1 < d.length := by rw [hd.length_eq]; omega
  simp only [Nat.add_zero, Nat.add_sub_cancel, carried, List.getD_eq_getElem?_getD, hx,
    Option.getD_some, bind_ok, get_ok, set_ok]
  exact ⟨x, hx', _, hy, hlen, rfl⟩

/-- Where a moved bit comes from: its value, or, for a carry into the third byte or
a later one, the bit that is `s` places before it after the move. -/
theorem shiftUp_total {s m : Nat} {values : Buffer} (hs : s < 8) (hm : 1 ≤ m)
    (hlen : m ≤ values.length) :
    ∃ d, shiftUp s m values = .ok d ∧ d.length = values.length ∧
      ∀ x, s ≤ x → x < 8 * m →
        bitAt d x = if x % 8 < s ∧ 16 ≤ x then bitAt d (x - s) else bitAt values (x - s) := by
  obtain ⟨e, he, hfilled⟩ := shiftUp_loop (s := s) hm hlen
  obtain ⟨first, hfirst⟩ : ∃ y, values[0]? = some y := exists_get (by omega)
  have hlene := hfilled.length_eq
  refine ⟨e.set 0 (first <<< s), ?_, by rw [List.length_set, hlene], ?_⟩
  · simp only [shiftUp, bind_ok, modify_ok]
    exact ⟨e, he, first, (hfilled.outside 0 (by omega)).trans hfirst, rfl⟩
  · intro x hsx hxm
    have hp : x % 8 < 8 := Nat.mod_lt _ (by omega)
    have hx : x = 8 * (x / 8) + x % 8 := (Nat.div_add_mod x 8).symm
    -- the bytes above the first hold what the loop left there
    have hmoved : ∀ k p, k + 1 < m → p < 8 →
        bitAt (e.set 0 (first <<< s)) (8 * (k + 1) + p) = (carried s values (k + 1)).getLsbD p := by
      intro k p hk hp8
      rw [bitAt_set_ne (by omega)]
      exact bitAt_of_getElem? (hfilled.inside (k + 1) (by omega) hk) hp8
    cases hbyte : x / 8 with
    | zero =>
      have hx8 : x < 8 := by omega
      rw [if_neg (by omega), show x = 8 * 0 + x by omega, bitAt_set_eq (by omega) hx8,
        BitVec.getLsbD_shiftLeft, show 8 * 0 + x - s = 8 * 0 + (x - s) by omega,
        bitAt_of_getElem? hfirst (by omega)]
      simp [hx8, show ¬ x < s by omega]
    | succ k =>
      have hbit : bitAt (e.set 0 (first <<< s)) x =
          if x % 8 < s then (carried s values k).getLsbD (8 - s + x % 8)
          else (values.getD (k + 1) 0).getLsbD (x % 8 - s) := by
        rw [hx, hbyte, hmoved k _ (by omega) hp, carried, getLsbD_shl_or_shr _ _ hs hp, ← hbyte,
          ← hx]
      rw [hbit]
      by_cases hlow : x % 8 < s
      · cases k with
        | zero =>
          rw [if_pos hlow, if_neg (by omega), carried]
          simp only [bitAt]
          rw [show (x - s) / 8 = 0 by omega, show (x - s) % 8 = 8 - s + x % 8 by omega]
        | succ k =>
          rw [if_pos hlow, if_pos (by omega),
            show x - s = 8 * (k + 1) + (8 - s + x % 8) by omega, hmoved k _ (by omega) (by omega)]
      · rw [if_neg hlow, if_neg (by omega)]
        simp only [bitAt]
        rw [show (x - s) / 8 = k + 1 by omega, show (x - s) % 8 = x % 8 - s by omega]

/-- A move leaves zeros below the values. -/
theorem shiftUp_low {s m : Nat} {values d : Buffer} (h : shiftUp s m values = .ok d) (hs : s < 8)
    {x : Nat} (hx : x < s) : bitAt d x = false := by
  simp only [shiftUp, bind_ok, modify_ok] at h
  obtain ⟨e, _, first, hfirst, rfl⟩ := h
  have hpos : 0 < e.length := (List.getElem?_eq_some_iff.mp hfirst).1
  have hbit := bitAt_set_eq (x := first <<< s) hpos (show x < 8 by omega)
  rw [Nat.mul_zero, Nat.zero_add] at hbit
  rw [hbit, BitVec.getLsbD_shiftLeft]
  simp [hx]

/-- A move that did not fault stayed inside the values. -/
theorem le_length_of_shiftUp {s m : Nat} {values d : Buffer} (h : shiftUp s m values = .ok d)
    (hm : 1 ≤ m) : m ≤ values.length := by
  simp only [shiftUp, bind_ok, modify_ok] at h
  obtain ⟨e, he, first, hfirst, _⟩ := h
  have hinv : e.length = values.length ∧ (m ≤ 1 ∨ m ≤ values.length) := by
    apply loop_invariant
      (P := fun i e => List.length e = values.length ∧ (i ≤ 1 ∨ i ≤ values.length)) hm
      ⟨rfl, .inl (Nat.le_refl 1)⟩ _ he
    intro i e e' hlo hhi hinv hbody
    simp only [bind_ok, get_ok, set_ok] at hbody
    obtain ⟨x, hx, y, hy, hlt, rfl⟩ := hbody
    rw [List.length_set]
    exact ⟨hinv.1, .inr (by omega)⟩
  have hpos : 0 < e.length := (List.getElem?_eq_some_iff.mp hfirst).1
  omega

/-! ## Storing -/

/-- The stored byte takes the requested bits from the status and keeps the others. -/
theorem getLsbD_masked (x status requested : Byte) {p : Nat} (hp : p < 8) :
    ((x &&& (status ||| ~~~requested)) ||| (status &&& requested)).getLsbD p =
      if requested.getLsbD p then status.getLsbD p else x.getLsbD p := by
  simp only [BitVec.getLsbD_or, BitVec.getLsbD_and, BitVec.getLsbD_not, hp, decide_true,
    Bool.true_and]
  cases requested.getLsbD p <;> cases status.getLsbD p <;> simp

theorem storeMasked_total {mem bm statuses : Buffer} (startByte : Nat)
    (hfit : startByte + bm.length ≤ mem.length) (hlen : bm.length ≤ statuses.length) :
    ∃ mem', storeMasked mem bm statuses startByte = .ok mem' ∧ mem'.length = mem.length ∧
      (∀ j, bitAt mem' (8 * startByte + j) =
        if bitAt bm j then bitAt statuses j else bitAt mem (8 * startByte + j)) ∧
      ∀ a < 8 * startByte, bitAt mem' a = bitAt mem a := by
  obtain ⟨mem', hrun, hfilled⟩ : ∃ mem', storeMasked mem bm statuses startByte = .ok mem' ∧
      Filled (0 + startByte) (bm.length + startByte) (fun k =>
        (mem.getD k 0 &&& (statuses.getD (k - startByte) 0 ||| ~~~bm.getD (k - startByte) 0)) |||
          (statuses.getD (k - startByte) 0 &&& bm.getD (k - startByte) 0)) mem mem' := by
    apply loop_fill startByte (Nat.zero_le _) (by omega)
    intro i d _ hi hd
    obtain ⟨x, hx⟩ : ∃ x, mem[i + startByte]? = some x :=
      exists_get (by omega)
    obtain ⟨y, hy⟩ : ∃ y, statuses[i]? = some y := exists_get (by omega)
    obtain ⟨z, hz⟩ : ∃ z, bm[i]? = some z := exists_get hi
    have hx' := (hd.outside (i + startByte) (by omega)).trans hx
    have hlt : i + startByte < d.length := by rw [hd.length_eq]; omega
    simp only [Nat.add_sub_cancel, List.getD_eq_getElem?_getD, hx, hy, hz, Option.getD_some,
      bind_ok, get_ok, modify_ok]
    refine ⟨y, rfl, z, rfl, _, ⟨x, hx', rfl⟩, _, List.getElem?_set_self hlt, ?_⟩
    rw [List.set_set]
  refine ⟨mem', hrun, hfilled.length_eq, ?_, fun a ha => ?_⟩
  swap
  · simp only [bitAt, List.getD_eq_getElem?_getD, hfilled.outside (a / 8) (by omega)]
  intro j
  have hp : j % 8 < 8 := Nat.mod_lt _ (by omega)
  have hj : 8 * startByte + j = 8 * (j / 8 + startByte) + j % 8 := by omega
  have hdiv : (8 * startByte + j) / 8 = j / 8 + startByte := by omega
  have hmod : (8 * startByte + j) % 8 = j % 8 := by omega
  by_cases hin : j / 8 < bm.length
  · rw [hj, bitAt_of_getElem? (hfilled.inside (j / 8 + startByte) (by omega) (by omega)) hp,
      getLsbD_masked _ _ _ hp, ← hj, Nat.add_sub_cancel]
    simp only [bitAt, hdiv, hmod]
  · have hbm : bitAt bm j = false := bitAt_of_length_le (by omega)
    have hkeep := hfilled.outside (j / 8 + startByte) (by omega)
    rw [hbm, if_neg Bool.false_ne_true]
    simp only [bitAt, hdiv, hmod, List.getD_eq_getElem?_getD, hkeep]

/-- Storing that did not fault stayed inside the memory. -/
theorem le_length_of_storeMasked {mem bm statuses mem' : Buffer} {startByte : Nat}
    (h : storeMasked mem bm statuses startByte = .ok mem') (hbm : bm ≠ []) :
    startByte + bm.length ≤ mem.length := by
  have hinv : mem'.length = mem.length ∧ (bm.length = 0 ∨ startByte + bm.length ≤ mem.length) := by
    apply loop_invariant (P := fun i d =>
      List.length d = mem.length ∧ (i = 0 ∨ startByte + i ≤ mem.length)) (Nat.zero_le _)
      ⟨rfl, .inl rfl⟩ _ h
    intro i d d' _ _ hinv hbody
    simp only [bind_ok, get_ok, modify_ok] at hbody
    obtain ⟨_, _, _, _, _, ⟨x, hx, rfl⟩, _, _, rfl⟩ := hbody
    have hlt := (List.getElem?_eq_some_iff.mp hx).1
    rw [List.length_set, List.length_set]
    exact ⟨hinv.1, .inr (by omega)⟩
  exact hinv.2.resolve_left fun hnil => hbm (List.length_eq_zero_iff.mp hnil)

/-! ## When a block write stays inside its vectors -/

/-- A block write that fits into the memory needs a value byte for every byte of the
bitmap. -/
theorem writeCoils_ok_iff {mem bm values : Buffer} {start : Nat} (hbm : bm ≠ [])
    (hfit : start / 8 + bm.length ≤ mem.length) :
    (∃ mem', writeCoils mem bm values start = .ok mem') ↔ bm.length ≤ values.length := by
  have hs : start % 8 < 8 := Nat.mod_lt _ (by decide)
  have hpos : 1 ≤ bm.length := List.length_pos_iff.mpr hbm
  constructor
  · rintro ⟨mem', hrun⟩
    rw [writeCoils, bind_ok] at hrun
    obtain ⟨d, hd, _⟩ := hrun
    exact le_length_of_shiftUp hd hpos
  · intro hle
    obtain ⟨d, hd, hdlen, _⟩ := shiftUp_total hs hpos hle
    obtain ⟨mem', hstore, _⟩ := storeMasked_total (start / 8) hfit (hdlen ▸ hle)
    refine ⟨mem', ?_⟩
    rw [writeCoils, hd, ok_bind, hstore]

/-- With the fewest value bytes that hold the coils, a granted block write stays inside
its vectors exactly when the coils end in the middle of a byte, in the values and in
the memory. -/
theorem writeCoils_inBounds_iff (mem mask bm values : Buffer) (start n : Nat)
    (hmask : mask.length = mem.length) (hn : 1 ≤ n)
    (hbm : createRequestBitMap start n = .ok bm)
    (hlegal : legalAddress mask bm start = .ok true) (hvalues : values.length = (n + 7) / 8) :
    (∃ mem', writeCoils mem bm values start = .ok mem') ↔
      n % 8 ≠ 0 ∧ n % 8 + start % 8 ≠ 8 := by
  obtain ⟨hne, hfit, _⟩ := legalAddress_iff.mp hlegal
  rw [hmask] at hfit
  have hhigh := createRequestBitMap_high hn hbm
  rw [writeCoils_ok_iff hne hfit, length_createRequestBitMap hn hbm, hvalues]
  omega

/-- Three coils from address 2. -/
theorem writeCoils_inBounds_three :
    createRequestBitMap 2 3 = .ok [0x1C] ∧ legalAddress [0x1C] [0x1C] 2 = .ok true ∧
      ∃ mem', writeCoils [0x00] [0x1C] [0x05] 2 = .ok mem' :=
  ⟨by decide, by decide, (writeCoils_inBounds_iff [0x00] [0x1C] [0x1C] [0x05] 2 3 rfl (by decide)
    (by decide) (by decide) rfl).mpr (by decide)⟩

/-- Eight coils from address 0, with the one byte that holds them. -/
theorem eight_coils_overrun :
    createRequestBitMap 0 8 = .ok [0xFF, 0x00] ∧
      legalAddress [0xFF, 0xFF] [0xFF, 0x00] 0 = .ok true ∧
      writeCoils [0x00, 0x00] [0xFF, 0x00] [0xFF] 0 = .error (.outOfRange 1 1) ∧
      ¬ ∃ mem', writeCoils [0x00, 0x00] [0xFF, 0x00] [0xFF] 0 = .ok mem' := by
  have hfault : writeCoils [0x00, 0x00] [0xFF, 0x00] [0xFF] 0 = .error (.outOfRange 1 1) := by
    decide
  refine ⟨by decide, by decide, hfault, ?_⟩
  rintro ⟨mem', hrun⟩
  rw [hfault] at hrun
  cases hrun

/-! ## What a block write stores -/

/-- Every requested coil holds its value, as after one single write per coil. -/
def StoresRequested (mem mem' values : Buffer) (start n : Nat) : Prop :=
  (∀ j < n, bitAt mem' (start + j) = bitAt values j) ∧
    ∃ each, writeEachCoil mem ((List.range n).map fun j => (start + j, bitAt values j)) = .ok each ∧
      ∀ j < n, bitAt mem' (start + j) = bitAt each (start + j)

/-- One single write per coil stores the values. -/
theorem writeEachCoil_range (mem values : Buffer) (start n : Nat)
    (hfit : ∀ j < n, (start + j) / 8 < mem.length) :
    ∃ each, writeEachCoil mem ((List.range n).map fun j => (start + j, bitAt values j)) = .ok each ∧
      ∀ j < n, bitAt each (start + j) = bitAt values j := by
  obtain ⟨each, hrun, _, hview⟩ := writeEachCoil_total mem
    ((List.range n).map fun j => (start + j, bitAt values j)) (by
      intro w hw
      obtain ⟨j, hj, rfl⟩ := List.mem_map.mp hw
      exact hfit j (List.mem_range.mp hj))
  refine ⟨each, hrun, ?_⟩
  intro j hj
  rw [hview]
  exact lastWritten_map (by intro i k h; omega) (List.mem_range.mpr hj)

/-- What a block write that did not fault does: it moves the values, stores them where
the bitmap marks a coil and keeps the rest. -/
theorem writeCoils_spec {mem bm values mem' : Buffer} {start : Nat} (hbm : bm ≠ [])
    (hrun : writeCoils mem bm values start = .ok mem') :
    ∃ d : Buffer, mem'.length = mem.length ∧ (∀ x < start % 8, bitAt d x = false) ∧
      (∀ x, start % 8 ≤ x → x < 8 * bm.length →
        bitAt d x = if x % 8 < start % 8 ∧ 16 ≤ x then bitAt d (x - start % 8)
          else bitAt values (x - start % 8)) ∧
      (∀ j, bitAt mem' (8 * (start / 8) + j) =
        if bitAt bm j then bitAt d j else bitAt mem (8 * (start / 8) + j)) ∧
      ∀ a < 8 * (start / 8), bitAt mem' a = bitAt mem a := by
  have hs : start % 8 < 8 := Nat.mod_lt _ (by decide)
  have hpos : 1 ≤ bm.length := List.length_pos_iff.mpr hbm
  simp only [writeCoils, bind_ok] at hrun
  obtain ⟨statuses, hup, hstore⟩ := hrun
  have hle := le_length_of_shiftUp hup hpos
  obtain ⟨d, hd, hdlen, hbits⟩ := shiftUp_total hs hpos hle
  obtain rfl : d = statuses := Except.ok.inj (hd.symm.trans hup)
  obtain ⟨m, hm, hlen, hstored, hbelow⟩ := storeMasked_total (start / 8)
    (le_length_of_storeMasked hstore hbm) (hdlen ▸ hle)
  obtain rfl : m = mem' := Except.ok.inj (hm.symm.trans hstore)
  exact ⟨d, hlen, fun x hx => shiftUp_low hup hs hx, hbits, hstored, hbelow⟩

/-- The bits a block write leaves in the requested coils. -/
theorem writeCoils_bits {mem bm values mem' : Buffer} {start n : Nat} (hn : 1 ≤ n)
    (hbm : createRequestBitMap start n = .ok bm)
    (hrun : writeCoils mem bm values start = .ok mem') (j : Nat) (hj : j < n) :
    bitAt mem' (start + j) =
      if (start % 8 + j) % 8 < start % 8 ∧ 16 ≤ start % 8 + j then
        bitAt mem' (start + (j - start % 8))
      else bitAt values j := by
  have hbmlen := length_createRequestBitMap hn hbm
  obtain ⟨d, _, _, hbits, hstored, _⟩ := writeCoils_spec (createRequestBitMap_ne_nil hn hbm) hrun
  -- requested coils are marked, so they take their bit from the moved values
  have hmoved : ∀ i < n, bitAt mem' (start + i) = bitAt d (start % 8 + i) := by
    intro i hi
    rw [show start + i = 8 * (start / 8) + (start % 8 + i) by omega, hstored,
      if_pos (createRequestBitMap_covers hn hbm hi)]
  rw [hmoved j hj, hbits (start % 8 + j) (by omega) (by omega), Nat.add_sub_cancel_left]
  split
  · next h =>
    rw [hmoved _ (by omega)]
    congr 1
    omega
  · rfl

/-- A block write stores the requested values exactly when every value whose place
is a carry into the third byte or a later one equals the value as many places
before it as the request is into its first byte. -/
theorem storesRequested_iff (mem mask bm values mem' : Buffer) (start n : Nat)
    (hmask : mask.length = mem.length) (hn : 1 ≤ n)
    (hbm : createRequestBitMap start n = .ok bm)
    (hlegal : legalAddress mask bm start = .ok true)
    (hrun : writeCoils mem bm values start = .ok mem') :
    StoresRequested mem mem' values start n ↔
      ∀ j < n, 16 ≤ start % 8 + j → (start % 8 + j) % 8 < start % 8 →
        bitAt values j = bitAt values (j - start % 8) := by
  obtain ⟨_, hfit, _⟩ := legalAddress_iff.mp hlegal
  rw [hmask] at hfit
  have hbits := writeCoils_bits hn hbm hrun
  constructor
  · rintro ⟨hstored, _⟩ j hj h16 hlow
    have hj' := hbits j hj
    rw [if_pos ⟨hlow, h16⟩, hstored j hj, hstored _ (by omega)] at hj'
    exact hj'
  · intro hsame
    have hstored : ∀ j < n, bitAt mem' (start + j) = bitAt values j := by
      intro j
      -- a carried bit was stored before, at a smaller `j`
      induction j using Nat.strongRecOn with
      | ind j ih =>
        intro hj
        rw [hbits j hj]
        split
        · next h =>
          rw [ih (j - start % 8) (by omega) (by omega), hsame j hj h.2 h.1]
        · rfl
    have hlen := length_createRequestBitMap hn hbm
    obtain ⟨each, heach, hvalues⟩ := writeEachCoil_range mem values start n (by
      intro j hj
      omega)
    exact ⟨hstored, each, heach, fun j hj => (hstored j hj).trans (hvalues j hj).symm⟩

/-- Sixteen coils from address 1 whose last two values are the same. -/
theorem storesRequested_sixteen :
    writeCoils [0, 0, 0] [0xFE, 0xFF, 0x01] [0x55, 0xC0, 0] 1 = .ok [0xAA, 0x80, 0x01] ∧
      StoresRequested [0, 0, 0] [0xAA, 0x80, 0x01] [0x55, 0xC0, 0] 1 16 :=
  ⟨by decide,
    (storesRequested_iff [0, 0, 0] [0xFF, 0xFF, 0xFF] [0xFE, 0xFF, 0x01] [0x55, 0xC0, 0] _ 1 16
      rfl (by decide) (by decide) (by decide) (by decide)).mpr (by decide)⟩

/-- Sixteen coils from address 1, the last of them on: nothing is stored. -/
theorem last_coil_lost :
    createRequestBitMap 1 16 = .ok [0xFE, 0xFF, 0x01] ∧
      legalAddress [0xFF, 0xFF, 0xFF] [0xFE, 0xFF, 0x01] 1 = .ok true ∧
      writeCoils [0, 0, 0] [0xFE, 0xFF, 0x01] [0, 0x80, 0] 1 = .ok [0, 0, 0] ∧
      writeEachCoil [0, 0, 0]
        ((List.range 16).map fun j => (1 + j, bitAt [0, 0x80, 0] j)) = .ok [0, 0, 0x01] ∧
      ¬ StoresRequested [0, 0, 0] [0, 0, 0] [0, 0x80, 0] 1 16 := by
  refine ⟨by decide, by decide, by decide, by decide, ?_⟩
  intro h
  have hlast := h.1 15 (by decide)
  revert hlast
  decide

/-! ## What a block write leaves alone -/

/-- Every coil before the requested ones and behind them is as it was. -/
def LeavesOthers (mem mem' : Buffer) (start n : Nat) : Prop :=
  ∀ a, a < start ∨ start + n ≤ a → bitAt mem' a = bitAt mem a

/-- Where the value at position `x` of the moved values was before: `s` places below,
unless that place had been moved by then. -/
def movedFrom (s x : Nat) : Nat :=
  if x % 8 < s ∧ 16 ≤ x then movedFrom s (x - s) else x - s
termination_by x
decreasing_by omega

theorem bitAt_movedFrom {s m : Nat} {values d : Buffer} (hs : s < 8)
    (hbits : ∀ x, s ≤ x → x < 8 * m →
      bitAt d x = if x % 8 < s ∧ 16 ≤ x then bitAt d (x - s) else bitAt values (x - s))
    (x : Nat) (hlo : s ≤ x) (hhi : x < 8 * m) : bitAt d x = bitAt values (movedFrom s x) := by
  induction x using Nat.strongRecOn with
  | ind x ih =>
    rw [hbits x hlo hhi, movedFrom]
    split
    · exact ih (x - s) (by omega) (by omega) (by omega)
    · rfl

/-- A block write leaves the other coils alone exactly when its request does not close a
byte in the middle of its count, or the eight coils behind it already hold the values
that are moved there. -/
theorem leavesOthers_iff (mem bm values mem' : Buffer) (start n : Nat) (hn : 1 ≤ n)
    (hbm : createRequestBitMap start n = .ok bm)
    (hrun : writeCoils mem bm values start = .ok mem') :
    LeavesOthers mem mem' start n ↔
      (n % 8 + start % 8 = 8 → ∀ i < 8,
        bitAt mem (start + n + i) = bitAt values (movedFrom (start % 8) (start % 8 + n + i))) := by
  have hs : start % 8 < 8 := Nat.mod_lt _ (by decide)
  have hlen := length_createRequestBitMap hn hbm
  have hmarks := bitAt_createRequestBitMap hn hbm
  obtain ⟨d, _, _, hbits, hstored, hbelow⟩ :=
    writeCoils_spec (createRequestBitMap_ne_nil hn hbm) hrun
  have hmoved := bitAt_movedFrom hs hbits
  -- the coils behind the request that the bitmap marks all the same
  have hnext : n % 8 + start % 8 = 8 → ∀ i < 8, bitAt mem' (start + n + i) =
      bitAt values (movedFrom (start % 8) (start % 8 + n + i)) := by
    intro hclosed i hi
    have hmarked : bitAt bm (start % 8 + n + i) = true := by
      rw [hmarks, if_pos hclosed]
      omega
    rw [show start + n + i = 8 * (start / 8) + (start % 8 + n + i) by omega, hstored,
      if_pos hmarked, hmoved _ (by omega) (by omega)]
  constructor
  · intro hothers hclosed i hi
    rw [← hnext hclosed i hi, hothers _ (.inr (by omega))]
  · intro hsame a ha
    by_cases hfirst : a < 8 * (start / 8)
    · exact hbelow a hfirst
    · obtain ⟨j, rfl⟩ : ∃ j, a = 8 * (start / 8) + j := ⟨a - 8 * (start / 8), by omega⟩
      by_cases hj : bitAt bm j = true
      · -- a marked coil outside the request is one of the eight behind it
        have hrange := (hmarks j).mp hj
        split at hrange
        · next hclosed =>
          obtain ⟨i, rfl⟩ : ∃ i, j = start % 8 + n + i := ⟨j - (start % 8 + n), by omega⟩
          rw [show 8 * (start / 8) + (start % 8 + n + i) = start + n + i by omega,
            hnext hclosed i (by omega), hsame hclosed i (by omega)]
        · omega
      · rw [hstored, if_neg hj]

/-- Three coils from address 2, between coils that are on. -/
theorem leavesOthers_three :
    writeCoils [0xFF, 0xFF] [0x1C] [0x05] 2 = .ok [0xF7, 0xFF] ∧
      LeavesOthers [0xFF, 0xFF] [0xF7, 0xFF] 2 3 :=
  ⟨by decide, (leavesOthers_iff [0xFF, 0xFF] [0x1C] [0x05] [0xF7, 0xFF] 2 3 (by decide)
    (by decide) (by decide)).mpr fun hclosed => absurd hclosed (by decide)⟩

/-- Four coils from address 4 clear the eight coils behind them. -/
theorem next_coils_cleared :
    createRequestBitMap 4 4 = .ok [0xF0, 0xFF] ∧
      writeCoils [0x00, 0xFF] [0xF0, 0xFF] [0x0F, 0x00] 4 = .ok [0xF0, 0x00] ∧
      ¬ LeavesOthers [0x00, 0xFF] [0xF0, 0x00] 4 4 := by
  refine ⟨by decide, by decide, ?_⟩
  intro hothers
  have hnext := hothers 8 (.inr (by decide))
  revert hnext
  decide

end Modbus.Server
