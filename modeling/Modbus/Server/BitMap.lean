import Modbus.Server.Helper

/-! # The request bitmap and the access check

`createRequestBitMap` marks the requested addresses, counted from the first
address of their first byte, and eight more when the last of them closes a byte
in the middle of the count (`bitAt_createRequestBitMap`). There is none when the
last byte would take more than eight bits (`createRequestBitMap_high`). The access
check compares it with the access mask bit by bit (`legalAddress_iff`); marking too
much makes it stricter, so what it grants is allowed (`legalAddress_sound`), but
not everything that is allowed is granted. -/
namespace Modbus.Server
open Bytes Checked

/-! ## The bits of the bitmap -/

theorem bitMasks_get {n p : Nat} {mask : Byte} (h : bitMasks[n]? = some mask) (hp : p < 8) :
    n ≤ 8 ∧ mask.getLsbD p = decide (p < n) := by
  have hall : ∀ n < 9, ∀ p < 8, (bitMasks.getD n 0).getLsbD p = decide (p < n) := by
    decide
  obtain ⟨hlt, hmask⟩ := List.getElem?_eq_some_iff.mp h
  have hn : n < 9 := hlt
  have hbit := hall n hn p hp
  rw [List.getD_eq_getElem?_getD, h, Option.getD_some] at hbit
  exact ⟨by omega, hbit⟩

theorem getLsbD_ones {p : Nat} (hp : p < 8) : (0xFF#8).getLsbD p = true := by
  have hall : ∀ p < 8, (0xFF#8).getLsbD p = true := by decide
  exact hall p hp

/-- The filling loop writes all bytes but the last. -/
theorem fill_eq (k : Nat) :
    loop 0 k (fun i bm => set bm i 0xFF#8) (List.replicate (k + 1) 0#8) =
      .ok (List.replicate k 0xFF#8 ++ [0#8]) := by
  obtain ⟨bm, hbm, hinv⟩ : ∃ bm,
      loop 0 k (fun i bm => set bm i 0xFF#8) (List.replicate (k + 1) 0#8) = .ok bm ∧
        bm = List.replicate k 0xFF#8 ++ List.replicate (k + 1 - k) 0#8 := by
    apply loop_total
      (P := fun i bm => bm = List.replicate i 0xFF#8 ++ List.replicate (k + 1 - i) 0#8)
      (Nat.zero_le k) rfl
    intro i bm _ hi hbm
    subst hbm
    refine ⟨_, set_ok.mpr ⟨?_, rfl⟩, ?_⟩
    · simp only [List.length_append, List.length_replicate]
      omega
    · rw [show k + 1 - i = k + 1 - (i + 1) + 1 by omega, List.replicate_succ]
      simp [List.replicate_succ']
  rw [hbm, hinv, Nat.add_sub_cancel_left]
  rfl

/-- The bitmap, byte by byte. -/
theorem createRequestBitMap_ok {start n : Nat} {bm : Buffer} (hn : 0 < n)
    (h : createRequestBitMap start n = .ok bm) :
    ∃ (k : Nat) (mask first : Byte), k = (n + start % 8) / 8 ∧ n + start % 8 ≤ intMax ∧
      bitMasks[if k = 0 then n else n % 8 + start % 8]? = some mask ∧
      (List.replicate k 0xFF#8 ++ [mask])[0]? = some first ∧
      bm = (List.replicate k 0xFF#8 ++ [mask]).set 0 (first <<< (start % 8)) := by
  rw [createRequestBitMap, if_neg (by omega)] at h
  simp only [bind_ok, int_ok, get_ok, set_ok, modify_ok] at h
  obtain ⟨_, ⟨hint, rfl⟩, filled, hfill, mask, hmask, set1, ⟨_, rfl⟩, first, hfirst, rfl⟩ := h
  rw [Nat.add_sub_cancel, fill_eq, Except.ok.injEq] at hfill
  subst hfill
  have hset : (List.replicate ((n + start % 8) / 8) 0xFF#8 ++ [0#8]).set
      ((n + start % 8) / 8 + 1 - 1) mask =
      List.replicate ((n + start % 8) / 8) 0xFF#8 ++ [mask] := by
    simp
  rw [hset] at hfirst ⊢
  refine ⟨_, mask, first, rfl, hint, ?_, hfirst, rfl⟩
  rw [← hmask]
  congr 1
  simp only [Nat.add_eq_right]

theorem length_createRequestBitMap {start n : Nat} {bm : Buffer} (hn : 0 < n)
    (h : createRequestBitMap start n = .ok bm) : bm.length = (n + start % 8) / 8 + 1 := by
  obtain ⟨k, mask, first, rfl, _, _, _, rfl⟩ := createRequestBitMap_ok hn h
  simp

/-- A request for some coils has a bitmap. -/
theorem createRequestBitMap_ne_nil {start n : Nat} {bm : Buffer} (hn : 1 ≤ n)
    (hbm : createRequestBitMap start n = .ok bm) : bm ≠ [] := by
  rintro rfl
  have hlen := length_createRequestBitMap hn hbm
  rw [List.length_nil] at hlen
  omega

/-- The bits of the last byte of a bitmap are in the table of masks. -/
theorem createRequestBitMap_high {start n : Nat} {bm : Buffer} (hn : 0 < n)
    (h : createRequestBitMap start n = .ok bm) : n % 8 + start % 8 ≤ 8 := by
  obtain ⟨k, mask, _, hk, _, hmask, _⟩ := createRequestBitMap_ok hn h
  obtain ⟨hhigh, _⟩ := bitMasks_get hmask (Nat.zero_lt_succ 7)
  split at hhigh <;> omega

/-- There is a bitmap when they are. -/
theorem createRequestBitMap_total (start n : Nat) (hn : 0 < n) (hint : n + start % 8 ≤ intMax)
    (hhigh : n % 8 + start % 8 ≤ 8) : ∃ bm, createRequestBitMap start n = .ok bm := by
  have hindex : (if (n + start % 8) / 8 + 1 = 1 then n else n % 8 + start % 8) <
      bitMasks.length := by
    rw [show bitMasks.length = 9 from rfl]
    split <;> omega
  obtain ⟨mask, hmask⟩ : ∃ mask, bitMasks[if (n + start % 8) / 8 + 1 = 1 then n
      else n % 8 + start % 8]? = some mask :=
    exists_get hindex
  obtain ⟨first, hfirst⟩ : ∃ x, ((List.replicate ((n + start % 8) / 8) 0xFF#8 ++ [0#8]).set
      ((n + start % 8) / 8) mask)[0]? = some x :=
    exists_get (by simp)
  rw [createRequestBitMap, if_neg (by omega)]
  simp only [Nat.add_sub_cancel, bind_ok, int_ok, get_ok, set_ok, modify_ok]
  exact ⟨_, _, ⟨hint, rfl⟩, _, fill_eq _, mask, hmask, _, ⟨by simp, rfl⟩, first, hfirst, rfl⟩

/-- The bitmap of a range that starts with a byte. -/
theorem createRequestBitMap_aligned (start n : Nat) (hs : start % 8 = 0) (hn : 0 < n)
    (hint : n ≤ intMax) :
    createRequestBitMap start n =
      .ok (List.replicate (n / 8) 0xFF#8 ++ [bitMasks.getD (n % 8) 0]) := by
  have hall : ∀ k < 8, bitMasks[k]? = some (bitMasks.getD k 0) := by decide
  have hmask := hall (n % 8) (Nat.mod_lt n (by omega))
  have hhigh : (if n / 8 + 1 = 1 then n else n % 8) = n % 8 := by
    split <;> omega
  generalize bitMasks.getD (n % 8) 0 = mask at hmask
  have hset : (List.replicate (n / 8) 0xFF#8 ++ [0#8]).set (n / 8) mask =
      List.replicate (n / 8) 0xFF#8 ++ [mask] := by
    simp
  obtain ⟨first, hfirst⟩ : ∃ x, (List.replicate (n / 8) 0xFF#8 ++ [mask])[0]? = some x :=
    exists_get (by simp)
  rw [createRequestBitMap, if_neg (by omega)]
  simp only [hs, Nat.add_zero, Nat.add_sub_cancel, bind_ok, int_ok, get_ok, set_ok, modify_ok]
  refine ⟨n, ⟨hint, rfl⟩, _, fill_eq (n / 8), mask, ?_, _, ⟨?_, hset⟩, first, hfirst, ?_⟩
  · rw [hhigh, hmask]
  · simp
  · obtain ⟨hlt, rfl⟩ := List.getElem?_eq_some_iff.mp hfirst
    rw [BitVec.shiftLeft_zero, List.set_getElem_self]

/-- Full bytes and a table mask mark the positions below a bound. -/
theorem bitAt_full_bytes {k high : Nat} {mask : Byte} (hmask : bitMasks[high]? = some mask)
    (j : Nat) :
    bitAt (List.replicate k 0xFF#8 ++ [mask]) j = true ↔ j < 8 * k + high := by
  have hp : j % 8 < 8 := Nat.mod_lt _ (by omega)
  have hj : 8 * (j / 8) + j % 8 = j := Nat.div_add_mod j 8
  obtain ⟨hle, hbit⟩ := bitMasks_get hmask hp
  rcases Nat.lt_trichotomy (j / 8) k with hlt | heq | hgt
  · have hbyte : (List.replicate k 0xFF#8 ++ [mask])[j / 8]? = some 0xFF#8 := by
      rw [List.getElem?_append_left (by simpa using hlt)]
      simp [hlt]
    rw [← hj, bitAt_of_getElem? hbyte hp, getLsbD_ones hp]
    simp only [true_iff]
    omega
  · have hbyte : (List.replicate k 0xFF#8 ++ [mask])[j / 8]? = some mask := by
      rw [heq, List.getElem?_append_right (by simp)]
      simp
    rw [← hj, bitAt_of_getElem? hbyte hp, hbit, decide_eq_true_eq]
    omega
  · rw [bitAt_of_length_le (by simp; omega)]
    simp only [Bool.false_eq_true, false_iff]
    omega

/-- The marked positions: the requested ones, and a whole byte more when the
count ends in the middle of a byte that the request closes. -/
theorem bitAt_createRequestBitMap {start n : Nat} {bm : Buffer} (hn : 0 < n)
    (h : createRequestBitMap start n = .ok bm) (j : Nat) :
    bitAt bm j = true ↔
      start % 8 ≤ j ∧ j < start % 8 + n + if n % 8 + start % 8 = 8 then 8 else 0 := by
  obtain ⟨k, mask, first, hk, _, hmask, hfirst, rfl⟩ := createRequestBitMap_ok hn h
  have hs : start % 8 < 8 := Nat.mod_lt _ (by omega)
  have hhigh := (bitMasks_get hmask (Nat.zero_lt_succ 7)).1
  have hbits := bitAt_full_bytes (k := k) hmask
  generalize start % 8 = s at *
  by_cases h0 : j < 8
  · -- the first byte was moved up by `s`
    have hbit : bitAt ((List.replicate k 0xFF#8 ++ [mask]).set 0 (first <<< s)) j =
        (!decide (j < s) && bitAt (List.replicate k 0xFF#8 ++ [mask]) (j - s)) := by
      have hmoved := bitAt_set_eq (x := first <<< s)
        (show 0 < (List.replicate k 0xFF#8 ++ [mask]).length by simp) h0
      have hkept := bitAt_of_getElem? hfirst (show j - s < 8 by omega)
      rw [Nat.mul_zero, Nat.zero_add] at hmoved hkept
      rw [hmoved, hkept, BitVec.getLsbD_shiftLeft]
      simp [h0]
    rw [hbit, Bool.and_eq_true, hbits]
    simp only [Bool.not_eq_true', decide_eq_false_iff_not, Nat.not_lt]
    split at hhigh <;> split <;> split <;> omega
  · rw [bitAt_set_ne (by omega), hbits]
    split at hhigh <;> split <;> split <;> omega

/-- Every requested position is marked. -/
theorem createRequestBitMap_covers {start n j : Nat} {bm : Buffer} (hn : 0 < n)
    (h : createRequestBitMap start n = .ok bm) (hj : j < n) :
    bitAt bm (start % 8 + j) = true := by
  rw [bitAt_createRequestBitMap hn h]
  constructor <;> omega

/-! ## When there is a bitmap -/

/-- Every index is in range exactly when the bits of the last byte are in the table
of masks, and the count can be rounded up in an `int`. -/
theorem createRequestBitMap_inRange_iff (start n : Nat) :
    (∃ bm, createRequestBitMap start n = .ok bm) ↔
      n % 8 + start % 8 ≤ 8 ∧ n + start % 8 ≤ intMax := by
  have hs : start % 8 < 8 := Nat.mod_lt _ (by decide)
  rcases Nat.eq_zero_or_pos n with rfl | hn
  · refine iff_of_true ⟨[], rfl⟩ ⟨?_, ?_⟩
    · omega
    · unfold intMax
      omega
  · constructor
    · rintro ⟨bm, hbm⟩
      obtain ⟨_, _, _, _, hint, _⟩ := createRequestBitMap_ok hn hbm
      exact ⟨createRequestBitMap_high hn hbm, hint⟩
    · rintro ⟨hhigh, hint⟩
      exact createRequestBitMap_total start n hn hint hhigh

/-- Ten coils from address 7 ask for nine bits of the last byte. -/
theorem createRequestBitMap_overrun :
    createRequestBitMap 7 10 = .error (.outOfRange 9 9) ∧
      ¬ ∃ bm, createRequestBitMap 7 10 = .ok bm := by
  have hfault : createRequestBitMap 7 10 = .error (.outOfRange 9 9) := by decide
  refine ⟨hfault, ?_⟩
  rintro ⟨bm, hbm⟩
  rw [hfault] at hbm
  cases hbm

/-! ## Which positions are marked -/

/-- The bitmap marks the requested positions and no others, and has room for them. -/
def MarksRequested (bm : Buffer) (start n : Nat) : Prop :=
  (∀ j < 8 * bm.length, bitAt bm j = true ↔ start % 8 ≤ j ∧ j < start % 8 + n) ∧
    start % 8 + n ≤ 8 * bm.length

/-- The requested positions are marked exactly unless the requested count ends in the
middle of a byte that the request closes. -/
theorem marksRequested_iff (start n : Nat) (bm : Buffer) (hn : 1 ≤ n)
    (hbm : createRequestBitMap start n = .ok bm) :
    MarksRequested bm start n ↔ n % 8 + start % 8 ≠ 8 := by
  have hlen := length_createRequestBitMap hn hbm
  have hbits := bitAt_createRequestBitMap hn hbm
  have hroom : start % 8 + n < 8 * bm.length := by omega
  constructor
  · rintro ⟨hmarks, _⟩ hclosed
    -- the position right behind the request is marked as well
    have hnext : bitAt bm (start % 8 + n) = true := by
      rw [hbits, if_pos hclosed]
      omega
    exact Nat.lt_irrefl _ ((hmarks _ hroom).mp hnext).2
  · intro hopen
    refine ⟨fun j _ => ?_, Nat.le_of_lt hroom⟩
    rw [hbits, if_neg hopen, Nat.add_zero]

/-- The nine positions from 1 on. -/
theorem marksRequested_nine :
    createRequestBitMap 1 9 = .ok [0xFE, 0x03] ∧ MarksRequested [0xFE, 0x03] 1 9 :=
  ⟨by decide, (marksRequested_iff 1 9 [0xFE, 0x03] (by decide) (by decide)).mpr (by decide)⟩

/-- Four coils from address 4 mark the eight coils behind them. -/
theorem next_byte_marked :
    createRequestBitMap 4 4 = .ok [0xF0, 0xFF] ∧ ¬ MarksRequested [0xF0, 0xFF] 4 4 := by
  refine ⟨by decide, ?_⟩
  rintro ⟨hmarks, _⟩
  have hnext := (hmarks 8 (by decide)).mp (by decide)
  exact absurd hnext.2 (by decide)

/-! ## The access check -/

/-- A byte is contained in another when its bits are. -/
theorem and_eq_left_iff (x y : Byte) :
    x &&& y = x ↔ ∀ p < 8, x.getLsbD p = true → y.getLsbD p = true := by
  constructor
  · intro h p hp hx
    rw [← h, BitVec.getLsbD_and, Bool.and_eq_true] at hx
    exact hx.2
  · intro h
    apply BitVec.eq_of_getLsbD_eq
    intro p hp
    rw [BitVec.getLsbD_and]
    cases hx : x.getLsbD p with
    | false => rfl
    | true => simp [h p hp hx]

/-- The check succeeds when the bitmap, placed at its first byte, lies inside the
mask and marks only what the mask allows. -/
theorem legalAddress_iff {mask bm : Buffer} {start : Nat} :
    legalAddress mask bm start = .ok true ↔
      bm ≠ [] ∧ start / 8 + bm.length ≤ mask.length ∧
        ∀ j, bitAt bm j = true → bitAt mask (8 * (start / 8) + j) = true := by
  by_cases hnil : bm = []
  · subst hnil
    simp [legalAddress]
  · have hpos : bm.length ≠ 0 := fun h => hnil (List.length_eq_zero_iff.mp h)
    by_cases hfit : start / 8 + bm.length ≤ mask.length
    · rw [legalAddress, if_neg hpos, if_neg (by omega), allM_ok_true]
      simp only [ne_eq, hnil, not_false_eq_true, hfit, true_and, List.mem_range]
      constructor
      · intro h j hj
        have hlt := lt_length_of_bitAt hj
        have hi := h (j / 8) hlt
        simp only [bind_ok, get_ok, pure_eq_ok, Except.ok.injEq, beq_iff_eq] at hi
        obtain ⟨x, hx, y, hy, hxy⟩ := hi
        have hp : j % 8 < 8 := Nat.mod_lt _ (by omega)
        rw [← Nat.div_add_mod j 8, bitAt_of_getElem? hx hp] at hj
        rw [show 8 * (start / 8) + j = 8 * (j / 8 + start / 8) + j % 8 by omega,
          bitAt_of_getElem? hy hp]
        exact (and_eq_left_iff x y).mp hxy (j % 8) hp hj
      · intro h i hi
        obtain ⟨x, hx⟩ : ∃ x, bm[i]? = some x := exists_get hi
        obtain ⟨y, hy⟩ : ∃ y, mask[i + start / 8]? = some y :=
          exists_get (by omega)
        simp only [bind_ok, get_ok, pure_eq_ok, Except.ok.injEq, beq_iff_eq]
        refine ⟨_, hx, _, hy, (and_eq_left_iff _ _).mpr ?_⟩
        intro p hp hbit
        rw [← bitAt_of_getElem? hx hp] at hbit
        have := h _ hbit
        rwa [show 8 * (start / 8) + (8 * i + p) = 8 * (i + start / 8) + p by omega,
          bitAt_of_getElem? hy hp] at this
    · rw [legalAddress, if_neg hpos, if_pos (by omega)]
      simp [hfit]

/-- What the access check grants is allowed, address by address. -/
theorem legalAddress_sound {mask bm : Buffer} {start n a : Nat} (hn : 1 ≤ n)
    (hbm : createRequestBitMap start n = .ok bm)
    (hlegal : legalAddress mask bm start = .ok true) (hlo : start ≤ a) (hhi : a < start + n) :
    bitAt mask a = true := by
  obtain ⟨_, _, hall⟩ := legalAddress_iff.mp hlegal
  have hcov := createRequestBitMap_covers (j := a - start) hn hbm (by omega)
  have hbit := hall _ hcov
  rwa [show 8 * (start / 8) + (start % 8 + (a - start)) = a by omega] at hbit

/-- The access check never grants a forbidden address: the byte of every granted
address exists in the mask and its bit is set. -/
theorem legalAddress_grants (mask bm : Buffer) (start n : Nat) (hn : 1 ≤ n)
    (hbm : createRequestBitMap start n = .ok bm)
    (hlegal : legalAddress mask bm start = .ok true) :
    ∀ a, start ≤ a → a < start + n →
      ∃ x, mask[a / 8]? = some x ∧ x.getLsbD (a % 8) = true := by
  intro a hlo hhi
  exact exists_of_bitAt (legalAddress_sound hn hbm hlegal hlo hhi)

/-- The nine coils from address 1, under a mask that allows just them. -/
theorem legalAddress_grants_nine :
    createRequestBitMap 1 9 = .ok [0xFE, 0x03] ∧
      legalAddress [0xFE, 0x03, 0x06, 0x00] [0xFE, 0x03] 1 = .ok true ∧
      ∀ a, 1 ≤ a → a < 1 + 9 →
        ∃ x, ([0xFE, 0x03, 0x06, 0x00] : Buffer)[a / 8]? = some x ∧ x.getLsbD (a % 8) = true :=
  ⟨by decide, by decide, legalAddress_grants [0xFE, 0x03, 0x06, 0x00] [0xFE, 0x03] 1 9
    (by decide) (by decide) (by decide)⟩

/-! ## Permitted ranges -/

/-- The byte of every address of the range is in the mask, and its bit is set. -/
def Permitted (mask : Buffer) (start n : Nat) : Prop :=
  ∀ a, start ≤ a → a < start + n → ∃ x, mask[a / 8]? = some x ∧ x.getLsbD (a % 8) = true

/-- The byte behind a range is in the mask, and its addresses are allowed when the
range starts in the middle of a byte. -/
def AllowsNextByte (mask : Buffer) (start n : Nat) : Prop :=
  (start + n) / 8 < mask.length ∧
    (start % 8 ≠ 0 → ∀ a, start + n ≤ a → a < start + n + 8 → bitAt mask a = true)

/-- A permitted range is granted exactly when, if it ends with a byte, the byte behind
it is there for the bitmap as well. -/
theorem legalAddress_permitted_iff (mask bm : Buffer) (start n : Nat) (hn : 1 ≤ n)
    (hbm : createRequestBitMap start n = .ok bm) (hperm : Permitted mask start n) :
    legalAddress mask bm start = .ok true ↔
      ((start + n) % 8 = 0 → AllowsNextByte mask start n) := by
  have hlen := length_createRequestBitMap hn hbm
  have hbits := bitAt_createRequestBitMap hn hbm
  have hhigh := createRequestBitMap_high hn hbm
  have hallowed : ∀ a, start ≤ a → a < start + n → bitAt mask a = true := by
    intro a hlo hhi
    obtain ⟨x, hx, hbit⟩ := hperm a hlo hhi
    rw [← Nat.div_add_mod a 8, bitAt_of_getElem? hx (Nat.mod_lt _ (by decide))]
    exact hbit
  rw [legalAddress_iff]
  constructor
  · rintro ⟨_, hfit, hmarked⟩ hends
    refine ⟨by omega, fun hs a hlo hhi => ?_⟩
    have hbit := hmarked (a - 8 * (start / 8)) (by
      rw [hbits, if_pos (by omega)]
      omega)
    rwa [Nat.add_sub_cancel' (by omega)] at hbit
  · intro hnext
    refine ⟨createRequestBitMap_ne_nil hn hbm, ?_, ?_⟩
    · by_cases hends : (start + n) % 8 = 0
      · have hbyte := (hnext hends).1
        omega
      · -- the last address lies in the last byte of the bitmap
        have hlast := lt_length_of_bitAt (hallowed (start + n - 1) (by omega) (by omega))
        omega
    · intro j hj
      obtain ⟨hlo, hhi⟩ := (hbits j).mp hj
      by_cases hin : j < start % 8 + n
      · exact hallowed _ (by omega) (by omega)
      · split at hhi
        · next hclosed =>
          obtain ⟨_, hbyte⟩ := hnext (by omega)
          exact hbyte (by omega) _ (by omega) (by omega)
        · exact absurd hhi hin

/-- The nine coils from address 1, under a mask that allows just them. -/
theorem legalAddress_permitted_nine :
    Permitted [0xFE, 0x03] 1 9 ∧ legalAddress [0xFE, 0x03] [0xFE, 0x03] 1 = .ok true := by
  have hperm : Permitted [0xFE, 0x03] 1 9 := by
    intro a hlo hhi
    have hbm : createRequestBitMap 1 9 = .ok [0xFE, 0x03] := by decide
    exact exists_of_bitAt (legalAddress_sound (by decide) hbm (by decide) hlo hhi)
  exact ⟨hperm, (legalAddress_permitted_iff [0xFE, 0x03] [0xFE, 0x03] 1 9 (by decide) (by decide)
    hperm).mpr fun hends => absurd hends (by decide)⟩

/-- Eight coils under a mask that ends with them, and four coils whose next byte is
closed. -/
theorem permitted_range_refused :
    Permitted [0xFF] 0 8 ∧ createRequestBitMap 0 8 = .ok [0xFF, 0x00] ∧
      legalAddress [0xFF] [0xFF, 0x00] 0 = .ok false ∧
      Permitted [0xFF, 0x00] 4 4 ∧ createRequestBitMap 4 4 = .ok [0xF0, 0xFF] ∧
      legalAddress [0xFF, 0x00] [0xF0, 0xFF] 4 = .ok false := by
  have hfirst : ∀ mask : Buffer, mask[0]? = some 0xFF → ∀ a < 8,
      ∃ x, mask[a / 8]? = some x ∧ x.getLsbD (a % 8) = true := by
    intro mask hmask a ha
    rw [Nat.div_eq_of_lt ha, Nat.mod_eq_of_lt ha]
    exact ⟨0xFF, hmask, getLsbD_ones ha⟩
  refine ⟨?_, by decide, by decide, ?_, by decide, by decide⟩
  · exact fun a _ hhi => hfirst [0xFF] rfl a hhi
  · exact fun a _ hhi => hfirst [0xFF, 0x00] rfl a hhi

end Modbus.Server
