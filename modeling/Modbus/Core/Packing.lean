import Modbus.Core.Messages

/-! # Packing coils into bytes

The `vector<bool>` constructor of `write_multiple_coils_request` ors one bit after the
other into bytes that it has counted before. A round of its loop adds its own bit and
touches no other (`packBools_total`), so up to the largest length that a request can
state the bytes are the coils and zeros behind them. -/
namespace Modbus.WriteMultipleCoilsRequest
open Bytes Checked

/-- The bytes that `resize` adds are zero. -/
theorem bitAt_replicate_zero (n j : Nat) : bitAt (List.replicate n 0) j = false := by
  simp only [bitAt, List.getD_eq_getElem?_getD, List.getElem?_replicate]
  split <;> simp

/-- Setting one bit of a vector. -/
theorem modify_bit {values : Buffer} {k : Nat} (hk : k / 8 < values.length) :
    ∃ out, modify values (k / 8) (· ||| (1#8 <<< (k % 8))) = .ok out ∧
      out.length = values.length ∧ ∀ j, bitAt out j = (bitAt values j || decide (j = k)) := by
  obtain ⟨x, hx⟩ : ∃ x, values[k / 8]? = some x := exists_get hk
  refine ⟨_, modify_ok.mpr ⟨x, hx, rfl⟩, List.length_set, ?_⟩
  intro j
  have hp : j % 8 < 8 := Nat.mod_lt _ (by decide)
  by_cases hbyte : j / 8 = k / 8
  · have hj : j = 8 * (k / 8) + j % 8 := by omega
    have hsame : (j % 8 = k % 8) = (j = k) := propext ⟨fun h => by omega, fun h => by rw [h]⟩
    rw [hj, bitAt_set_eq hk hp, BitVec.getLsbD_or, getLsbD_one_shl _ hp, bitAt_of_getElem? hx hp,
      ← hj]
    simp only [hsame]
  · have hne : j ≠ k := fun h => hbyte (by rw [h])
    rw [bitAt_set_ne hbyte]
    simp [hne]

/-- The first of the remaining coils stands at `k`, the others behind it. -/
theorem remaining_cons (value : Bool) (rest : List Bool) (k j : Nat) :
    (decide (k ≤ j) && (value :: rest).getD (j - k) false) =
      ((decide (j = k) && value) || (decide (k + 1 ≤ j) && rest.getD (j - (k + 1)) false)) := by
  rcases Nat.lt_trichotomy j k with hlt | rfl | hgt
  · simp [show ¬ j = k by omega, show ¬ k ≤ j by omega, show ¬ k + 1 ≤ j by omega]
  · simp [show ¬ j + 1 ≤ j by omega]
  · simp [show ¬ j = k by omega, show k ≤ j by omega, show k + 1 ≤ j by omega,
      show j - k = j - (k + 1) + 1 by omega]

/-- The loop from `boolNumber = k` on: the bits of the remaining coils are added. -/
theorem packBools_total (bools : List Bool) (k : Nat) (values : Buffer)
    (hroom : k + bools.length ≤ 8 * values.length) (hint : k + bools.length ≤ intMax) :
    ∃ out, packBools bools k values = .ok out ∧ out.length = values.length ∧
      ∀ j, bitAt out j = (bitAt values j || (decide (k ≤ j) && bools.getD (j - k) false)) := by
  induction bools generalizing k values with
  | nil => exact ⟨values, rfl, rfl, fun j => by simp⟩
  | cons value rest ih =>
    rw [List.length_cons] at hroom hint
    have hnext : int (k + 1) = .ok (k + 1) := int_ok.mpr ⟨by omega, rfl⟩
    cases value with
    | false =>
      obtain ⟨out, hout, hlen, hbits⟩ := ih (k + 1) values (by omega) (by omega)
      refine ⟨out, ?_, hlen, fun j => ?_⟩
      · simpa [packBools, hnext] using hout
      · rw [hbits, remaining_cons, Bool.and_false, Bool.false_or]
    | true =>
      obtain ⟨values', hset, hlen', hbits'⟩ := @modify_bit values k (by omega)
      obtain ⟨out, hout, hlen, hbits⟩ := ih (k + 1) values' (by omega) (by omega)
      refine ⟨out, ?_, hlen.trans hlen', fun j => ?_⟩
      · simpa [packBools, hnext, hset] using hout
      · rw [hbits, hbits', remaining_cons, Bool.and_true, Bool.or_assoc]

/-- What the constructor packs: as many coils as it says, in the fewest bytes that hold
them, each at its place, and nothing behind them. -/
structure Packs (bools : List Bool) (m : WriteMultipleCoilsRequest) : Prop where
  length_eq : m.length.toNat = bools.length
  bytes : m.values.length = (bools.length + 7) / 8
  bits : ∀ (j : Nat) (h : j < bools.length), bitAt m.values j = bools[j]
  padding : ∀ j, bools.length ≤ j → bitAt m.values j = false

/-- The constructor stays in range and packs exactly its coils. -/
theorem ofBools_packs (unitId : Byte) (startAddress : Word) (bools : List Bool)
    (hlen : bools.length ≤ 65535) :
    ∃ m, ofBools unitId startAddress bools = .ok m ∧ m.unitId = unitId ∧
      m.startAddress = startAddress ∧ Packs bools m := by
  have hlength : (BitVec.ofNat 16 bools.length).toNat = bools.length := by
    rw [BitVec.toNat_ofNat]
    omega
  have hbytes : bools.length / 8 + (if bools.length % 8 ≠ 0 then 1 else 0) =
      (bools.length + 7) / 8 := by
    split <;> omega
  obtain ⟨values, hpack, hsize, hbits⟩ := packBools_total bools 0
    (List.replicate ((bools.length + 7) / 8) 0) (by rw [List.length_replicate]; omega)
    (by unfold intMax; omega)
  refine ⟨⟨unitId, startAddress, BitVec.ofNat 16 bools.length, values⟩, ?_, rfl, rfl,
    hlength, ?_, ?_, ?_⟩
  · simp only [ofBools, hlength, hbytes, hpack, ok_bind, pure_eq_ok]
  · rw [hsize, List.length_replicate]
  · intro j hj
    rw [hbits, bitAt_replicate_zero]
    simp [hj]
  · intro j hj
    rw [hbits, bitAt_replicate_zero]
    simp [hj]

theorem ofBools_packs_ten :
    ∃ m, ofBools 1#8 0x13#16 [true, false, true, true, false, false, true, true, true, false] =
        .ok m ∧ m.unitId = 1#8 ∧ m.startAddress = 0x13#16 ∧
      Packs [true, false, true, true, false, false, true, true, true, false] m :=
  ofBools_packs 1#8 0x13#16 [true, false, true, true, false, false, true, true, true, false]
    (by decide)

end Modbus.WriteMultipleCoilsRequest
