import Modbus.Core.Reach
import Modbus.Server.BlockWrite
import Modbus.Server.Registers

/-! # Quantity, byte count and values

A multiple write carries its quantity and its byte count on the wire, and the
helpers of the server index the decoded values by the quantity. The decoder of
`read_write_registers_request` replaces the quantity by the number of values that
came; the other two keep both. For coils even the right byte count is not enough:
`write_coils` walks the request bitmap, which has a byte more than the values when
the requested coils end with a byte or go on into the next one. -/
namespace Modbus.Server
open Bytes Checked Walk TcpDataUnit

/-- Writing the registers stays inside the values, in any memory that has the
registers. -/
def WritesRegisters (values : List Word) (start n : Nat) : Prop :=
  ∀ mem : Buffer, 2 * (start + n) ≤ mem.length → ∃ mem', writeRegisters values mem start n = .ok mem'

/-- The bitmap of the coils is made without a fault, and writing them stays inside the
values, in any memory whose access check grants the request. -/
def WritesCoils (values : Buffer) (start n : Nat) : Prop :=
  ∃ bm, createRequestBitMap start n = .ok bm ∧
    ∀ mem mask : Buffer, mask.length = mem.length → legalAddress mask bm start = .ok true →
      ∃ mem', writeCoils mem bm values start = .ok mem'

/-- As many values as the quantity says, and enough for the helper that writes them. -/
def SelfConsistent : Message → Prop
  | .writeMultipleRegistersRequest r =>
    r.values.length = r.length.toNat ∧
      WritesRegisters r.values r.startAddress.toNat r.length.toNat
  | .writeMultipleCoilsRequest r =>
    r.values.length = (r.length.toNat + 7) / 8 ∧
      WritesCoils r.values r.startAddress.toNat r.length.toNat
  | .readWriteRegistersRequest r =>
    r.values.length = r.writeNumRegisters.toNat ∧
      WritesRegisters r.values r.writeStartAddress.toNat r.writeNumRegisters.toNat
  | _ => True

/-- The coils end inside a byte of the values, and inside the same byte of the memory. -/
def EndsInside (start n : Nat) : Prop := n = 0 ∨ n % 8 ≠ 0 ∧ n % 8 + start % 8 < 8

/-- The fields of the message on the wire agree. -/
def Reconciled (T : MessageKind) (b : Buffer) : Prop :=
  match T with
  | .writeMultipleRegistersRequest => (b.getD 12 0).toNat / 2 = (wordAt b 10).toNat
  | .writeMultipleCoilsRequest =>
    (b.getD 12 0).toNat = ((wordAt b 10).toNat + 7) / 8 ∧
      EndsInside (wordAt b 8).toNat (wordAt b 10).toNat
  | _ => True

/-! ## Registers -/

theorem writesRegisters_length {values : List Word} {start : Nat} (hstart : start < 65536)
    (hlen : values.length < 65536) : WritesRegisters values start values.length := by
  intro mem hmem
  cases values with
  | nil =>
    have hstep : int (start * 2) = .ok (start * 2) := by
      rw [int_ok]
      unfold intMax
      omega
    exact ⟨mem, by rw [writeRegisters, hstep]; rfl⟩
  | cons v vs =>
    obtain ⟨mem', hrun, _⟩ := writeRegisters_total mem (v :: vs) start (by
      intro i hi
      unfold intMax
      omega) (by simp)
    exact ⟨mem', hrun⟩

/-! ## Coils -/

/-- Where the request ends inside a byte, there is a bitmap and it is as long as the
values. -/
theorem writesCoils_of_endsInside {values : Buffer} {start n : Nat} (hword : n < 65536)
    (hlen : values.length = (n + 7) / 8) (hend : EndsInside start n) :
    WritesCoils values start n := by
  rcases Nat.eq_zero_or_pos n with rfl | hn
  · exact ⟨[], rfl, fun mem mask _ hlegal => absurd rfl (legalAddress_iff.mp hlegal).1⟩
  · obtain ⟨hr, hends⟩ := hend.resolve_left (Nat.ne_of_gt hn)
    obtain ⟨bm, hbm⟩ := createRequestBitMap_total start n hn (by unfold intMax; omega) (by omega)
    refine ⟨bm, hbm, fun mem mask hmask hlegal => ?_⟩
    obtain ⟨hne, hfit, _⟩ := legalAddress_iff.mp hlegal
    rw [hmask] at hfit
    rw [writeCoils_ok_iff hne hfit, length_createRequestBitMap hn hbm, hlen]
    omega

/-- A memory that grants every coil of a bitmap. -/
theorem legalAddress_replicate {bm : Buffer} (start : Nat) (hne : bm ≠ []) :
    legalAddress (List.replicate (start / 8 + bm.length) 0xFF) bm start = .ok true := by
  refine legalAddress_iff.mpr ⟨hne, Nat.le_of_eq (List.length_replicate ..).symm, fun j hj => ?_⟩
  have hlt := lt_length_of_bitAt hj
  have hbyte : (List.replicate (start / 8 + bm.length) (0xFF : Byte))[j / 8 + start / 8]? =
      some 0xFF := List.getElem?_replicate_of_lt (by omega)
  rw [show 8 * (start / 8) + j = 8 * (j / 8 + start / 8) + j % 8 by omega,
    bitAt_of_getElem? hbyte (Nat.mod_lt _ (by decide))]
  exact getLsbD_ones (Nat.mod_lt _ (by decide))

theorem endsInside_of_writesCoils {values : Buffer} {start n : Nat}
    (hlen : values.length = (n + 7) / 8) (h : WritesCoils values start n) :
    EndsInside start n := by
  rcases Nat.eq_zero_or_pos n with rfl | hpos
  · exact .inl rfl
  · obtain ⟨bm, hbm, hwrites⟩ := h
    have hhigh := createRequestBitMap_high hpos hbm
    have hne := createRequestBitMap_ne_nil hpos hbm
    -- coils that end with a byte have a bitmap that is a byte too long
    have hrun := hwrites (List.replicate (start / 8 + bm.length) 0)
      (List.replicate (start / 8 + bm.length) 0xFF)
      (by rw [List.length_replicate, List.length_replicate]) (legalAddress_replicate start hne)
    rw [writeCoils_ok_iff hne (Nat.le_of_eq (List.length_replicate ..).symm),
      length_createRequestBitMap hpos hbm] at hrun
    exact .inr (by omega)

/-! ## What the decoders accept -/

section Decoded
variable {b : Buffer} {p : Nat}

theorem registers_consistent {r : WriteMultipleRegistersRequest}
    (h : WriteMultipleRegistersRequest.decode b 6 = .ok (r, p)) :
    SelfConsistent (.writeMultipleRegistersRequest r) ↔
      Reconciled .writeMultipleRegistersRequest b := by
  have hreach := WriteMultipleRegistersRequest.decode_reaches h
  rw [WriteMultipleRegistersRequest.decode_eq rfl hreach] at h
  cases h
  have hvalues : (wordsOf (bytesAt b (6 + 7) (2 * ((b.getD (6 + 6) 0).toNat / 2)))).length =
      (b.getD 12 0).toNat / 2 := by
    rw [length_wordsOf, length_bytesAt (by omega), Nat.mul_div_cancel_left _ (by decide)]
  constructor
  · intro hself
    exact hvalues.symm.trans hself.1
  · intro hcount
    have hlen := hvalues.trans hcount
    refine ⟨hlen, ?_⟩
    have hwrites := writesRegisters_length (wordAt b (6 + 2)).isLt
      (hlen ▸ (wordAt b 10).isLt)
    rwa [hlen] at hwrites

theorem coils_consistent {r : WriteMultipleCoilsRequest}
    (h : WriteMultipleCoilsRequest.decode b 6 = .ok (r, p)) :
    SelfConsistent (.writeMultipleCoilsRequest r) ↔ Reconciled .writeMultipleCoilsRequest b := by
  have hreach := WriteMultipleCoilsRequest.decode_reaches h
  rw [WriteMultipleCoilsRequest.decode_eq rfl hreach] at h
  cases h
  have hvalues : (bytesAt b (6 + 7) (b.getD (6 + 6) 0).toNat).length = (b.getD 12 0).toNat :=
    length_bytesAt (by omega)
  constructor
  · rintro ⟨hlen, hwrites⟩
    exact ⟨hvalues.symm.trans hlen, endsInside_of_writesCoils hlen hwrites⟩
  · rintro ⟨hcount, hend⟩
    have hlen := hvalues.trans hcount
    exact ⟨hlen, writesCoils_of_endsInside (wordAt b 10).isLt hlen hend⟩

/-- The decoder takes the quantity from the values. -/
theorem readWrite_consistent {r : ReadWriteRegistersRequest}
    (h : ReadWriteRegistersRequest.decode b 6 = .ok (r, p)) :
    SelfConsistent (.readWriteRegistersRequest r) := by
  have hreach := ReadWriteRegistersRequest.decode_reaches h
  rw [ReadWriteRegistersRequest.decode_eq rfl hreach] at h
  cases h
  generalize hvs : wordsOf (bytesAt b (6 + 11) (2 * ((b.getD (6 + 10) 0).toNat / 2))) = values
  have hvalues : values.length < 65536 := by
    have hcount := (b.getD (6 + 10) 0).isLt
    rw [← hvs, length_wordsOf, length_bytesAt (by omega), Nat.mul_div_cancel_left _ (by decide)]
    omega
  have hnum : (BitVec.ofNat 16 values.length).toNat = values.length := by
    rw [BitVec.toNat_ofNat, Nat.mod_eq_of_lt hvalues]
  refine ⟨hnum.symm, ?_⟩
  have hwrites := writesRegisters_length (wordAt b (6 + 6)).isLt hvalues
  rw [← hnum] at hwrites
  exact hwrites

end Decoded

/-- A multiple write that was decoded is consistent exactly when its fields agree on the
wire; a read-write request always is. -/
theorem selfConsistent_iff (b : Buffer) (type : MessageType) (T : MessageKind) (m : Message)
    (h : pdu ⟨b, type⟩ T = .ok (some m)) : SelfConsistent m ↔ Reconciled T b := by
  obtain ⟨_, p, hdecode⟩ := decode_of_pdu h
  have hkind := MessageKind.decode_kind hdecode
  cases m with
  | writeMultipleRegistersRequest r =>
    subst hkind
    obtain ⟨r', hr, heq⟩ := wrap_ok hdecode
    cases heq
    exact registers_consistent hr
  | writeMultipleCoilsRequest r =>
    subst hkind
    obtain ⟨r', hr, heq⟩ := wrap_ok hdecode
    cases heq
    exact coils_consistent hr
  | readWriteRegistersRequest r =>
    subst hkind
    obtain ⟨r', hr, heq⟩ := wrap_ok hdecode
    cases heq
    exact iff_of_true (readWrite_consistent hr) trivial
  | _ =>
    subst hkind
    exact iff_of_true trivial trivial

/-- One register, with its value. -/
theorem selfConsistent_one_register :
    pdu ⟨[0, 1, 0, 0, 0, 9, 1, 16, 0, 0, 0, 1, 2, 0x12, 0x34], .request⟩
        .writeMultipleRegistersRequest =
        .ok (some (.writeMultipleRegistersRequest ⟨1, 0, 1, [0x1234]⟩)) ∧
      SelfConsistent (.writeMultipleRegistersRequest ⟨1, 0, 1, [0x1234]⟩) :=
  ⟨by decide, (selfConsistent_iff [0, 1, 0, 0, 0, 9, 1, 16, 0, 0, 0, 1, 2, 0x12, 0x34] .request
    .writeMultipleRegistersRequest _ (by decide)).mpr rfl⟩

/-- Two registers announced, with one value. -/
def missingValue : Buffer := [0, 1, 0, 0, 0, 9, 1, 16, 0, 0, 0, 2, 2, 0x12, 0x34]

/-- Eight coils, with the one byte that holds them. -/
def eightValues : Buffer := [0, 1, 0, 0, 0, 8, 1, 15, 0, 0, 0, 8, 1, 0xFF]

/-- Ten coils from address 7, with the two bytes that hold them. -/
def tenValues : Buffer := [0, 1, 0, 0, 0, 9, 1, 15, 0, 7, 0, 10, 2, 0xFF, 0x03]

/-- All are accepted. Writing the first two reads past their values; the bitmap of the
third, which has three bytes, is made with a mask from behind the table. -/
theorem inconsistent_requests_accepted :
    ofBuffer missingValue 15 .request = .ok ⟨missingValue, .request⟩ ∧
      pdu ⟨missingValue, .request⟩ .writeMultipleRegistersRequest =
        .ok (some (.writeMultipleRegistersRequest ⟨1, 0, 2, [0x1234]⟩)) ∧
      writeRegisters [0x1234] [0, 0, 0, 0] 0 2 = .error (.outOfRange 1 1) ∧
      ¬ SelfConsistent (.writeMultipleRegistersRequest ⟨1, 0, 2, [0x1234]⟩) ∧
      ofBuffer eightValues 14 .request = .ok ⟨eightValues, .request⟩ ∧
      pdu ⟨eightValues, .request⟩ .writeMultipleCoilsRequest =
        .ok (some (.writeMultipleCoilsRequest ⟨1, 0, 8, [0xFF]⟩)) ∧
      createRequestBitMap 0 8 = .ok [0xFF, 0] ∧
      legalAddress [0xFF, 0xFF] [0xFF, 0] 0 = .ok true ∧
      writeCoils [0, 0] [0xFF, 0] [0xFF] 0 = .error (.outOfRange 1 1) ∧
      ¬ SelfConsistent (.writeMultipleCoilsRequest ⟨1, 0, 8, [0xFF]⟩) ∧
      ofBuffer tenValues 15 .request = .ok ⟨tenValues, .request⟩ ∧
      pdu ⟨tenValues, .request⟩ .writeMultipleCoilsRequest =
        .ok (some (.writeMultipleCoilsRequest ⟨1, 7, 10, [0xFF, 0x03]⟩)) ∧
      createRequestBitMap 7 10 = .error (.outOfRange 9 9) ∧
      ¬ SelfConsistent (.writeMultipleCoilsRequest ⟨1, 7, 10, [0xFF, 0x03]⟩) := by
  have hcoils : writeCoils [0, 0] [0xFF, 0] [0xFF] 0 = .error (.outOfRange 1 1) := by decide
  have height : createRequestBitMap 0 8 = .ok [0xFF, 0] := by decide
  have hten : createRequestBitMap 7 10 = .error (.outOfRange 9 9) := by decide
  refine ⟨by decide, by decide, by decide, ?_, by decide, by decide, height, by decide, hcoils, ?_,
    by decide, by decide, hten, ?_⟩
  · intro hself
    exact absurd hself.1 (by decide)
  · rintro ⟨_, bm, hbm, hwrites⟩
    obtain rfl : [0xFF, 0] = bm := Except.ok.inj (height.symm.trans hbm)
    obtain ⟨mem', hrun⟩ := hwrites [0, 0] [0xFF, 0xFF] rfl (by decide)
    have hfault := hcoils.symm.trans hrun
    cases hfault
  · rintro ⟨_, bm, hbm, _⟩
    have hfault := hten.symm.trans hbm
    cases hfault

end Modbus.Server
