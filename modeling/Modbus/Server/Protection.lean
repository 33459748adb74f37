import Modbus.Server.RequestHandler

/-! # Protected memory

The masks of valid addresses guard the memory: whatever is requested, a call changes
no coil and no holding register whose bit is clear, none of the inputs, no size and no
mask (`Answers.protects`). The access check grants a block as a whole, so this rests
on the writes: a block write of coils sets what the request's bitmap marks, and of
registers what the request counts. -/
namespace Modbus.Server
open Bytes Checked TcpDataUnit

/-- The registers of a memory before and after writes from `start` on. -/
def SameOutside (mem mem' : Buffer) (start n : Nat) : Prop :=
  mem'.length = mem.length ∧
    ∀ a, a < start ∨ start + n ≤ a → registerAt mem' a = registerAt mem a

/-- Storing the two bytes of a register. -/
theorem sameOutside_set {mem : Buffer} {a : Nat} (v : Word) (ha : 2 * a + 1 < mem.length) :
    SameOutside mem ((mem.set (2 * a) (hiByte v)).set (2 * a + 1) (loByte v)) a 1 := by
  refine ⟨by rw [List.length_set, List.length_set], fun b hb => ?_⟩
  rw [registerAt_set v ha, Function.update_of_ne (by omega)]

theorem writeRegister_outside {v : Word} {mem mem' : Buffer} {a : Nat}
    (h : writeRegister v mem a = .ok mem') : SameOutside mem mem' a 1 := by
  simp only [writeRegister, bind_ok, int_ok, set_ok] at h
  obtain ⟨_, ⟨_, rfl⟩, _, ⟨_, rfl⟩, _, ⟨_, rfl⟩, hlo, rfl⟩ := h
  rw [List.length_set] at hlo
  rw [Nat.mul_comm a 2] at hlo ⊢
  exact sameOutside_set v hlo

/-- A block write that did not fault stayed inside the registers it was told to write. -/
theorem writeRegisters_outside {vs : List Word} {mem mem' : Buffer} {a n : Nat}
    (h : writeRegisters vs mem a n = .ok mem') : SameOutside mem mem' a n := by
  simp only [writeRegisters, bind_ok, int_ok] at h
  obtain ⟨_, ⟨_, rfl⟩, hloop⟩ := h
  refine loop_invariant (P := fun i m => SameOutside mem m a i) (Nat.zero_le n)
    ⟨rfl, fun _ _ => rfl⟩ ?_ hloop
  intro i m m' _ _ hm hbody
  simp only [bind_ok, int_ok, get_ok, set_ok] at hbody
  obtain ⟨_, ⟨_, rfl⟩, v, _, _, ⟨_, rfl⟩, _, ⟨_, rfl⟩, hlo, rfl⟩ := hbody
  rw [List.length_set, show 2 * i + a * 2 = 2 * (a + i) by omega] at hlo
  rw [show 2 * i + a * 2 = 2 * (a + i) by omega]
  obtain ⟨hlen, hsame⟩ := sameOutside_set v hlo
  refine ⟨hlen.trans hm.1, fun b hb => ?_⟩
  rw [hsame b (by omega), hm.2 b (by omega)]

/-- What the coils of a memory have in common before and after a granted write. -/
theorem writeCoils_granted {mask mem mem' bm values : Buffer} {start a : Nat}
    (hlegal : legalAddress mask bm start = .ok true)
    (h : writeCoils mem bm values start = .ok mem') (ha : bitAt mask a = false) :
    bitAt mem' a = bitAt mem a := by
  obtain ⟨_, _, hmarked⟩ := legalAddress_iff.mp hlegal
  rw [bitAt_writeCoils h, if_neg]
  rintro ⟨hlo, hbit⟩
  have hallowed := hmarked _ hbit
  rw [Nat.add_sub_cancel' hlo, ha] at hallowed
  cases hallowed

theorem lt_length_of_writeCoil {mem mem' : Buffer} {status : Bool} {c : Nat}
    (h : writeCoil mem status c = .ok mem') : c / 8 < mem.length := by
  unfold writeCoil at h
  cases status with
  | true =>
    obtain ⟨x, hx, _⟩ := modify_ok.mp h
    exact (List.getElem?_eq_some_iff.mp hx).1
  | false =>
    obtain ⟨x, hx, _⟩ := modify_ok.mp h
    exact (List.getElem?_eq_some_iff.mp hx).1

/-- A single write that did not fault changed one coil. -/
theorem writeCoil_outside {mem mem' : Buffer} {status : Bool} {c : Nat}
    (h : writeCoil mem status c = .ok mem') :
    mem'.length = mem.length ∧ ∀ a, a ≠ c → bitAt mem' a = bitAt mem a := by
  obtain ⟨m, hm, hlen, hview⟩ := writeCoil_total mem status c (lt_length_of_writeCoil h)
  obtain rfl : m = mem' := Except.ok.inj (hm.symm.trans h)
  refine ⟨hlen, fun a ha => ?_⟩
  rw [hview, Function.update_of_ne ha]

/-! ## What the masks guard -/

/-- What two states of the handler have in common when the masks were respected in
between. -/
structure Protected (h h' : RequestHandler) : Prop where
  validAddresses : h'.validAddresses = h.validAddresses
  length : ∀ row, (h'.memorySpace row).length = (h.memorySpace row).length
  coils : ∀ a, bitAt (h.validAddresses .coils) a = false →
    bitAt (h'.memorySpace .coils) a = bitAt (h.memorySpace .coils) a
  holdingRegisters : ∀ a, bitAt (h.validAddresses .holdingRegisters) a = false →
    registerAt (h'.memorySpace .holdingRegisters) a = registerAt (h.memorySpace .holdingRegisters) a
  discreteInputs : h'.memorySpace .discreteInputs = h.memorySpace .discreteInputs
  inputRegisters : h'.memorySpace .inputRegisters = h.memorySpace .inputRegisters

theorem Protected.refl (h : RequestHandler) : Protected h h :=
  ⟨rfl, fun _ => rfl, fun _ _ => rfl, fun _ _ => rfl, rfl, rfl⟩

theorem Protected.trans {h₁ h₂ h₃ : RequestHandler} (h : Protected h₁ h₂) (h' : Protected h₂ h₃) :
    Protected h₁ h₃ where
  validAddresses := h'.validAddresses.trans h.validAddresses
  length row := (h'.length row).trans (h.length row)
  coils a ha := by
    rw [h'.coils a (by rw [h.validAddresses, ha]), h.coils a ha]
  holdingRegisters a ha := by
    rw [h'.holdingRegisters a (by rw [h.validAddresses, ha]), h.holdingRegisters a ha]
  discreteInputs := h'.discreteInputs.trans h.discreteInputs
  inputRegisters := h'.inputRegisters.trans h.inputRegisters

theorem Protected.store_coils {h : RequestHandler} {data : Buffer}
    (hlen : data.length = (h.memorySpace .coils).length)
    (hsame : ∀ a, bitAt (h.validAddresses .coils) a = false →
      bitAt data a = bitAt (h.memorySpace .coils) a) : Protected h (h.store .coils data) where
  validAddresses := rfl
  length row := by
    rw [RequestHandler.store_memorySpace]
    split
    · next hrow => rw [hlen, hrow]
    · rfl
  coils := hsame
  holdingRegisters _ _ := rfl
  discreteInputs := rfl
  inputRegisters := rfl

theorem Protected.store_registers {h : RequestHandler} {data : Buffer} {start n : Nat}
    (hallowed : ∀ i < n, bitAt (h.validAddresses .holdingRegisters) (start + i) = true)
    (hsame : SameOutside (h.memorySpace .holdingRegisters) data start n) :
    Protected h (h.store .holdingRegisters data) where
  validAddresses := rfl
  length row := by
    rw [RequestHandler.store_memorySpace]
    split
    · next hrow => rw [hsame.1, hrow]
    · rfl
  coils _ _ := rfl
  holdingRegisters a ha := by
    refine hsame.2 a (Decidable.byContradiction fun hin => ?_)
    have hbit := hallowed (a - start) (by omega)
    rw [Nat.add_sub_cancel' (by omega), ha] at hbit
    cases hbit
  discreteInputs := rfl
  inputRegisters := rfl

/-- A branch that was granted respects the masks. -/
theorem Request.serve_protects {h : RequestHandler} {r : Request} {unitId : Byte} {bm data : Buffer}
    {m : Message} (hbm : createRequestBitMap r.startAddress r.length = .ok bm)
    (hlegal : legalAddress (h.validAddresses r.dataRow) bm r.startAddress = .ok true)
    (hserve : r.serve unitId bm (h.memorySpace r.dataRow) = .ok (m, data)) :
    Protected h (h.store r.dataRow data) := by
  have hallowed : ∀ i < r.length, bitAt (h.validAddresses r.dataRow) (r.startAddress + i) = true :=
    fun i hi => Accepted.allowed ⟨bm, hbm, hlegal⟩ hi
  cases r with
  | readDiscreteInputs r | readCoils r | readHoldingRegisters r | readInputRegisters r =>
    obtain ⟨_, _, hret⟩ := bind_ok.mp hserve
    cases hret
    rw [RequestHandler.store_self]
    exact .refl h
  | writeSingleCoil r =>
    obtain ⟨data', hwrite, hret⟩ := bind_ok.mp hserve
    cases hret
    cases hvalue : r.value with
    | false =>
      rw [hvalue] at hwrite
      cases hwrite
      rw [RequestHandler.store_self]
      exact .refl h
    | true =>
      rw [hvalue, if_pos rfl] at hwrite
      obtain ⟨hlen, hsame⟩ := writeCoil_outside hwrite
      refine .store_coils hlen fun a ha => hsame a ?_
      rintro rfl
      exact Bool.false_ne_true (ha.symm.trans (hallowed 0 Nat.one_pos))
  | writeMultipleCoils r =>
    obtain ⟨data', hwrite, hret⟩ := bind_ok.mp hserve
    cases hret
    exact .store_coils (length_writeCoils hwrite) fun a ha => writeCoils_granted hlegal hwrite ha
  | writeSingleRegister r =>
    obtain ⟨data', hwrite, hret⟩ := bind_ok.mp hserve
    cases hret
    exact .store_registers hallowed (writeRegister_outside hwrite)
  | writeMultipleRegisters r =>
    obtain ⟨data', hwrite, hret⟩ := bind_ok.mp hserve
    cases hret
    exact .store_registers hallowed (writeRegisters_outside hwrite)

theorem Answers.protects {h h' : RequestHandler} {request response : TcpDataUnit}
    {code : FunctionCode} {t : Word} {unitId : Byte}
    (hanswers : Answers h request code t unitId response h') : Protected h h' := by
  cases hanswers with
  | illegalFunction | deviceFailure | illegalDataAddress => exact .refl h
  | served branch decoded bitmap granted serves =>
    exact Request.serve_protects bitmap granted serves

end Modbus.Server
