import Modbus.Core.Reach

/-! # Leftovers of earlier requests

A session reads every request into the same buffer of `MAX_APU_SIZE` bytes, and the
unit it builds keeps all of them. How far a decoder reads is decided by the message
type and its byte count, not by the number of bytes received. What it returns
therefore depends on the leftovers exactly when it reads past the received bytes,
with one exception: the low byte of a coil value makes no difference when the high
byte is not 0xFF. -/
namespace Modbus.TcpDataUnit
open Bytes Checked Walk

/-- A session buffer after a read: the received bytes and then leftovers. -/
structure Holds (received b : Buffer) : Prop where
  length : b.length = maxApuSize
  received : received <+: b

/-- Whatever the leftovers are, the unit is accepted or it is not, and `pdu` returns the
same for every type of request. -/
def DependsOnReceived (received : Buffer) : Prop :=
  ∀ b₁ b₂, Holds received b₁ → Holds received b₂ →
    ((∃ du, ofBuffer b₁ received.length .request = .ok du) ↔
        ∃ du, ofBuffer b₂ received.length .request = .ok du) ∧
      ∀ du₁ du₂, ofBuffer b₁ received.length .request = .ok du₁ →
        ofBuffer b₂ received.length .request = .ok du₂ →
        ∀ T : MessageKind, T.type = .request → ∃ r, du₁.pdu T = .ok r ∧ du₂.pdu T = .ok r

/-- The received bytes are enough for the decoder of `T`. -/
def Suffices (received : Buffer) (T : MessageKind) : Prop :=
  tcpHeaderSize + T.readSize received tcpHeaderSize ≤ received.length ∨
    (T = .writeSingleCoilRequest ∧ received.length = 11 ∧ received.getD 10 0 ≠ 0xFF)

/-! ## Enough bytes -/

section Enough
variable {received : Buffer}

theorem Holds.eq_append {b : Buffer} (h : Holds received b) :
    ∃ rest, b = received ++ rest ∧ received.length + rest.length = maxApuSize := by
  obtain ⟨rest, rfl⟩ := h.received
  refine ⟨rest, rfl, ?_⟩
  rw [← h.length, List.length_append]

/-- The code byte was received. -/
theorem selects_received {T : MessageKind} (hlo : tcpHeaderSize + minPduSize ≤ received.length)
    (rest : Buffer) :
    Selects ⟨received ++ rest, .request⟩ T ↔ Selects ⟨received, .request⟩ T := by
  have hcode : (received ++ rest)[7]? = received[7]? := by
    apply List.getElem?_append_left
    unfold tcpHeaderSize minPduSize at hlo
    omega
  unfold Selects
  rw [hcode]

/-- Whether the unit is accepted is decided by the received bytes. -/
theorem accepts_received (hlo : tcpHeaderSize + minPduSize ≤ received.length)
    (hhi : received.length ≤ maxApuSize) (rest : Buffer) (du : TcpDataUnit) :
    ofBuffer (received ++ rest) received.length .request = .ok du ↔
      tcpHeaderSize + lengthField received ≤ received.length ∧
        du = ⟨received ++ rest, .request⟩ := by
  constructor
  · intro h
    have hle := lengthField_le h
    rw [lengthField_append (Nat.le_of_add_right_le hlo)] at hle
    exact ⟨hle, (ofBuffer_ok_iff.mp h).2.2.2⟩
  · rintro ⟨hle, rfl⟩
    exact ofBuffer_front .request rest (Nat.lt_of_lt_of_le (by decide) hlo) hhi hle

/-- A coil is off when the high byte of its value is not 0xFF. -/
theorem word_ne_on {hi : Byte} (lo : Byte) (h : hi ≠ 0xFF) : word hi lo ≠ coilStatusOn := by
  intro heq
  apply h
  have hhi := congrArg hiByte heq
  rwa [hiByte_word] at hhi

theorem decode_received {T : MessageKind} (h : Suffices received T) :
    ∃ m, ∀ rest, received.length + rest.length = maxApuSize →
      ∃ p, T.decode (received ++ rest) tcpHeaderSize = .ok (m, p) := by
  rcases h with hfits | ⟨rfl, hlen, hoff⟩
  · obtain ⟨m, hm⟩ := (T.readsAt hfits).append
    exact ⟨m, fun rest _ => ⟨_, hm rest⟩⟩
  · refine ⟨.writeSingleCoilRequest ⟨received.getD 6 0, wordAt received 8, false⟩, ?_⟩
    intro rest hrest
    have hlong : tcpHeaderSize + 6 ≤ (received ++ rest).length := by
      rw [List.length_append, hrest]
      decide
    have hget : ∀ i < 11, (received ++ rest).getD i 0 = received.getD i 0 :=
      fun i hi => List.getD_append _ _ _ _ (hlen ▸ hi)
    have hvalue : (wordAt (received ++ rest) 10 == coilStatusOn) = false := by
      rw [wordAt, hget 10 (by decide), beq_eq_false_iff_ne]
      exact word_ne_on _ hoff
    have hdecode := CoilValue.decode_eq hlong
    rw [show tcpHeaderSize + 4 = 10 from rfl, hvalue, show tcpHeaderSize + 2 = 8 from rfl, wordAt,
      hget 8 (by decide), hget 9 (by decide), hget _ (by decide)] at hdecode
    exact ⟨_, by rw [MessageKind.decode, walk_bind_ok]; exact ⟨_, _, hdecode, rfl⟩⟩

end Enough

/-! ## Leftovers that show -/

/-- Leftovers of one value. -/
def leftovers (received : Buffer) (x : Byte) : Buffer :=
  received ++ List.replicate (maxApuSize - received.length) x

/-- A decoder that returns the same for any leftovers. -/
def Agrees {α : Type} (received : Buffer) (w : Decoder α) : Prop :=
  ∀ b₁ b₂, Holds received b₁ → Holds received b₂ →
    ∃ a p₁ p₂, w b₁ tcpHeaderSize = .ok (a, p₁) ∧ w b₂ tcpHeaderSize = .ok (a, p₂)

theorem Agrees.eq {α : Type} {received b₁ b₂ : Buffer} {w : Decoder α} {a₁ a₂ : α} {p₁ p₂ : Nat}
    (h : Agrees received w) (hb₁ : Holds received b₁) (hb₂ : Holds received b₂)
    (h₁ : w b₁ tcpHeaderSize = .ok (a₁, p₁)) (h₂ : w b₂ tcpHeaderSize = .ok (a₂, p₂)) :
    a₁ = a₂ := by
  obtain ⟨a, q₁, q₂, hw₁, hw₂⟩ := h b₁ b₂ hb₁ hb₂
  rw [h₁] at hw₁
  rw [h₂] at hw₂
  cases hw₁
  cases hw₂
  rfl

/-- The decoder of a message type wraps the one of its layout. -/
theorem Agrees.layout {α : Type} {received : Buffer} {w : Decoder α} (f : α → Message)
    (hf : ∀ {a a'}, f a = f a' → a = a') (h : Agrees received (do return f (← w))) :
    Agrees received w := by
  intro b₁ b₂ hb₁ hb₂
  obtain ⟨m, p₁, p₂, h₁, h₂⟩ := h b₁ b₂ hb₁ hb₂
  obtain ⟨a, ha, rfl⟩ := wrap_ok h₁
  obtain ⟨a', ha', heq⟩ := wrap_ok h₂
  rw [← hf heq] at ha'
  exact ⟨a, p₁, p₂, ha, ha'⟩

section Leak
variable {received : Buffer} (hhi : received.length ≤ maxApuSize)
include hhi

theorem holds_leftovers (x : Byte) : Holds received (leftovers received x) := by
  refine ⟨?_, List.prefix_append _ _⟩
  rw [leftovers, List.length_append, List.length_replicate]
  omega

theorem getD_leftovers {i : Nat} (x : Byte) (hi : received.length ≤ i) (hlt : i < maxApuSize) :
    (leftovers received x).getD i 0 = x := by
  rw [leftovers, List.getD_append_right _ _ _ _ hi, List.getD_replicate _ (by omega)]

/-- A word whose low byte was not received shows it. -/
theorem wordAt_leftovers {i : Nat} (hi : received.length ≤ i + 1) (hlt : i + 1 < maxApuSize) :
    wordAt (leftovers received 0) i ≠ wordAt (leftovers received 0xFF) i := by
  intro heq
  have hlo := congrArg loByte heq
  rw [wordAt, wordAt, loByte_word, loByte_word, getD_leftovers hhi 0 hi hlt,
    getD_leftovers hhi 0xFF hi hlt] at hlo
  cases hlo

/-- So does data whose last byte was not received. -/
theorem bytesAt_leftovers (pos n : Nat) (hn : 0 < n) (hi : received.length < pos + n)
    (hlt : pos + n ≤ maxApuSize) :
    bytesAt (leftovers received 0) pos n ≠ bytesAt (leftovers received 0xFF) pos n := by
  intro heq
  have hlast := congrArg (fun bs => bs.getD (n - 1) 0) heq
  have hget : ∀ x : Byte, (bytesAt (leftovers received x) pos n).getD (n - 1) 0 = x := by
    intro x
    have hbyte := getD_leftovers hhi x (i := pos + (n - 1)) (by omega) (by omega)
    rw [List.getD_eq_getElem?_getD] at hbyte ⊢
    rwa [bytesAt, List.getElem?_take_of_lt (by omega), List.getElem?_drop]
  rw [hget, hget] at hlast
  cases hlast

/-- A layout that ends with a word was received up to that word. -/
theorem word_received {α : Type} {w : Decoder α} {i : Nat} (field : α → Word)
    (hi : i + 1 < maxApuSize)
    (hw : ∀ b, b.length = maxApuSize →
      ∃ a p, w b tcpHeaderSize = .ok (a, p) ∧ field a = wordAt b i)
    (h : Agrees received w) : i + 2 ≤ received.length := by
  have hb := holds_leftovers hhi
  obtain ⟨a₁, p₁, h₁, hf₁⟩ := hw _ (hb 0).length
  obtain ⟨a₂, p₂, h₂, hf₂⟩ := hw _ (hb 0xFF).length
  have heq := h.eq (hb 0) (hb 0xFF) h₁ h₂
  refine Nat.le_of_not_lt fun hlt => wordAt_leftovers hhi (Nat.le_of_lt_succ hlt) hi ?_
  rw [← hf₁, ← hf₂, heq]

/-- A layout whose fixed bytes end with a count at `c` was received with all the data
it counts. -/
theorem data_received {α : Type} {w : Decoder α} (c : Nat) (size : Byte → Nat)
    (data : α → Buffer) (hbig : maxApuSize < tcpHeaderSize + (c + 1 + size 0xFF))
    (hreach : ∀ {b r}, w b tcpHeaderSize = .ok r →
      tcpHeaderSize + (c + 1 + size (b.getD (tcpHeaderSize + c) 0)) ≤ b.length)
    (hw : ∀ {b}, tcpHeaderSize + (c + 1 + size (b.getD (tcpHeaderSize + c) 0)) ≤ b.length →
      ∃ a p, w b tcpHeaderSize = .ok (a, p) ∧
        data a = bytesAt b (tcpHeaderSize + (c + 1)) (size (b.getD (tcpHeaderSize + c) 0)))
    (h : Agrees received w) :
    tcpHeaderSize + (c + 1 + size (received.getD (tcpHeaderSize + c) 0)) ≤ received.length := by
  have hb := holds_leftovers hhi
  obtain ⟨_, _, _, hzero, hones⟩ := h _ _ (hb 0) (hb 0xFF)
  have hreach₁ := hreach hzero
  have hreach₂ := hreach hones
  obtain ⟨a₁, p₁, h₁, hd₁⟩ := hw hreach₁
  obtain ⟨a₂, p₂, h₂, hd₂⟩ := hw hreach₂
  rw [(hb 0).length] at hreach₁
  rw [(hb 0xFF).length] at hreach₂
  -- a count that was not received may be 255, which is too much
  have hcount : tcpHeaderSize + c < received.length := by
    refine Nat.lt_of_not_le fun hle => ?_
    rw [getD_leftovers hhi 0xFF hle (by omega)] at hreach₂
    omega
  have hget : ∀ x, (leftovers received x).getD (tcpHeaderSize + c) 0 =
      received.getD (tcpHeaderSize + c) 0 := fun x => List.getD_append _ _ _ _ hcount
  rw [hget] at hreach₁ hd₁ hd₂
  refine Nat.le_of_not_lt fun hlt => ?_
  refine bytesAt_leftovers hhi (tcpHeaderSize + (c + 1))
    (size (received.getD (tcpHeaderSize + c) 0)) ?_ ?_ ?_ ?_
  · omega
  · omega
  · omega
  · rw [← hd₁, ← hd₂, h.eq (hb 0) (hb 0xFF) h₁ h₂]

/-- A coil value was received, or enough of it to be off. -/
theorem coil_received (hlo : tcpHeaderSize + minPduSize ≤ received.length)
    (h : Agrees received CoilValue.decode) :
    12 ≤ received.length ∨ (received.length = 11 ∧ received.getD 10 0 ≠ 0xFF) := by
  have hb := holds_leftovers hhi
  have hvalue : ∀ {b₁ b₂}, Holds received b₁ → Holds received b₂ →
      (wordAt b₁ 10 == coilStatusOn) = (wordAt b₂ 10 == coilStatusOn) := by
    intro b₁ b₂ hb₁ hb₂
    have heq := h.eq hb₁ hb₂ (CoilValue.decode_eq (by rw [hb₁.length]; decide))
      (CoilValue.decode_eq (by rw [hb₂.length]; decide))
    exact congrArg CoilValue.value heq
  have hword : ∀ {b : Buffer} {hi lo : Byte}, b.getD 10 0 = hi → b.getD 11 0 = lo →
      wordAt b 10 = word hi lo := by
    rintro b hi lo rfl rfl
    rfl
  unfold tcpHeaderSize minPduSize at hlo
  rcases Nat.lt_or_ge received.length 12 with hlt | hge
  · rcases Nat.lt_or_ge received.length 11 with hten | heleven
    · -- nothing of the value was received, so leftovers can turn the coil on
      have hlong : (received ++ [0xFF]).length = 11 := by
        rw [List.length_append, List.length_singleton]
        omega
      have hfits : (received ++ [0xFF]).length ≤ maxApuSize := by
        rw [hlong]
        decide
      have hon : Holds received (leftovers (received ++ [0xFF]) 0) :=
        ⟨(holds_leftovers hfits 0).length,
          (List.prefix_append _ _).trans (List.prefix_append _ _)⟩
      have hff : (leftovers (received ++ [0xFF]) 0).getD 10 0 = 0xFF := by
        rw [leftovers, List.getD_append _ _ _ _ (by omega),
          List.getD_append_right _ _ _ _ (by omega), show 10 - received.length = 0 by omega]
        rfl
      have hsame := hvalue (hb 0) hon
      rw [hword (getD_leftovers hhi 0 (by omega) (by decide))
        (getD_leftovers hhi 0 (by omega) (by decide)),
        hword hff (getD_leftovers hfits 0 (by omega) (by decide))] at hsame
      exact absurd hsame (by decide)
    · refine .inr ⟨by omega, fun hff => ?_⟩
      have hhigh : ∀ x, (leftovers received x).getD 10 0 = 0xFF :=
        fun x => (List.getD_append _ _ _ _ (by omega)).trans hff
      have hlow : ∀ x, (leftovers received x).getD 11 0 = x :=
        fun x => getD_leftovers hhi x (by omega) (by decide)
      have hsame := hvalue (hb 0) (hb 0xFF)
      rw [hword (hhigh 0) (hlow 0), hword (hhigh 0xFF) (hlow 0xFF)] at hsame
      revert hsame
      decide
  · exact .inl hge

/-- A decoder that returns the same for any leftovers had enough bytes. -/
theorem suffices_of_agrees {T : MessageKind}
    (hlo : tcpHeaderSize + minPduSize ≤ received.length) (hT : T.type = .request)
    (h : Agrees received T.decode) : Suffices received T := by
  have hrange : Agrees received AddressRange.decode → 12 ≤ received.length :=
    word_received hhi (i := 10) AddressRange.length (by decide) fun b hb =>
      ⟨_, _, AddressRange.decode_eq (by rw [hb]; decide), rfl⟩
  cases T with
  | readCoilsRequest => exact .inl (hrange (h.layout .readCoilsRequest Message.readCoilsRequest.inj))
  | readDiscreteInputsRequest =>
    exact .inl (hrange (h.layout .readDiscreteInputsRequest Message.readDiscreteInputsRequest.inj))
  | readHoldingRegistersRequest =>
    exact .inl (hrange
      (h.layout .readHoldingRegistersRequest Message.readHoldingRegistersRequest.inj))
  | readInputRegistersRequest =>
    exact .inl (hrange (h.layout .readInputRegistersRequest Message.readInputRegistersRequest.inj))
  | writeSingleRegisterRequest =>
    refine .inl (word_received hhi (i := 10) RegisterValue.value (by decide) (fun b hb => ?_)
      (h.layout .writeSingleRegisterRequest Message.writeSingleRegisterRequest.inj))
    exact ⟨_, _, RegisterValue.decode_eq (by rw [hb]; decide), rfl⟩
  | maskWriteRegisterRequest =>
    refine .inl (word_received hhi (i := 12) RegisterMask.orMask (by decide) (fun b hb => ?_)
      (h.layout .maskWriteRegisterRequest Message.maskWriteRegisterRequest.inj))
    exact ⟨_, _, RegisterMask.decode_eq (by rw [hb]; decide), rfl⟩
  | writeSingleCoilRequest =>
    rcases coil_received hhi hlo
      (h.layout .writeSingleCoilRequest Message.writeSingleCoilRequest.inj) with hall | hoff
    · exact .inl hall
    · exact .inr ⟨rfl, hoff⟩
  | writeMultipleCoilsRequest =>
    refine .inl (data_received hhi 6 BitVec.toNat
      WriteMultipleCoilsRequest.values (by decide) WriteMultipleCoilsRequest.decode_reaches
      (fun hb => ?_) (h.layout .writeMultipleCoilsRequest Message.writeMultipleCoilsRequest.inj))
    exact ⟨_, _, WriteMultipleCoilsRequest.decode_eq rfl hb, rfl⟩
  | writeMultipleRegistersRequest =>
    refine .inl (data_received hhi 6 (fun c => 2 * (c.toNat / 2))
      (fun r => bytesOf r.values) (by decide) WriteMultipleRegistersRequest.decode_reaches
      (fun hb => ?_)
      (h.layout .writeMultipleRegistersRequest Message.writeMultipleRegistersRequest.inj))
    exact ⟨_, _, WriteMultipleRegistersRequest.decode_eq rfl hb,
      bytesOf_wordsOf _ _ (length_bytesAt (by omega))⟩
  | readWriteRegistersRequest =>
    refine .inl (data_received hhi 10 (fun c => 2 * (c.toNat / 2))
      (fun r => bytesOf r.values) (by decide) ReadWriteRegistersRequest.decode_reaches
      (fun hb => ?_) (h.layout .readWriteRegistersRequest Message.readWriteRegistersRequest.inj))
    exact ⟨_, _, ReadWriteRegistersRequest.decode_eq rfl hb,
      bytesOf_wordsOf _ _ (length_bytesAt (by omega))⟩
  | _ => cases hT

end Leak

/-! ## Both directions -/

/-- What a unit returns for a request type that it holds was decoded. -/
theorem exists_decode_of_pdu {du : TcpDataUnit} {T : MessageKind} {r : Option Message}
    (hsel : du.Selects T) (h : du.pdu T = .ok r) :
    ∃ m p, r = some m ∧ T.decode du.buffer tcpHeaderSize = .ok (m, p) := by
  cases r with
  | none => exact absurd h (pdu_ne_none hsel)
  | some m =>
    obtain ⟨_, p, hdecode⟩ := decode_of_pdu h
    exact ⟨m, p, rfl, hdecode⟩

/-- A decoded request depends only on the received bytes exactly when, if the unit is
accepted, they are enough for the decoder of the request that its code byte names. -/
theorem dependsOnReceived_iff (received : Buffer)
    (hlo : tcpHeaderSize + minPduSize ≤ received.length) (hhi : received.length ≤ maxApuSize) :
    DependsOnReceived received ↔
      (tcpHeaderSize + lengthField received ≤ received.length →
        ∀ T, Selects ⟨received, .request⟩ T → Suffices received T) := by
  have haccepts := accepts_received hlo hhi
  constructor
  · intro hdep hfield T hsel
    refine suffices_of_agrees hhi hlo hsel.1.symm fun b₁ b₂ hb₁ hb₂ => ?_
    obtain ⟨_, hsame⟩ := hdep b₁ b₂ hb₁ hb₂
    obtain ⟨rest₁, rfl, _⟩ := hb₁.eq_append
    obtain ⟨rest₂, rfl, _⟩ := hb₂.eq_append
    obtain ⟨r, hr₁, hr₂⟩ := hsame _ _ ((haccepts rest₁ _).mpr ⟨hfield, rfl⟩)
      ((haccepts rest₂ _).mpr ⟨hfield, rfl⟩) T hsel.1.symm
    obtain ⟨m, p₁, rfl, hd₁⟩ := exists_decode_of_pdu ((selects_received hlo rest₁).mpr hsel) hr₁
    obtain ⟨m', p₂, heq, hd₂⟩ := exists_decode_of_pdu ((selects_received hlo rest₂).mpr hsel) hr₂
    cases heq
    exact ⟨m, p₁, p₂, hd₁, hd₂⟩
  · intro hall b₁ b₂ hb₁ hb₂
    obtain ⟨rest₁, rfl, hrest₁⟩ := hb₁.eq_append
    obtain ⟨rest₂, rfl, hrest₂⟩ := hb₂.eq_append
    refine ⟨⟨fun ⟨du, h⟩ => ?_, fun ⟨du, h⟩ => ?_⟩, fun du₁ du₂ h₁ h₂ T _ => ?_⟩
    · exact ⟨_, (haccepts rest₂ _).mpr ⟨((haccepts rest₁ du).mp h).1, rfl⟩⟩
    · exact ⟨_, (haccepts rest₁ _).mpr ⟨((haccepts rest₂ du).mp h).1, rfl⟩⟩
    · obtain ⟨hfield, rfl⟩ := (haccepts rest₁ du₁).mp h₁
      obtain ⟨_, rfl⟩ := (haccepts rest₂ du₂).mp h₂
      by_cases hsel : Selects ⟨received, .request⟩ T
      · obtain ⟨m, hm⟩ := decode_received (hall hfield T hsel)
        obtain ⟨p₁, hd₁⟩ := hm rest₁ hrest₁
        obtain ⟨p₂, hd₂⟩ := hm rest₂ hrest₂
        refine ⟨some m, ?_, ?_⟩
        · rw [pdu_of_selects ((selects_received hlo rest₁).mpr hsel), hd₁]
          rfl
        · rw [pdu_of_selects ((selects_received hlo rest₂).mpr hsel), hd₂]
          rfl
      · refine ⟨none, ?_, ?_⟩
        · exact pdu_of_not_selects fun h => hsel ((selects_received hlo rest₁).mp h)
        · exact pdu_of_not_selects fun h => hsel ((selects_received hlo rest₂).mp h)

/-- A read request of twelve bytes. -/
theorem dependsOnReceived_read_coils :
    DependsOnReceived [0, 1, 0, 0, 0, 6, 1, 1, 0, 0, 0, 8] := by
  refine (dependsOnReceived_iff [0, 1, 0, 0, 0, 6, 1, 1, 0, 0, 0, 8] (by decide) (by decide)).mpr ?_
  intro _ T hsel
  obtain ⟨htype, code, hcode, hmatch⟩ := hsel
  cases hcode
  have hT : T = .readCoilsRequest :=
    MessageKind.Matches.unique (U := .readCoilsRequest) htype.symm hmatch rfl
  subst hT
  exact .inl (by decide)

/-- A read request that ends behind its address, and says so in its length field. -/
def shortRead : Buffer := [0, 1, 0, 0, 0, 4, 1, 1, 0, 0]

/-- The quantity comes from the leftovers. -/
theorem short_read_leaks :
    ofBuffer (leftovers shortRead 0) 10 .request = .ok ⟨leftovers shortRead 0, .request⟩ ∧
      ofBuffer (leftovers shortRead 0xFF) 10 .request =
        .ok ⟨leftovers shortRead 0xFF, .request⟩ ∧
      pdu ⟨leftovers shortRead 0, .request⟩ .readCoilsRequest =
        .ok (some (.readCoilsRequest ⟨1, 0, 0⟩)) ∧
      pdu ⟨leftovers shortRead 0xFF, .request⟩ .readCoilsRequest =
        .ok (some (.readCoilsRequest ⟨1, 0, 0xFFFF⟩)) ∧
      ¬ DependsOnReceived shortRead := by
  have h₁ : ofBuffer (leftovers shortRead 0) 10 .request =
      .ok ⟨leftovers shortRead 0, .request⟩ := by decide +kernel
  have h₂ : ofBuffer (leftovers shortRead 0xFF) 10 .request =
      .ok ⟨leftovers shortRead 0xFF, .request⟩ := by decide +kernel
  have hp₁ : pdu ⟨leftovers shortRead 0, .request⟩ .readCoilsRequest =
      .ok (some (.readCoilsRequest ⟨1, 0, 0⟩)) := by decide +kernel
  have hp₂ : pdu ⟨leftovers shortRead 0xFF, .request⟩ .readCoilsRequest =
      .ok (some (.readCoilsRequest ⟨1, 0, 0xFFFF⟩)) := by decide +kernel
  refine ⟨h₁, h₂, hp₁, hp₂, fun hdep => ?_⟩
  obtain ⟨_, hsame⟩ := hdep _ _ (holds_leftovers (by decide) 0) (holds_leftovers (by decide) 0xFF)
  obtain ⟨r, hr₁, hr₂⟩ := hsame _ _ h₁ h₂ .readCoilsRequest rfl
  rw [hp₁] at hr₁
  rw [hp₂, ← hr₁] at hr₂
  revert hr₂
  decide

end Modbus.TcpDataUnit
