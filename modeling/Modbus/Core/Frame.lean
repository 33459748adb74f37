import Mathlib.Data.List.GetD
import Modbus.Core.Layout

/-! # Frames

The unit built from a message holds its header and its serialized bytes and
nothing else (`ofMessage_eq`). A received buffer is accepted when the low 32
bits of the data length, read as a signed number, are positive and cover the
length field (`ofBuffer_ok_iff`); the constructor for a header and a payload does
not narrow the length and looks at the protocol id as well, and
`receiversAgree_iff` says where the two decide alike. `pdu` decodes exactly when
the buffer's code byte and the unit's type are those of the message type asked for
(`Selects`); no two message types share both. -/
namespace Modbus
open Bytes Checked Walk

namespace TcpDataUnit

/-- The bytes of `tcp_data_unit(t, m)`. -/
def frame (t : Word) (m : Message) : Buffer := header t m.size ++ m.serialize

theorem length_frame (t : Word) (m : Message) : (frame t m).length = tcpHeaderSize + m.size := by
  simp [frame, header, m.length_serialize, tcpHeaderSize]
  omega

/-- Building a unit stays inside the buffer it resized and fills all of it. -/
theorem ofMessage_eq (t : Word) (m : Message) :
    ofMessage t m = .ok ⟨frame t m, m.type⟩ := by
  have hbuf : List.replicate (tcpHeaderSize + m.size) (0 : Byte) =
      [] ++ List.replicate tcpHeaderSize 0 ++ List.replicate m.size 0 := by
    rw [List.nil_append, List.replicate_add]
  have hhead : store (List.replicate (tcpHeaderSize + m.size) 0) 0 (header t m.size) =
      .ok ([] ++ header t m.size ++ List.replicate m.size 0) := by
    rw [hbuf]
    exact store_eq (header t m.size) [] _ _ rfl
  have hbody : store (header t m.size ++ List.replicate m.size 0 ++ []) tcpHeaderSize m.serialize =
      .ok (header t m.size ++ m.serialize ++ []) :=
    store_eq m.serialize (header t m.size) _ [] (by rw [List.length_replicate, m.length_serialize])
  rw [List.append_nil, List.append_nil] at hbody
  simp only [ofMessage, hhead, ok_bind, List.nil_append, hbody, frame, pure_eq_ok]

/-- The length field of a header, as the receivers read it. -/
def lengthField (b : Buffer) : Nat := (b.getD 4 0).toNat <<< 8 + (b.getD 5 0).toNat

theorem lengthField_header (t : Word) (n : Nat) (rest : Buffer) :
    lengthField (header t n ++ rest) = n % 65536 := by
  have h4 : (header t n ++ rest).getD 4 0 = BitVec.ofNat 8 (n >>> 8) := rfl
  have h5 : (header t n ++ rest).getD 5 0 = BitVec.ofNat 8 n := rfl
  rw [lengthField, h4, h5, BitVec.toNat_ofNat, BitVec.toNat_ofNat, Nat.shiftLeft_eq,
    Nat.shiftRight_eq_div_pow]
  omega

/-- The length field is read off the header alone. -/
theorem lengthField_append {b : Buffer} (h : tcpHeaderSize ≤ b.length) (rest : Buffer) :
    lengthField (b ++ rest) = lengthField b := by
  unfold tcpHeaderSize at h
  have hget : ∀ i < 6, (b ++ rest).getD i 0 = b.getD i 0 :=
    fun i hi => List.getD_append _ _ _ _ (Nat.lt_of_lt_of_le hi h)
  rw [lengthField, lengthField, hget 4 (by decide), hget 5 (by decide)]

theorem lengthField_take {b : Buffer} {n : Nat} (hn : tcpHeaderSize ≤ n) (h : n ≤ b.length) :
    lengthField (b.take n) = lengthField b := by
  have hlen : (b.take n).length = n := by
    rw [List.length_take, Nat.min_eq_left h]
  rw [← lengthField_append (by rwa [hlen]) (b.drop n), List.take_append_drop]

theorem transactionId_header (t : Word) (n : Nat) (rest : Buffer) (type : MessageType) :
    transactionId ⟨header t n ++ rest, type⟩ = .ok t := by
  have hhi : (header t n ++ rest)[0]? = some (hiByte t) := rfl
  have hlo : (header t n ++ rest)[1]? = some (loByte t) := by
    rw [loByte_eq]
    rfl
  simp only [transactionId, elementAt, hhi, hlo, ok_bind, pure_eq_ok, word_hi_lo]

theorem ofBuffer_ok_iff {b : Buffer} {n : Nat} {type : MessageType} {du : TcpDataUnit} :
    ofBuffer b n type = .ok du ↔
      tcpHeaderSize ≤ b.length ∧ 0 < toInt32 (n - tcpHeaderSize) ∧
        lengthField b ≤ toInt32 (n - tcpHeaderSize) ∧ du = ⟨b, type⟩ := by
  constructor
  · intro h
    simp only [ofBuffer, bind_ok, elementAt_ok] at h
    obtain ⟨hi, hhi, lo, hlo, h⟩ := h
    split at h
    · cases h
    · next hok =>
      cases h
      have hlen := (List.getElem?_eq_some_iff.mp hlo).1
      rw [not_or, Int.not_le, Int.not_lt] at hok
      refine ⟨hlen, hok.1, ?_, rfl⟩
      simpa [lengthField, hhi, hlo] using hok.2
  · rintro ⟨hlen, hpos, hle, rfl⟩
    have h4 : b[4]? = some (b.getD 4 0) := by
      simp [List.getElem?_eq_getElem (show 4 < b.length by unfold tcpHeaderSize at hlen; omega)]
    have h5 : b[5]? = some (b.getD 5 0) := by
      simp [List.getElem?_eq_getElem (show 5 < b.length by unfold tcpHeaderSize at hlen; omega)]
    simp only [ofBuffer, bind_ok, elementAt_ok]
    refine ⟨_, h4, _, h5, ?_⟩
    rw [if_neg]
    · rfl
    · rw [not_or, Int.not_le, Int.not_lt]
      exact ⟨hpos, hle⟩

/-- The low 32 bits of a number of data bytes are a positive `int` that covers the
length field. -/
def Covers (field k : Nat) : Prop :=
  0 < k % 0x100000000 ∧ k % 0x100000000 < 0x80000000 ∧ field ≤ k % 0x100000000

instance (field k : Nat) : Decidable (Covers field k) := inferInstanceAs (Decidable (_ ∧ _ ∧ _))

theorem covers_iff (field k : Nat) : Covers field k ↔ 0 < toInt32 k ∧ field ≤ toInt32 k := by
  unfold Covers toInt32
  rw [Int.bmod_def]
  split <;> omega

/-- The constructor for one buffer, by the number of data bytes. -/
theorem ofBuffer_data_iff {b : Buffer} {k : Nat} {type : MessageType} {du : TcpDataUnit} :
    ofBuffer b (tcpHeaderSize + k) type = .ok du ↔
      tcpHeaderSize ≤ b.length ∧ Covers (lengthField b) k ∧ du = ⟨b, type⟩ := by
  have hdata : ((tcpHeaderSize + k : Nat) : Int) - tcpHeaderSize = k := by omega
  rw [ofBuffer_ok_iff, hdata, covers_iff, and_assoc]

/-- An accepted buffer holds the message its length field announces. -/
theorem lengthField_le {b : Buffer} {n : Nat} {type : MessageType} {du : TcpDataUnit}
    (h : ofBuffer b n type = .ok du) : tcpHeaderSize + lengthField b ≤ n := by
  obtain ⟨_, hpos, hle, _⟩ := ofBuffer_ok_iff.mp h
  unfold toInt32 tcpHeaderSize at *
  rw [Int.bmod_def] at hpos hle
  split at hle <;> omega

/-- A buffer that is no longer than an `int` is accepted when it holds the message
its length field announces, and some byte of it. -/
theorem ofBuffer_of_le {b : Buffer} {n : Nat} (type : MessageType) (hb : n ≤ b.length)
    (hpos : tcpHeaderSize < n) (hint : n < 0x80000000) (hfield : tcpHeaderSize + lengthField b ≤ n) :
    ofBuffer b n type = .ok ⟨b, type⟩ := by
  have hnarrow : toInt32 (n - tcpHeaderSize) = (n : Int) - tcpHeaderSize := by
    unfold toInt32
    rw [Int.bmod_def]
    split <;> omega
  rw [ofBuffer_ok_iff, hnarrow]
  refine ⟨?_, ?_, ?_, rfl⟩ <;> omega

/-- Received bytes that hold the announced message are accepted, whatever stands behind
them in the buffer. -/
theorem ofBuffer_front {b : Buffer} (type : MessageType) (rest : Buffer)
    (hpos : tcpHeaderSize < b.length) (hfits : b.length ≤ maxApuSize)
    (hfield : tcpHeaderSize + lengthField b ≤ b.length) :
    ofBuffer (b ++ rest) b.length type = .ok ⟨b ++ rest, type⟩ := by
  apply ofBuffer_of_le
  · rw [List.length_append]
    exact Nat.le_add_right _ _
  · exact hpos
  · exact Nat.lt_of_le_of_lt hfits (by decide)
  · rwa [lengthField_append (Nat.le_of_lt hpos)]

/-! ## The constructor for a header and a payload -/

/-- The protocol id of a header is zero. -/
def ProtocolZero (header : Buffer) : Prop := header.getD 2 0 = 0 ∧ header.getD 3 0 = 0

instance (header : Buffer) : Decidable (ProtocolZero header) :=
  inferInstanceAs (Decidable (_ ∧ _))

theorem ofHeaderPayload_ok_iff {header payload : Buffer} {k : Nat} {type : MessageType}
    {du : TcpDataUnit} (hlen : header.length = tcpHeaderSize) :
    ofHeaderPayload header payload k type = .ok du ↔
      ProtocolZero header ∧ 0 < k ∧ lengthField header ≤ k ∧ du = ⟨header ++ payload, type⟩ := by
  match header, hlen with
  | [t1, t0, p1, p0, n1, n0], _ =>
    have hfield : lengthField [t1, t0, p1, p0, n1, n0] = n1.toNat <<< 8 + n0.toNat := rfl
    have hprotocol : ProtocolZero [t1, t0, p1, p0, n1, n0] ↔ p1 = 0 ∧ p0 = 0 := Iff.rfl
    rw [hfield, hprotocol]
    simp only [ofHeaderPayload, elementAt, List.getElem?_cons_succ, List.getElem?_cons_zero, ok_bind]
    by_cases h1 : p1 = 0
    · by_cases h0 : p0 = 0
      · by_cases hshort : k ≤ 0 ∨ k < n1.toNat <<< 8 + n0.toNat
        · rw [if_neg (not_not.mpr h1), if_neg (not_not.mpr h0), if_pos hshort]
          refine iff_of_false nofun ?_
          rintro ⟨_, hpos, hle, _⟩
          omega
        · rw [if_neg (not_not.mpr h1), if_neg (not_not.mpr h0), if_neg hshort]
          constructor
          · intro h
            cases h
            exact ⟨⟨h1, h0⟩, by omega, by omega, rfl⟩
          · rintro ⟨_, _, _, rfl⟩
            rfl
      · rw [if_neg (not_not.mpr h1), if_pos h0]
        exact iff_of_false nofun fun h => h0 h.1.2
    · rw [if_pos h1]
      exact iff_of_false nofun fun h => h1 h.1.1

/-- Both receiving constructors accept or both refuse, and they build the same unit. -/
def ReceiversAgree (header payload : Buffer) (k : Nat) (type : MessageType) : Prop :=
  ((∃ du, ofBuffer (header ++ payload) (tcpHeaderSize + k) type = .ok du) ↔
      ∃ du, ofHeaderPayload header payload k type = .ok du) ∧
    ∀ du du', ofBuffer (header ++ payload) (tcpHeaderSize + k) type = .ok du →
      ofHeaderPayload header payload k type = .ok du' → du = du'

/-- With protocol id zero they agree below 2 GiB of data, and with any other where the
first one refuses. -/
theorem receiversAgree_iff (header payload : Buffer) (k : Nat) (type : MessageType)
    (hlen : header.length = tcpHeaderSize) :
    ReceiversAgree header payload k type ↔
      if ProtocolZero header then k < 0x80000000 ∨ Covers (lengthField header) k
      else ¬ Covers (lengthField header) k := by
  have hfirst : ∀ du, ofBuffer (header ++ payload) (tcpHeaderSize + k) type = .ok du ↔
      Covers (lengthField header) k ∧ du = ⟨header ++ payload, type⟩ := by
    intro du
    rw [ofBuffer_data_iff, lengthField_append (Nat.le_of_eq hlen.symm), List.length_append, hlen,
      and_iff_right (Nat.le_add_right _ _)]
  have hsecond : ∀ du, ofHeaderPayload header payload k type = .ok du ↔
      ProtocolZero header ∧ 0 < k ∧ lengthField header ≤ k ∧ du = ⟨header ++ payload, type⟩ :=
    fun du => ofHeaderPayload_ok_iff hlen
  have hsame : ∀ du du', ofBuffer (header ++ payload) (tcpHeaderSize + k) type = .ok du →
      ofHeaderPayload header payload k type = .ok du' → du = du' := by
    intro du du' h h'
    rw [((hfirst du).mp h).2, ((hsecond du').mp h').2.2.2]
  have hfield : lengthField header < 65536 := by
    unfold lengthField
    rw [Nat.shiftLeft_eq]
    omega
  unfold ReceiversAgree
  simp only [hfirst, hsecond, exists_and_left, exists_eq, and_true] at hsame ⊢
  rw [and_iff_left hsame]
  split
  · next hzero =>
    simp only [hzero, true_and]
    unfold Covers
    omega
  · next hother =>
    simp only [hother, false_and, iff_false]

/-- A read request of twelve bytes. -/
theorem receiversAgree_read_coils :
    ReceiversAgree [0, 1, 0, 0, 0, 6] [1, 1, 0, 0, 0, 8] 6 .request :=
  (receiversAgree_iff [0, 1, 0, 0, 0, 6] [1, 1, 0, 0, 0, 8] 6 .request rfl).mpr (by decide)

/-- The same request with protocol id 1 is accepted in one buffer and refused in two. -/
theorem foreign_protocol_accepted :
    ofBuffer ([0, 1, 0, 1, 0, 6] ++ [1, 1, 0, 0, 0, 8]) (tcpHeaderSize + 6) .request =
        .ok ⟨[0, 1, 0, 1, 0, 6, 1, 1, 0, 0, 0, 8], .request⟩ ∧
      ofHeaderPayload [0, 1, 0, 1, 0, 6] [1, 1, 0, 0, 0, 8] 6 .request = .error .invalidArgument ∧
      ¬ ReceiversAgree [0, 1, 0, 1, 0, 6] [1, 1, 0, 0, 0, 8] 6 .request := by
  have hfirst : ofBuffer ([0, 1, 0, 1, 0, 6] ++ [1, 1, 0, 0, 0, 8]) (tcpHeaderSize + 6) .request =
      .ok ⟨[0, 1, 0, 1, 0, 6, 1, 1, 0, 0, 0, 8], .request⟩ := by decide
  have hsecond : ofHeaderPayload [0, 1, 0, 1, 0, 6] [1, 1, 0, 0, 0, 8] 6 .request =
      .error .invalidArgument := by decide
  refine ⟨hfirst, hsecond, ?_⟩
  rintro ⟨hagree, _⟩
  obtain ⟨du, hdu⟩ := hagree.mp ⟨_, hfirst⟩
  rw [hsecond] at hdu
  cases hdu

end TcpDataUnit

/-! ## Which message type a unit holds -/

/-- The code byte of a message of type `T`: its own function code, or any code
with the exception flag. -/
def MessageKind.Matches (T : MessageKind) (code : Byte) : Prop :=
  match T.functionCode with
  | some c => code = c
  | none => code &&& 0x80#8 ≠ 0#8

theorem flag_clear : ∀ code : Byte, code &&& 0x80#8 = 0#8 → code &&& 0x7F#8 = code := by
  decide +kernel

theorem MessageKind.functionCode_flag {T : MessageKind} {c : FunctionCode}
    (h : T.functionCode = some c) : c &&& 0x80#8 = 0#8 := by
  cases T <;> cases h <;> rfl

/-- Function code and message type determine the message type. -/
theorem MessageKind.ext_code : ∀ {T U : MessageKind}, T.type = U.type →
    T.functionCode = U.functionCode → T = U := by
  intro T U
  cases T <;> cases U <;> decide

theorem MessageKind.Matches.unique {T U : MessageKind} {code : Byte} (ht : T.type = U.type)
    (hT : T.Matches code) (hU : U.Matches code) : T = U := by
  apply MessageKind.ext_code ht
  unfold MessageKind.Matches at hT hU
  cases hcT : T.functionCode with
  | none =>
    cases hcU : U.functionCode with
    | none => rfl
    | some c =>
      rw [hcT] at hT
      rw [hcU] at hU
      exact absurd (hU ▸ MessageKind.functionCode_flag hcU) hT
  | some c =>
    cases hcU : U.functionCode with
    | none =>
      rw [hcT] at hT
      rw [hcU] at hU
      exact absurd (hT ▸ MessageKind.functionCode_flag hcT) hU
    | some d =>
      rw [hcT] at hT
      rw [hcU] at hU
      rw [← hT, ← hU]

/-- A serialized message carries a code byte of its own type. -/
theorem Message.serialize_code (m : Message) :
    ∃ code, m.serialize[1]? = some code ∧ m.kind.Matches code := by
  have hflag : ∀ c : Byte, (c ||| 0x80#8) &&& 0x80#8 ≠ 0#8 := by decide +kernel
  cases m with
  | exceptionResponse m => exact ⟨m.funcCode ||| 0x80#8, rfl, hflag _⟩
  | _ => exact ⟨_, rfl, rfl⟩

namespace TcpDataUnit

/-- The unit holds a message of type `T`, as far as its code byte says. -/
def Selects (du : TcpDataUnit) (T : MessageKind) : Prop :=
  du.type = T.type ∧ ∃ code, du.buffer[7]? = some code ∧ T.Matches code

theorem selects_eq_true_iff {du : TcpDataUnit} {T : MessageKind} :
    du.selects T = .ok true ↔ du.Selects T := by
  unfold selects Selects isException functionCode elementAt MessageKind.Matches
  cases hb : du.buffer[7]? with
  | none => cases T.functionCode <;> simp [bind, Except.bind]
  | some code =>
    have hne : du.buffer.isEmpty = false := by
      cases hbuf : du.buffer with
      | nil => simp [hbuf] at hb
      | cons _ _ => rfl
    cases hc : T.functionCode with
    | none =>
      by_cases hx : code &&& 0x80#8 = 0#8 <;> by_cases ht : du.type = T.type <;> simp [hx, ht, hne]
    | some c =>
      have hflag := MessageKind.functionCode_flag hc
      by_cases hx : code &&& 0x80#8 = 0#8
      · have hcode : code &&& 0x7F#8 = code := flag_clear code hx
        by_cases ht : du.type = T.type <;> simp [hx, ht, hne, hcode]
      · have hcode : code ≠ c := by
          intro he
          exact hx (he ▸ hflag)
        simp [hx, hcode]

theorem pdu_of_selects {du : TcpDataUnit} {T : MessageKind} (h : du.Selects T) :
    du.pdu T = (do let (m, _) ← T.decode du.buffer tcpHeaderSize; return some m) := by
  unfold pdu
  rw [selects_eq_true_iff.mpr h]

theorem pdu_of_not_selects {du : TcpDataUnit} {T : MessageKind} (h : ¬ du.Selects T) :
    du.pdu T = .ok none := by
  unfold pdu
  split
  · rfl
  · rfl
  · next hs => exact absurd (selects_eq_true_iff.mp hs) h

end TcpDataUnit

end Modbus
