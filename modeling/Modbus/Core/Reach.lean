import Modbus.Core.Bounds

/-! # What a request decoder finds

Each layout of a request in terms of the bytes of the buffer, for a buffer that
holds what the decoder reads (`decode_eq`). A counted layout that was decoded at
all found every byte it counts (`decode_reaches`), so its message is the one that
these equations give. -/
namespace Modbus
open Bytes Checked Walk

/-- The big-endian word at a position. -/
def wordAt (b : Buffer) (pos : Nat) : Word := word (b.getD pos 0) (b.getD (pos + 1) 0)

/-- The `n` bytes at a position. -/
def bytesAt (b : Buffer) (pos n : Nat) : Buffer := (b.drop pos).take n

section Fields
variable {b : Buffer} {pos : Nat}

theorem length_bytesAt {n : Nat} (h : pos + n ≤ b.length) : (bytesAt b pos n).length = n := by
  rw [bytesAt, List.length_take, List.length_drop]
  omega

/-! ## Walking over one field -/

section Walking
variable {β : Type} {n : Nat}

/-- A decoder that finds what its first walk reads goes on behind it. -/
theorem bind_of_reads {α : Type} {w : Decoder α} {bytes : List Byte} {a : α}
    (hreads : Reads w bytes a) (hp : bytes <+: b.drop pos) (k : α → Decoder β) :
    (w >>= k) b pos = k a b (pos + bytes.length) := by
  change (w b pos >>= fun r => k r.1 b r.2) = _
  rw [hreads b pos hp, ok_bind]

theorem next_bind (h : pos < b.length) (k : Byte → Decoder β) :
    (next >>= k) b pos = k (b.getD pos 0) b (pos + 1) := by
  refine bind_of_reads (Reads.next _) ?_ k
  rw [List.drop_eq_getElem_cons h, List.getD_eq_getElem _ _ h]
  exact List.prefix_append [_] _

theorem skip_bind (k : Unit → Decoder β) : (skip >>= k) b pos = k () b (pos + 1) := rfl

theorem nextWord_bind (h : pos + 1 < b.length) (k : Word → Decoder β) :
    (nextWord >>= k) b pos = k (wordAt b pos) b (pos + 2) := by
  rw [nextWord, bind_assoc, next_bind (Nat.lt_of_succ_lt h), bind_assoc, next_bind h]
  rfl

theorem times_next_bind (h : pos + n ≤ b.length) (k : List Byte → Decoder β) :
    (times next n >>= k) b pos = k (bytesAt b pos n) b (pos + n) := by
  have hlen := length_bytesAt h
  have hreads := Reads.times_next (bytesAt b pos n)
  rw [hlen] at hreads
  rw [bind_of_reads hreads (List.take_prefix _ _), hlen]

theorem times_nextWord_bind (h : pos + 2 * n ≤ b.length) (k : List Word → Decoder β) :
    (times nextWord n >>= k) b pos = k (wordsOf (bytesAt b pos (2 * n))) b (pos + 2 * n) := by
  have hlen := length_bytesAt h
  rw [bind_of_reads (Reads.times_nextWord n _ hlen) (List.take_prefix _ _), hlen]

end Walking

/-! ## Layouts of fixed size -/

theorem AddressRange.decode_eq (h : pos + 6 ≤ b.length) :
    decode b pos = .ok (⟨b.getD pos 0, wordAt b (pos + 2), wordAt b (pos + 4)⟩, pos + 6) := by
  rw [decode, next_bind (by omega), skip_bind, nextWord_bind (by omega), nextWord_bind (by omega)]
  rfl

theorem CoilValue.decode_eq (h : pos + 6 ≤ b.length) :
    decode b pos = .ok (⟨b.getD pos 0, wordAt b (pos + 2), wordAt b (pos + 4) == coilStatusOn⟩,
      pos + 6) := by
  rw [decode, next_bind (by omega), skip_bind, nextWord_bind (by omega), nextWord_bind (by omega)]
  rfl

theorem RegisterValue.decode_eq (h : pos + 6 ≤ b.length) :
    decode b pos = .ok (⟨b.getD pos 0, wordAt b (pos + 2), wordAt b (pos + 4)⟩, pos + 6) := by
  rw [decode, next_bind (by omega), skip_bind, nextWord_bind (by omega), nextWord_bind (by omega)]
  rfl

theorem RegisterMask.decode_eq (h : pos + 8 ≤ b.length) :
    decode b pos = .ok (⟨b.getD pos 0, wordAt b (pos + 2), wordAt b (pos + 4),
      wordAt b (pos + 6)⟩, pos + 8) := by
  rw [decode, next_bind (by omega), skip_bind, nextWord_bind (by omega), nextWord_bind (by omega),
    nextWord_bind (by omega)]
  rfl

/-! ## Counted layouts -/

theorem WriteMultipleCoilsRequest.decode_eq {n : Nat} (hn : n = (b.getD (pos + 6) 0).toNat)
    (h : pos + (7 + n) ≤ b.length) :
    decode b pos = .ok (⟨b.getD pos 0, wordAt b (pos + 2), wordAt b (pos + 4),
      bytesAt b (pos + 7) n⟩, pos + (7 + n)) := by
  subst hn
  rw [decode, next_bind (by omega), skip_bind, nextWord_bind (by omega), nextWord_bind (by omega),
    next_bind (by omega), times_next_bind (by rw [← Nat.add_assoc] at h; exact h),
    ← Nat.add_assoc pos 7]
  rfl

theorem WriteMultipleRegistersRequest.decode_eq {n : Nat}
    (hn : n = (b.getD (pos + 6) 0).toNat / 2) (h : pos + (7 + 2 * n) ≤ b.length) :
    decode b pos = .ok (⟨b.getD pos 0, wordAt b (pos + 2), wordAt b (pos + 4),
      wordsOf (bytesAt b (pos + 7) (2 * n))⟩, pos + (7 + 2 * n)) := by
  subst hn
  rw [decode, next_bind (by omega), skip_bind, nextWord_bind (by omega), nextWord_bind (by omega),
    next_bind (by omega), times_nextWord_bind (by rw [← Nat.add_assoc] at h; exact h),
    ← Nat.add_assoc pos 7]
  rfl

theorem ReadWriteRegistersRequest.decode_eq {n : Nat}
    (hn : n = (b.getD (pos + 10) 0).toNat / 2) (h : pos + (11 + 2 * n) ≤ b.length) :
    decode b pos = .ok (.ofValues (b.getD pos 0) (wordAt b (pos + 2)) (wordAt b (pos + 4))
      (wordAt b (pos + 6)) (wordsOf (bytesAt b (pos + 11) (2 * n))), pos + (11 + 2 * n)) := by
  subst hn
  rw [decode, next_bind (by omega), skip_bind, nextWord_bind (by omega), nextWord_bind (by omega),
    nextWord_bind (by omega), nextWord_bind (by omega), next_bind (by omega),
    times_nextWord_bind (by rw [← Nat.add_assoc] at h; exact h), ← Nat.add_assoc pos 11]
  rfl

/-! ## Counted layouts that were decoded -/

section Reaching
variable {β : Type} {r : β × Nat}

/-- A decoder that got past a word got past its two bytes. -/
theorem word_ok {k : Word → Decoder β} (h : (nextWord >>= k) b pos = .ok r) :
    ∃ x, k x b (pos + 2) = .ok r := by
  obtain ⟨x, p, hword, hrest⟩ := walk_bind_ok.mp h
  obtain ⟨rfl, _⟩ := nextWord_ok hword
  exact ⟨x, hrest⟩

/-- So it did past the unit id and the function code. -/
theorem unit_ok {k : Byte → Decoder β}
    (h : (do let u ← next; skip; k u : Decoder β) b pos = .ok r) :
    ∃ u, k u b (pos + 2) = .ok r := by
  obtain ⟨u, p, hunit, hcode⟩ := walk_bind_ok.mp h
  obtain ⟨_, rfl⟩ := next_ok.mp hunit
  rw [skip_bind] at hcode
  exact ⟨u, hcode⟩

/-- And past the first two words behind them. -/
theorem head_ok {k : Byte → Word → Word → Decoder β}
    (h : (do let u ← next; skip; let x ← nextWord; let y ← nextWord; k u x y : Decoder β) b pos =
      .ok r) : ∃ u x y, k u x y b (pos + 6) = .ok r := by
  obtain ⟨u, hu⟩ := unit_ok h
  obtain ⟨x, hx⟩ := word_ok hu
  obtain ⟨y, hy⟩ := word_ok hx
  exact ⟨u, x, y, hy⟩

/-- A byte count that was read stands in the buffer. -/
theorem count_ok {k : Byte → Decoder β} (h : (next >>= k) b pos = .ok r) :
    pos + 1 ≤ b.length ∧ k (b.getD pos 0) b (pos + 1) = .ok r := by
  obtain ⟨c, p, hcount, hrest⟩ := walk_bind_ok.mp h
  obtain ⟨hc, rfl⟩ := next_ok.mp hcount
  refine ⟨(List.getElem?_eq_some_iff.mp hc).1, ?_⟩
  rwa [List.getD_eq_getElem?_getD, hc]

end Reaching

theorem ByteValues.decode_reaches {r : ByteValues × Nat} (h : decode b pos = .ok r) :
    pos + (3 + (b.getD (pos + 2) 0).toNat) ≤ b.length := by
  obtain ⟨u, hhead⟩ := unit_ok h
  obtain ⟨hcount, hdata⟩ := count_ok hhead
  obtain ⟨vs, p, hvs, _⟩ := walk_bind_ok.mp hdata
  have hall := times_next_ok hvs hcount
  rwa [Nat.add_assoc pos 2 1, Nat.add_assoc pos] at hall

theorem ReadWriteRegistersResponse.decode_reaches {r : ReadWriteRegistersResponse × Nat}
    (h : decode b pos = .ok r) : pos + (3 + 2 * ((b.getD (pos + 2) 0).toNat / 2)) ≤ b.length := by
  obtain ⟨u, hhead⟩ := unit_ok h
  obtain ⟨hcount, hdata⟩ := count_ok hhead
  obtain ⟨vs, p, hvs, _⟩ := walk_bind_ok.mp hdata
  have hall := times_nextWord_ok hvs hcount
  rwa [Nat.add_assoc pos 2 1, Nat.add_assoc pos] at hall

theorem WriteMultipleCoilsRequest.decode_reaches {r : WriteMultipleCoilsRequest × Nat}
    (h : decode b pos = .ok r) : pos + (7 + (b.getD (pos + 6) 0).toNat) ≤ b.length := by
  obtain ⟨u, a, n, hhead⟩ := head_ok h
  obtain ⟨hcount, hdata⟩ := count_ok hhead
  obtain ⟨vs, p, hvs, _⟩ := walk_bind_ok.mp hdata
  have hall := times_next_ok hvs hcount
  rwa [Nat.add_assoc pos 6 1, Nat.add_assoc pos] at hall

theorem WriteMultipleRegistersRequest.decode_reaches {r : WriteMultipleRegistersRequest × Nat}
    (h : decode b pos = .ok r) : pos + (7 + 2 * ((b.getD (pos + 6) 0).toNat / 2)) ≤ b.length := by
  obtain ⟨u, a, n, hhead⟩ := head_ok h
  obtain ⟨hcount, hdata⟩ := count_ok hhead
  obtain ⟨vs, p, hvs, _⟩ := walk_bind_ok.mp hdata
  have hall := times_nextWord_ok hvs hcount
  rwa [Nat.add_assoc pos 6 1, Nat.add_assoc pos] at hall

theorem ReadWriteRegistersRequest.decode_reaches {r : ReadWriteRegistersRequest × Nat}
    (h : decode b pos = .ok r) :
    pos + (11 + 2 * ((b.getD (pos + 10) 0).toNat / 2)) ≤ b.length := by
  obtain ⟨u, a, k, hhead⟩ := head_ok h
  obtain ⟨w, hwrite⟩ := word_ok hhead
  obtain ⟨n, hnum⟩ := word_ok hwrite
  obtain ⟨hcount, hdata⟩ := count_ok hnum
  obtain ⟨vs, p, hvs, _⟩ := walk_bind_ok.mp hdata
  have hall := times_nextWord_ok hvs hcount
  rwa [Nat.add_assoc pos 6 2, Nat.add_assoc pos 8 2, Nat.add_assoc pos 10 1, Nat.add_assoc pos]
    at hall

/-! ## The decoder of a message type -/

/-- A message type wraps the message of its layout. -/
theorem wrap_ok {α : Type} {w : Decoder α} {f : α → Message} {m : Message} {p : Nat}
    (h : (do return f (← w) : Decoder Message) b pos = .ok (m, p)) :
    ∃ a, w b pos = .ok (a, p) ∧ m = f a := by
  obtain ⟨a, p', ha, hret⟩ := walk_bind_ok.mp h
  cases hret
  exact ⟨a, ha, rfl⟩

/-- Decoding gives a message of the type that was asked for. -/
theorem MessageKind.decode_kind {T : MessageKind} {m : Message} {p : Nat}
    (h : T.decode b pos = .ok (m, p)) : m.kind = T := by
  cases T <;> obtain ⟨a, _, rfl⟩ := wrap_ok h <;> rfl

end Fields

/-- What `pdu` returns was decoded behind the header. -/
theorem TcpDataUnit.decode_of_pdu {du : TcpDataUnit} {T : MessageKind} {m : Message}
    (h : du.pdu T = .ok (some m)) :
    du.Selects T ∧ ∃ p, T.decode du.buffer tcpHeaderSize = .ok (m, p) := by
  by_cases hsel : du.Selects T
  · refine ⟨hsel, ?_⟩
    rw [pdu_of_selects hsel, bind_ok] at h
    obtain ⟨⟨m', p⟩, hdecode, hret⟩ := h
    cases hret
    exact ⟨p, hdecode⟩
  · rw [pdu_of_not_selects hsel] at h
    cases h

end Modbus
