import Modbus.Lib.Checked
import Modbus.Lib.Bytes

/-! # Walking a raw iterator over a byte vector

A decoder that is handed a forward iterator and no end reads byte after byte,
and nothing stops it at the end of the vector. A `Decoder` is such a walk: it
takes the vector and a position, and dereferencing a position past the end is a
fault. `Reads w bytes a` says that `w` finds exactly `bytes` enough to produce
`a`, wherever they stand and whatever follows them; the rules below compose it
along a decoder. An `Encoder` is the same walk with stores in place of loads, and
`Fills w bytes` says that `w` puts exactly `bytes` there and stops behind them. -/
namespace Walk
open Checked Bytes

/-- Reads from a position of a byte vector and moves it. -/
abbrev Decoder := ReaderT (List Byte) (StateT Nat (Except Fault))

/-- `*it++`. -/
def next : Decoder Byte := fun bs pos => do
  let x ← get bs pos
  return (x, pos + 1)

/-- `it++`, without looking. -/
def skip : Decoder Unit := fun _ pos => .ok ((), pos + 1)

/-- `w = *it++ << 8; w += *it++`. -/
def nextWord : Decoder Word := do
  let hi ← next
  let lo ← next
  return word hi lo

/-- A vector of `n` elements, filled one after another. -/
def times {α : Type} (w : Decoder α) : Nat → Decoder (List α)
  | 0 => return []
  | n + 1 => do
    let x ← w
    let xs ← times w n
    return x :: xs

/-- Stores at a position of a byte vector and moves it. -/
abbrev Encoder := StateT (List Byte × Nat) (Except Fault)

/-- `*it++ = x`. -/
def put (x : Byte) : Encoder Unit := fun s => do
  let bs ← set s.1 s.2 x
  return ((), bs, s.2 + 1)

/-- `*it++ = w >> 8; *it++ = w & 0x00FF`. -/
def putWord (w : Word) : Encoder Unit := do
  put (hiByte w)
  put (loByte w)

/-- `*it++ = x` for each byte in turn. -/
def store (bs : List Byte) (pos : Nat) : List Byte → Except Fault (List Byte)
  | [] => .ok bs
  | x :: xs => do
    let bs ← set bs pos x
    store bs (pos + 1) xs

/-! ## What a walk reads -/

/-- Where `bytes` stand, `w` reads exactly them and returns `a`. -/
def Reads {α : Type} (w : Decoder α) (bytes : List Byte) (a : α) : Prop :=
  ∀ bs pos, bytes <+: bs.drop pos → w bs pos = .ok (a, pos + bytes.length)

theorem Reads.pure {α : Type} (a : α) : Reads (pure a) [] a := by
  intro bs pos _
  rfl

theorem Reads.bind {α β : Type} {w : Decoder α} {f : α → Decoder β} {xs ys : List Byte} {a : α} {b : β}
    (hw : Reads w xs a) (hf : Reads (f a) ys b) : Reads (w >>= f) (xs ++ ys) b := by
  intro bs pos hp
  obtain ⟨rest, hrest⟩ := hp
  have hfirst : w bs pos = .ok (a, pos + xs.length) :=
    hw bs pos ⟨ys ++ rest, by rw [← hrest, List.append_assoc]⟩
  have hthen : f a bs (pos + xs.length) = .ok (b, pos + xs.length + ys.length) := by
    refine hf bs (pos + xs.length) ⟨rest, ?_⟩
    rw [← List.drop_drop, ← hrest, List.append_assoc, List.drop_left]
  change (w bs pos >>= fun r => f r.1 bs r.2) = _
  rw [hfirst, ok_bind, hthen, List.length_append, Nat.add_assoc]

theorem Reads.next (x : Byte) : Reads next [x] x := by
  intro bs pos hp
  obtain ⟨rest, hrest⟩ := hp
  have hx : bs[pos]? = some x := by
    rw [← List.head?_drop, ← hrest]
    rfl
  simp [Walk.next, Checked.get, hx]

theorem Reads.skip (x : Byte) : Reads skip [x] () := by
  intro bs pos _
  rfl

theorem Reads.nextWord (hi lo : Byte) : Reads nextWord [hi, lo] (word hi lo) :=
  (Reads.next hi).bind ((Reads.next lo).bind (Reads.pure _))

theorem Reads.times_next (bytes : List Byte) : Reads (times Walk.next bytes.length) bytes bytes := by
  induction bytes with
  | nil => exact Reads.pure []
  | cons x rest ih =>
    have h : Reads (times Walk.next (rest.length + 1)) ([x] ++ (rest ++ [])) (x :: rest) :=
      (Reads.next x).bind (ih.bind (Reads.pure _))
    simpa using h

theorem Reads.times_nextWord : ∀ (n : Nat) (bytes : List Byte), bytes.length = 2 * n →
    Reads (times Walk.nextWord n) bytes (wordsOf bytes)
  | 0, bytes, h => by
    have hnil : bytes = [] := List.length_eq_zero_iff.mp h
    subst hnil
    exact Reads.pure []
  | n + 1, [], h => by simp at h
  | n + 1, [_], h => by simp at h; omega
  | n + 1, hi :: lo :: rest, h => by
    have hrest : rest.length = 2 * n := by simp at h; omega
    have ih := Reads.times_nextWord n rest hrest
    have hall : Reads (times Walk.nextWord (n + 1)) ([hi, lo] ++ (rest ++ []))
        (word hi lo :: wordsOf rest) :=
      (Reads.nextWord hi lo).bind (ih.bind (Reads.pure _))
    simpa [wordsOf] using hall

theorem Reads.map {α β : Type} {w : Decoder α} {bytes : List Byte} {a : α} (f : α → β)
    (h : Reads w bytes a) : Reads (do return f (← w)) bytes (f a) := by
  have hall : Reads (w >>= fun a => Pure.pure (f a)) (bytes ++ []) (f a) :=
    h.bind (Reads.pure _)
  rwa [List.append_nil] at hall

/-- Enough bytes behind a position are some bytes that stand there. -/
theorem exists_prefix {bs : List Byte} {pos n : Nat} (h : pos + n ≤ bs.length) :
    ∃ bytes, bytes.length = n ∧ bytes <+: bs.drop pos := by
  refine ⟨(bs.drop pos).take n, ?_, List.take_prefix _ _⟩
  rw [List.length_take, List.length_drop]
  omega

/-! ## Reading at a position -/

/-- The next `n` bytes at a position are there, and they are what `w` reads. -/
def ReadsAt {α : Type} (w : Decoder α) (bs : List Byte) (pos n : Nat) : Prop :=
  ∃ bytes a, bytes.length = n ∧ bytes <+: bs.drop pos ∧ Reads w bytes a

/-- What follows the bytes that are read makes no difference. -/
theorem ReadsAt.append {α : Type} {w : Decoder α} {bs : List Byte} {pos n : Nat}
    (h : ReadsAt w bs pos n) : ∃ a, ∀ rest, w (bs ++ rest) pos = .ok (a, pos + n) := by
  obtain ⟨bytes, a, rfl, hp, hreads⟩ := h
  refine ⟨a, fun rest => hreads _ _ ?_⟩
  rcases Nat.le_total pos bs.length with hle | hge
  · rw [List.drop_append_of_le_length hle]
    exact hp.trans (List.prefix_append _ _)
  · rw [List.drop_eq_nil_of_le hge] at hp
    rw [List.prefix_nil.mp hp]
    exact List.nil_prefix

theorem ReadsAt.ok {α : Type} {w : Decoder α} {bs : List Byte} {pos n : Nat}
    (h : ReadsAt w bs pos n) : ∃ a, w bs pos = .ok (a, pos + n) := by
  obtain ⟨a, ha⟩ := h.append
  refine ⟨a, ?_⟩
  rw [← ha [], List.append_nil]

theorem ReadsAt.map {α β : Type} {w : Decoder α} {bs : List Byte} {pos n : Nat} (f : α → β)
    (h : ReadsAt w bs pos n) : ReadsAt (do return f (← w)) bs pos n := by
  obtain ⟨bytes, a, hlen, hp, hreads⟩ := h
  exact ⟨bytes, f a, hlen, hp, hreads.map f⟩

/-! ## What a walk that succeeded has read -/

section Inversion
variable {bs : List Byte} {pos p : Nat}

theorem walk_bind_ok {α β : Type} {w : Decoder α} {f : α → Decoder β} {r : β × Nat} :
    (w >>= f) bs pos = .ok r ↔ ∃ a p, w bs pos = .ok (a, p) ∧ f a bs p = .ok r := by
  change (w bs pos >>= fun r => f r.1 bs r.2) = .ok r ↔ _
  rw [bind_ok]
  constructor
  · rintro ⟨⟨a, p⟩, hw, hf⟩
    exact ⟨a, p, hw, hf⟩
  · rintro ⟨a, p, hw, hf⟩
    exact ⟨(a, p), hw, hf⟩

theorem next_ok {x : Byte} : next bs pos = .ok (x, p) ↔ bs[pos]? = some x ∧ p = pos + 1 := by
  simp only [next, bind_ok, get_ok]
  constructor
  · rintro ⟨y, hy, hret⟩
    cases hret
    exact ⟨hy, rfl⟩
  · rintro ⟨hx, rfl⟩
    exact ⟨x, hx, rfl⟩

theorem nextWord_ok {x : Word} (h : nextWord bs pos = .ok (x, p)) :
    p = pos + 2 ∧ p ≤ bs.length := by
  simp only [nextWord, walk_bind_ok, next_ok] at h
  obtain ⟨hi, _, ⟨_, rfl⟩, lo, _, ⟨hlo, rfl⟩, hret⟩ := h
  cases hret
  exact ⟨rfl, (List.getElem?_eq_some_iff.mp hlo).1⟩

/-- A repeated walk that moves `k` bytes at a time, and finds them, has found all of
them. -/
theorem times_ok {α : Type} {w : Decoder α} {k : Nat}
    (hw : ∀ {pos a p}, w bs pos = .ok (a, p) → p = pos + k ∧ p ≤ bs.length) :
    ∀ (n : Nat) {pos p : Nat} {as : List α}, times w n bs pos = .ok (as, p) →
      pos ≤ bs.length → pos + k * n ≤ bs.length
  | 0, _, _, _, _, hpos => by
    rw [Nat.mul_zero]
    exact hpos
  | n + 1, _, _, _, h, _ => by
    simp only [times, walk_bind_ok] at h
    obtain ⟨a, p, hfirst, as, p', hrest, _⟩ := h
    obtain ⟨rfl, hle⟩ := hw hfirst
    have hall := times_ok hw n hrest hle
    rw [Nat.mul_succ]
    omega

theorem times_next_ok {n : Nat} {as : List Byte} (h : times next n bs pos = .ok (as, p))
    (hpos : pos ≤ bs.length) : pos + n ≤ bs.length := by
  have hall := times_ok (k := 1) (fun h => ?_) n h hpos
  · rwa [Nat.one_mul] at hall
  · obtain ⟨hx, rfl⟩ := next_ok.mp h
    exact ⟨rfl, (List.getElem?_eq_some_iff.mp hx).1⟩

theorem times_nextWord_ok {n : Nat} {as : List Word} (h : times nextWord n bs pos = .ok (as, p))
    (hpos : pos ≤ bs.length) : pos + 2 * n ≤ bs.length :=
  times_ok nextWord_ok n h hpos

end Inversion

/-! ## What storing leaves behind -/

/-- Bytes stored inside the vector replace the ones that were there. -/
theorem store_eq (xs : List Byte) : ∀ (before old after : List Byte), old.length = xs.length →
    store (before ++ old ++ after) before.length xs = .ok (before ++ xs ++ after) := by
  induction xs with
  | nil =>
    intro before old after h
    rw [List.length_eq_zero_iff.mp h]
    rfl
  | cons x xs ih =>
    intro before old after h
    cases old with
    | nil => simp at h
    | cons o old =>
      have hset : set (before ++ (o :: old) ++ after) before.length x =
          .ok ((before ++ [x]) ++ old ++ after) := by
        simp
      have hih := ih (before ++ [x]) old after (by simpa using h)
      rw [List.length_append, List.length_singleton] at hih
      rw [store, hset, ok_bind, hih]
      simp

/-! ## What an encoder fills -/

/-- Where there is room for `bytes`, `w` replaces what stood there by them, touches
nothing else and ends behind them; where there is too little room, it runs past the end. -/
structure Fills (w : Encoder Unit) (bytes : List Byte) : Prop where
  room : ∀ before old after, old.length = bytes.length →
    w (before ++ old ++ after, before.length) =
      .ok ((), before ++ bytes ++ after, before.length + bytes.length)
  short : ∀ before old, old.length < bytes.length →
    ∃ fault, w (before ++ old, before.length) = .error fault

theorem Fills.pure : Fills (pure ()) [] := by
  constructor
  · intro before old after h
    rw [List.length_eq_zero_iff.mp h]
    rfl
  · intro before old h
    cases h

theorem Fills.put (x : Byte) : Fills (put x) [x] := by
  constructor
  · intro before old after h
    obtain ⟨o, rfl⟩ := List.length_eq_one_iff.mp h
    simp [Walk.put, Checked.set]
  · intro before old h
    have hnil : old = [] := List.length_eq_zero_iff.mp (Nat.lt_one_iff.mp h)
    refine ⟨.outOfRange before.length before.length, ?_⟩
    simp [Walk.put, Checked.set, hnil]
    rfl

/-- A window splits where the first of two walks ends. -/
theorem exists_split {old : List Byte} {n : Nat} (h : n ≤ old.length) :
    ∃ first second, old = first ++ second ∧ first.length = n :=
  ⟨old.take n, old.drop n, (List.take_append_drop n old).symm, List.length_take_of_le h⟩

theorem Fills.bind {w v : Encoder Unit} {xs ys : List Byte} (hw : Fills w xs) (hv : Fills v ys) :
    Fills (w >>= fun _ => v) (xs ++ ys) := by
  have hbind : ∀ s, (w >>= fun _ => v) s = w s >>= fun r => v r.2 := fun _ => rfl
  constructor
  · intro before old after h
    rw [List.length_append] at h
    obtain ⟨first, second, rfl, hfirst⟩ := @exists_split old xs.length (by omega)
    have hsecond : second.length = ys.length := by
      rw [List.length_append] at h
      omega
    have hthere := hw.room before first (second ++ after) hfirst
    have hthen := hv.room (before ++ xs) second after hsecond
    simp only [List.append_assoc, List.length_append, Nat.add_assoc] at hthere hthen ⊢
    rw [hbind, hthere, ok_bind, hthen]
  · intro before old h
    rw [List.length_append] at h
    rcases Nat.lt_or_ge old.length xs.length with hshort | hroom
    · obtain ⟨fault, hfault⟩ := hw.short before old hshort
      rw [hbind, hfault]
      exact ⟨fault, rfl⟩
    · obtain ⟨first, second, rfl, hfirst⟩ := exists_split hroom
      have hsecond : second.length < ys.length := by
        rw [List.length_append] at h
        omega
      have hthere := hw.room before first second hfirst
      obtain ⟨fault, hfault⟩ := hv.short (before ++ xs) second hsecond
      rw [List.length_append] at hfault
      rw [hbind, ← List.append_assoc, hthere, ok_bind, hfault]
      exact ⟨fault, rfl⟩

theorem Fills.putWord (w : Word) : Fills (putWord w) [hiByte w, loByte w] :=
  (Fills.put (hiByte w)).bind (Fills.put (loByte w))

/-- A range loop fills the bytes of its rounds, one after the other. -/
theorem Fills.forM {α : Type} {body : α → Encoder Unit} {bytes : α → List Byte}
    (h : ∀ a, Fills (body a) (bytes a)) (as : List α) :
    Fills (as.forM body) (as.flatMap bytes) := by
  induction as with
  | nil => exact Fills.pure
  | cons a as ih => exact (h a).bind ih

end Walk
