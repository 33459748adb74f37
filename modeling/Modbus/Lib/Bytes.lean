import Mathlib.Data.List.Basic

/-! # Bytes, big-endian words and the bits of a byte vector

A word is two bytes, high byte first. The bits of a byte vector are numbered
from the low bit of its first byte (`bitAt`), and the two ways of moving a
vector by fewer than eight bits are described by the bit that ends up at each
position. -/
namespace Bytes

abbrev Byte := BitVec 8
abbrev Word := BitVec 16

/-! ## Big-endian words -/

/-- `w = hi << 8; w += lo`. -/
def word (hi lo : Byte) : Word := (hi.setWidth 16 <<< 8) + lo.setWidth 16

/-- `(uint8_t)(w >> 8)`. -/
def hiByte (w : Word) : Byte := (w >>> 8).setWidth 8

/-- `(uint8_t)(w & 0x00FF)`. -/
def loByte (w : Word) : Byte := (w &&& 0x00FF#16).setWidth 8

theorem toNat_word (hi lo : Byte) : (word hi lo).toNat = 256 * hi.toNat + lo.toNat := by
  have h1 := hi.isLt
  have h2 := lo.isLt
  simp only [word, BitVec.toNat_add, BitVec.toNat_shiftLeft, BitVec.toNat_setWidth,
    Nat.shiftLeft_eq]
  omega

theorem toNat_hiByte (w : Word) : (hiByte w).toNat = w.toNat / 256 := by
  have h := w.isLt
  simp only [hiByte, BitVec.toNat_setWidth, BitVec.toNat_ushiftRight, Nat.shiftRight_eq_div_pow]
  omega

theorem toNat_loByte (w : Word) : (loByte w).toNat = w.toNat % 256 := by
  have hmask : w.toNat &&& 255 = w.toNat % 256 := Nat.and_two_pow_sub_one_eq_mod w.toNat 8
  simp only [loByte, BitVec.toNat_setWidth, BitVec.toNat_and, BitVec.toNat_ofNat,
    Nat.reduceMod, Nat.reducePow, hmask, Nat.mod_mod]

/-- Masking the low byte and then truncating is truncating. -/
theorem loByte_eq (w : Word) : loByte w = w.setWidth 8 := by
  apply BitVec.eq_of_toNat_eq
  rw [toNat_loByte, BitVec.toNat_setWidth]

@[simp] theorem word_hi_lo (w : Word) : word (hiByte w) (loByte w) = w := by
  apply BitVec.eq_of_toNat_eq
  rw [toNat_word, toNat_hiByte, toNat_loByte]
  omega

@[simp] theorem hiByte_word (hi lo : Byte) : hiByte (word hi lo) = hi := by
  apply BitVec.eq_of_toNat_eq
  have h := lo.isLt
  rw [toNat_hiByte, toNat_word]
  omega

@[simp] theorem loByte_word (hi lo : Byte) : loByte (word hi lo) = lo := by
  apply BitVec.eq_of_toNat_eq
  have h := lo.isLt
  rw [toNat_loByte, toNat_word]
  omega

/-- The words of a byte vector; an odd last byte belongs to none. -/
def wordsOf : List Byte → List Word
  | hi :: lo :: rest => word hi lo :: wordsOf rest
  | _ => []

def bytesOf (ws : List Word) : List Byte := ws.flatMap fun w => [hiByte w, loByte w]

@[simp] theorem bytesOf_nil : bytesOf [] = [] := rfl

@[simp] theorem bytesOf_cons (w : Word) (ws : List Word) :
    bytesOf (w :: ws) = hiByte w :: loByte w :: bytesOf ws := rfl

@[simp] theorem length_bytesOf (ws : List Word) : (bytesOf ws).length = 2 * ws.length := by
  induction ws with
  | nil => rfl
  | cons w ws ih => simp only [bytesOf_cons, List.length_cons, ih]; omega

theorem getElem?_bytesOf_hi (ws : List Word) (i : Nat) :
    (bytesOf ws)[2 * i]? = ws[i]?.map hiByte := by
  induction ws generalizing i with
  | nil => rfl
  | cons w ws ih =>
    cases i with
    | zero => rfl
    | succ i => exact ih i

theorem getElem?_bytesOf_lo (ws : List Word) (i : Nat) :
    (bytesOf ws)[2 * i + 1]? = ws[i]?.map loByte := by
  induction ws generalizing i with
  | nil => rfl
  | cons w ws ih =>
    cases i with
    | zero => rfl
    | succ i => exact ih i

@[simp] theorem wordsOf_bytesOf (ws : List Word) : wordsOf (bytesOf ws) = ws := by
  induction ws with
  | nil => rfl
  | cons w ws ih => simp [wordsOf, ih]

theorem length_wordsOf : ∀ bs : List Byte, (wordsOf bs).length = bs.length / 2
  | [] => rfl
  | [_] => by simp [wordsOf]
  | _ :: _ :: rest => by
    simp only [wordsOf, List.length_cons, length_wordsOf rest]
    omega

theorem bytesOf_wordsOf : ∀ (n : Nat) (bs : List Byte), bs.length = 2 * n → bytesOf (wordsOf bs) = bs
  | 0, bs, h => by
    rw [List.length_eq_zero_iff.mp h]
    rfl
  | n + 1, [], h => by simp at h
  | n + 1, [_], h => by simp at h; omega
  | n + 1, hi :: lo :: rest, h => by
    have hrest : rest.length = 2 * n := by simp at h; omega
    rw [wordsOf, bytesOf_cons, hiByte_word, loByte_word, bytesOf_wordsOf n rest hrest]

theorem bytesOf_take : ∀ (ws : List Word) (n : Nat), (bytesOf ws).take (2 * n) = bytesOf (ws.take n)
  | [], n => by simp
  | w :: ws, 0 => rfl
  | w :: ws, n + 1 => by
    rw [show 2 * (n + 1) = 2 * n + 1 + 1 by omega]
    simp only [bytesOf_cons, List.take_succ_cons, bytesOf_take ws n]

/-! ## The bits of a byte vector -/

/-- Bit `j % 8` of byte `j / 8`. -/
def bitAt (bs : List Byte) (j : Nat) : Bool := (bs.getD (j / 8) 0).getLsbD (j % 8)

theorem bitAt_of_getElem? {bs : List Byte} {i p : Nat} {x : Byte} (h : bs[i]? = some x)
    (hp : p < 8) : bitAt bs (8 * i + p) = x.getLsbD p := by
  have hi : (8 * i + p) / 8 = i := by omega
  have hm : (8 * i + p) % 8 = p := by omega
  simp [bitAt, hi, hm, h]

theorem bitAt_set_eq {bs : List Byte} {i p : Nat} {x : Byte} (h : i < bs.length) (hp : p < 8) :
    bitAt (bs.set i x) (8 * i + p) = x.getLsbD p :=
  bitAt_of_getElem? (List.getElem?_set_self h) hp

theorem bitAt_set_ne {bs : List Byte} {i j : Nat} {x : Byte} (h : j / 8 ≠ i) :
    bitAt (bs.set i x) j = bitAt bs j := by
  simp [bitAt, List.getElem?_set_ne (Ne.symm h)]

/-- A set bit is a bit of a byte of the vector. -/
theorem exists_of_bitAt {bs : List Byte} {j : Nat} (h : bitAt bs j = true) :
    ∃ x, bs[j / 8]? = some x ∧ x.getLsbD (j % 8) = true := by
  cases hx : bs[j / 8]? with
  | none => simp [bitAt, hx] at h
  | some x =>
    refine ⟨x, rfl, ?_⟩
    simpa [bitAt, hx] using h

theorem lt_length_of_bitAt {bs : List Byte} {j : Nat} (h : bitAt bs j = true) :
    j / 8 < bs.length := by
  obtain ⟨x, hx, _⟩ := exists_of_bitAt h
  exact (List.getElem?_eq_some_iff.mp hx).1

theorem bitAt_of_length_le {bs : List Byte} {j : Nat} (h : bs.length ≤ j / 8) :
    bitAt bs j = false := by
  simp [bitAt, List.getElem?_eq_none h]

/-- Byte vectors of one length are equal when their bits are. -/
theorem eq_of_bitAt {xs ys : List Byte} (hlen : xs.length = ys.length)
    (h : ∀ j < 8 * xs.length, bitAt xs j = bitAt ys j) : xs = ys := by
  apply List.ext_getElem hlen
  intro i hx hy
  apply BitVec.eq_of_getLsbD_eq
  intro p hp
  have hbit := h (8 * i + p) (by omega)
  rwa [bitAt_of_getElem? (List.getElem?_eq_getElem hx) hp,
    bitAt_of_getElem? (List.getElem?_eq_getElem hy) hp] at hbit

/-- The byte with one bit set. -/
theorem getLsbD_one_shl {p : Nat} (q : Nat) (hp : p < 8) :
    (1#8 <<< q).getLsbD p = decide (p = q) := by
  simp only [BitVec.getLsbD_shiftLeft, BitVec.getLsbD_one, hp, decide_true, Bool.true_and]
  by_cases h : p < q
  · simp [h, Nat.ne_of_lt h]
  · simp [h, show p - q = 0 ↔ p = q by omega]

/-- Moving down: the low bits of the next byte come in at the top. -/
theorem getLsbD_shr_or_shl (x y : Byte) {s p : Nat} (hs : s < 8) (hp : p < 8) :
    ((x >>> s) ||| (y <<< (8 - s))).getLsbD p =
      if s + p < 8 then x.getLsbD (s + p) else y.getLsbD (s + p - 8) := by
  simp only [BitVec.getLsbD_or, BitVec.getLsbD_ushiftRight, BitVec.getLsbD_shiftLeft, hp,
    decide_true, Bool.true_and]
  split
  · next h => simp [show p < 8 - s by omega]
  · next h =>
    have hx : x.getLsbD (s + p) = false := BitVec.getLsbD_of_ge _ _ (by omega)
    simp [hx, show ¬ p < 8 - s by omega, show p - (8 - s) = s + p - 8 by omega]

/-- Moving up: the high bits of the previous byte come in at the bottom. -/
theorem getLsbD_shl_or_shr (x y : Byte) {s p : Nat} (hs : s < 8) (hp : p < 8) :
    ((x <<< s) ||| (y >>> (8 - s))).getLsbD p =
      if p < s then y.getLsbD (8 - s + p) else x.getLsbD (p - s) := by
  simp only [BitVec.getLsbD_or, BitVec.getLsbD_ushiftRight, BitVec.getLsbD_shiftLeft, hp,
    decide_true, Bool.true_and]
  split
  · next h => simp [h]
  · next h =>
    have hy : y.getLsbD (8 - s + p) = false := BitVec.getLsbD_of_ge _ _ (by omega)
    simp [hy, h]

end Bytes
