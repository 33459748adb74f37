import Mathlib.Data.List.Basic

/-! # Streams read in pieces

A stream is what a peer sends over a whole connection, and a receiver takes it in
pieces it does not choose. `PrefixesOf` relates what a receiver keeps to the
pieces it was given when it keeps at most a prefix of each: if it kept every byte
it kept every piece whole (`PrefixesOf.eq_of_length`). A `Source` is a stream
together with how the next reads of it end; a read takes a prefix of the rest,
whatever happens to it (`read_append`). -/
namespace Stream

variable {α : Type}

/-! ## Keeping prefixes of pieces -/

/-- `ys` are prefixes of some of the pieces, in their order. -/
inductive PrefixesOf : List (List α) → List (List α) → Prop
  | stop (cs : List (List α)) : PrefixesOf [] cs
  | skip {ys cs : List (List α)} (c : List α) (rest : PrefixesOf ys cs) : PrefixesOf ys (c :: cs)
  | keep {ys cs : List (List α)} {y c : List α} (kept : y <+: c) (rest : PrefixesOf ys cs) :
      PrefixesOf (y :: ys) (c :: cs)

theorem PrefixesOf.length_le {ys cs : List (List α)} (h : PrefixesOf ys cs) :
    ys.flatten.length ≤ cs.flatten.length := by
  induction h with
  | stop cs => exact Nat.zero_le _
  | skip c _ ih =>
    rw [List.flatten_cons, List.length_append]
    exact Nat.le_add_left_of_le ih
  | keep kept _ ih =>
    rw [List.flatten_cons, List.flatten_cons, List.length_append, List.length_append]
    exact Nat.add_le_add kept.length_le ih

/-- A receiver that kept as many elements as the pieces have kept the pieces. -/
theorem PrefixesOf.eq_of_length {ys cs : List (List α)} (h : PrefixesOf ys cs)
    (hne : ∀ c ∈ cs, c ≠ []) (hlen : ys.flatten.length = cs.flatten.length) : ys = cs := by
  induction h with
  | stop cs =>
    cases cs with
    | nil => rfl
    | cons c cs =>
      have hpos := List.length_pos_iff.mpr (hne c List.mem_cons_self)
      rw [List.flatten_cons, List.length_append, List.flatten_nil, List.length_nil] at hlen
      omega
  | skip c rest ih =>
    have hpos := List.length_pos_iff.mpr (hne c List.mem_cons_self)
    have hle := rest.length_le
    rw [List.flatten_cons, List.length_append] at hlen
    omega
  | @keep ys cs y c kept rest ih =>
    have hle := rest.length_le
    have hkept := kept.length_le
    rw [List.flatten_cons, List.flatten_cons, List.length_append, List.length_append] at hlen
    have hy : y = c := kept.eq_of_length (by omega)
    have hys : ys = cs := ih (fun d hd => hne d (List.mem_cons_of_mem c hd)) (by omega)
    rw [hy, hys]

/-- Prefixes of every piece make up what the pieces do only when each is whole. -/
theorem flatten_eq_iff_of_prefixes {ys cs : List (List α)} (h : List.Forall₂ (· <+: ·) ys cs) :
    ys.flatten = cs.flatten ↔ ys = cs := by
  constructor
  · intro heq
    induction h with
    | nil => rfl
    | @cons y c ys cs kept rest ih =>
      have hle : ys.flatten.length ≤ cs.flatten.length := by
        clear ih heq
        induction rest with
        | nil => exact Nat.le_refl _
        | cons kept _ ih =>
          rw [List.flatten_cons, List.flatten_cons, List.length_append, List.length_append]
          exact Nat.add_le_add kept.length_le ih
      have hkept := kept.length_le
      have hlen := congrArg List.length heq
      rw [List.flatten_cons, List.flatten_cons] at heq
      rw [List.flatten_cons, List.flatten_cons, List.length_append, List.length_append] at hlen
      obtain ⟨hy, hys⟩ := List.append_inj heq (by omega)
      rw [hy, ih hys]
  · intro heq
    rw [heq]

/-! ## Interruptible reads -/

/-- How a read ends early: with an error or without, after `count` elements. -/
structure Cut (ε : Type) where
  error : Option ε
  count : Nat
deriving DecidableEq, Repr

/-- A stream and how the next reads of it end; reads beyond the plan run to their
end. -/
structure Source (α ε : Type) where
  rest : List α
  plan : List (Option (Cut ε))
deriving DecidableEq, Repr

section Read
variable {ε : Type} (atEnd : ε)

/-- Read `n` elements. A read that is not cut delivers all of them, or fails with
`atEnd` when the stream has fewer. -/
def read (n : Nat) (s : Source α ε) : Option ε × List α × Source α ε :=
  match s.plan.head?.join with
  | some cut =>
    (cut.error, s.rest.take (min cut.count n), ⟨s.rest.drop (min cut.count n), s.plan.tail⟩)
  | none =>
    if n ≤ s.rest.length then (none, s.rest.take n, ⟨s.rest.drop n, s.plan.tail⟩)
    else (some atEnd, s.rest, ⟨[], s.plan.tail⟩)

/-- A read moves a prefix of the stream to the reader and loses nothing. -/
theorem read_append {n : Nat} {s s' : Source α ε} {e : Option ε} {xs : List α}
    (h : read atEnd n s = (e, xs, s')) : xs ++ s'.rest = s.rest := by
  unfold read at h
  split at h
  · cases h
    exact List.take_append_drop _ _
  · split at h
    · cases h
      exact List.take_append_drop _ _
    · cases h
      exact List.append_nil _

/-- A read whose count is right read exactly that. -/
theorem read_full {n : Nat} {s s' : Source α ε} {e : Option ε} {xs : List α}
    (h : read atEnd n s = (e, xs, s')) (hlen : xs.length = n) :
    xs = s.rest.take n ∧ s'.rest = s.rest.drop n := by
  have happ := read_append atEnd h
  subst hlen
  rw [← happ, List.take_left, List.drop_left]
  exact ⟨rfl, rfl⟩

/-- Without a plan a read that the stream can serve is served. -/
theorem read_unplanned {n : Nat} {rest : List α} (hle : n ≤ rest.length) :
    read atEnd n ⟨rest, []⟩ = (none, rest.take n, ⟨rest.drop n, []⟩) := by
  simp only [read, List.head?_nil, Option.join_none, if_pos hle, List.tail_nil]

end Read

end Stream
