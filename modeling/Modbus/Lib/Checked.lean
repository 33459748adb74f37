import Mathlib.Data.List.Basic

/-! # Checked indexing and counting loops

Indexing past the end of a vector and overflowing a signed integer have no
meaning in the source language. Here both are a `Fault`, so "every index used
is in range" says that a run ends in `.ok`. A counting loop is `loop`, and its
two rules below carry an invariant through it: `loop_total` also shows that the
loop ends without a fault, `loop_invariant` starts from a run that did. -/
namespace Checked

inductive Fault where
  | outOfRange (index size : Nat)
  | intOverflow
deriving DecidableEq, Repr

/-- The largest 32-bit signed integer. -/
def intMax : Nat := 2147483647

/-- A non-negative signed 32-bit result, when it is one. -/
def int (n : Nat) : Except Fault Nat :=
  if n ≤ intMax then .ok n else .error .intOverflow

def get {α : Type} (xs : List α) (i : Nat) : Except Fault α :=
  match xs[i]? with
  | some x => .ok x
  | none => .error (.outOfRange i xs.length)

def set {α : Type} (xs : List α) (i : Nat) (x : α) : Except Fault (List α) :=
  if i < xs.length then .ok (xs.set i x) else .error (.outOfRange i xs.length)

/-- `xs[i] = f(xs[i])`. -/
def modify {α : Type} (xs : List α) (i : Nat) (f : α → α) : Except Fault (List α) := do
  let x ← get xs i
  set xs i (f x)

/-- `count` rounds of the body, at `i`, `i + 1`, and so on. -/
def loopFrom {σ : Type} (body : Nat → σ → Except Fault σ) : Nat → Nat → σ → Except Fault σ
  | 0, _, s => .ok s
  | count + 1, i, s => do
    let s ← body i s
    loopFrom body count (i + 1) s

/-- `for (i = lo; i < hi; i++)`. -/
def loop {σ : Type} (lo hi : Nat) (body : Nat → σ → Except Fault σ) (s : σ) : Except Fault σ :=
  loopFrom body (hi - lo) lo s

/-! ## What a run that did not fault says -/

@[simp] theorem bind_ok {ε α β : Type} {x : Except ε α} {f : α → Except ε β} {r : β} :
    (x >>= f) = .ok r ↔ ∃ a, x = .ok a ∧ f a = .ok r := by
  cases x with
  | error e =>
    constructor
    · intro h; cases h
    · rintro ⟨a, h, _⟩; cases h
  | ok a =>
    constructor
    · intro h; exact ⟨a, rfl, h⟩
    · rintro ⟨b, h, hf⟩; cases h; exact hf

@[simp] theorem ok_bind {ε α β : Type} {a : α} {f : α → Except ε β} :
    ((Except.ok a : Except ε α) >>= f) = f a := rfl

@[simp] theorem pure_eq_ok {ε α : Type} {a : α} : (pure a : Except ε α) = .ok a := rfl

@[simp] theorem mapError_ok {ε ε' α : Type} {f : ε → ε'} {x : Except ε α} {a : α} :
    x.mapError f = .ok a ↔ x = .ok a := by
  cases x with
  | error e => simp [Except.mapError]
  | ok b => simp [Except.mapError]

@[simp] theorem int_ok {n m : Nat} : int n = .ok m ↔ n ≤ intMax ∧ n = m := by
  by_cases h : n ≤ intMax <;> simp [int, h]

@[simp] theorem get_ok {α : Type} {xs : List α} {i : Nat} {x : α} :
    get xs i = .ok x ↔ xs[i]? = some x := by
  unfold get
  split <;> simp_all

/-- An index in range has an element. -/
theorem exists_get {α : Type} {xs : List α} {i : Nat} (h : i < xs.length) :
    ∃ x, xs[i]? = some x :=
  ⟨xs[i], List.getElem?_eq_getElem h⟩

@[simp] theorem set_ok {α : Type} {xs ys : List α} {i : Nat} {x : α} :
    set xs i x = .ok ys ↔ i < xs.length ∧ xs.set i x = ys := by
  by_cases h : i < xs.length <;> simp [set, h]

theorem modify_ok {α : Type} {xs ys : List α} {i : Nat} {f : α → α} :
    modify xs i f = .ok ys ↔ ∃ x, xs[i]? = some x ∧ xs.set i (f x) = ys := by
  simp only [modify, bind_ok, get_ok, set_ok]
  constructor
  · rintro ⟨x, hx, _, hs⟩
    exact ⟨x, hx, hs⟩
  · rintro ⟨x, hx, hs⟩
    exact ⟨x, hx, (List.getElem?_eq_some_iff.mp hx).1, hs⟩

/-- A search that did not fault and did not stop early saw `true` everywhere. -/
theorem allM_ok_true {ε α : Type} {f : α → Except ε Bool} {xs : List α} :
    xs.allM f = .ok true ↔ ∀ x ∈ xs, f x = .ok true := by
  induction xs with
  | nil => simp [List.allM]
  | cons x xs ih =>
    rw [List.allM, List.forall_mem_cons, ← ih, bind_ok]
    constructor
    · rintro ⟨b, hb, hrest⟩
      cases b with
      | true => exact ⟨hb, hrest⟩
      | false => cases hrest
    · rintro ⟨hx, hrest⟩
      exact ⟨true, hx, hrest⟩

/-- A search whose tests all return does. -/
theorem allM_total {ε α : Type} {f : α → Except ε Bool} {xs : List α}
    (h : ∀ x ∈ xs, ∃ b, f x = .ok b) : ∃ b, xs.allM f = .ok b := by
  induction xs with
  | nil => exact ⟨true, rfl⟩
  | cons x xs ih =>
    obtain ⟨hx, hxs⟩ := List.forall_mem_cons.mp h
    obtain ⟨b, hb⟩ := hx
    obtain ⟨rest, hrest⟩ := ih hxs
    cases b with
    | true => exact ⟨rest, by rw [List.allM, hb]; exact hrest⟩
    | false => exact ⟨false, by rw [List.allM, hb]; rfl⟩

/-! ## Loops -/

section Loops
variable {σ : Type} {body : Nat → σ → Except Fault σ} {P : Nat → σ → Prop}

theorem loopFrom_total (count i : Nat) (s : σ) (start : P i s)
    (step : ∀ k s, i ≤ k → k < i + count → P k s → ∃ t, body k s = .ok t ∧ P (k + 1) t) :
    ∃ t, loopFrom body count i s = .ok t ∧ P (i + count) t := by
  induction count generalizing i s with
  | zero => exact ⟨s, rfl, start⟩
  | succ count ih =>
    obtain ⟨s', hb, hp⟩ := step i s (Nat.le_refl i) (by omega) start
    obtain ⟨t, ht, hP⟩ := ih (i + 1) s' hp
      (fun k u hk hlt => step k u (by omega) (by omega))
    refine ⟨t, ?_, ?_⟩
    · simp only [loopFrom, hb, ok_bind, ht]
    · rwa [Nat.add_right_comm] at hP

theorem loopFrom_invariant (count i : Nat) (s t : σ) (start : P i s)
    (step : ∀ k s u, i ≤ k → k < i + count → P k s → body k s = .ok u → P (k + 1) u)
    (run : loopFrom body count i s = .ok t) : P (i + count) t := by
  induction count generalizing i s with
  | zero =>
    simp only [loopFrom, Except.ok.injEq] at run
    exact run ▸ start
  | succ count ih =>
    simp only [loopFrom, bind_ok] at run
    obtain ⟨s', hb, run⟩ := run
    have hP := ih (i + 1) s' (step i s s' (Nat.le_refl i) (by omega) start hb)
      (fun k u v hk hlt => step k u v (by omega) (by omega)) run
    rwa [Nat.add_right_comm] at hP

/-- The loop ends without a fault, in a state that has the invariant. -/
theorem loop_total {lo hi : Nat} {s : σ} (hle : lo ≤ hi) (start : P lo s)
    (step : ∀ k s, lo ≤ k → k < hi → P k s → ∃ t, body k s = .ok t ∧ P (k + 1) t) :
    ∃ t, loop lo hi body s = .ok t ∧ P hi t := by
  have h := loopFrom_total (hi - lo) lo s start
    (fun k u hk hlt => step k u hk (by omega))
  rwa [Nat.add_sub_cancel' hle] at h

/-- A loop that ended without a fault kept the invariant. -/
theorem loop_invariant {lo hi : Nat} {s t : σ} (hle : lo ≤ hi) (start : P lo s)
    (step : ∀ k s u, lo ≤ k → k < hi → P k s → body k s = .ok u → P (k + 1) u)
    (run : loop lo hi body s = .ok t) : P hi t := by
  have h := loopFrom_invariant (hi - lo) lo s t start
    (fun k u v hk hlt => step k u v hk (by omega)) run
  rwa [Nat.add_sub_cancel' hle] at h

end Loops

/-! ## Loops that fill a range -/

section Fill
variable {α : Type} {body : Nat → List α → Except Fault (List α)} {f : Nat → α}

/-- `d` holds `f k` at every `k` of the range, and elsewhere what `d₀` holds. -/
structure Filled (lo hi : Nat) (f : Nat → α) (d₀ d : List α) : Prop where
  length_eq : d.length = d₀.length
  inside : ∀ k, lo ≤ k → k < hi → d[k]? = some (f k)
  outside : ∀ k, k < lo ∨ hi ≤ k → d[k]? = d₀[k]?

theorem Filled.empty (lo : Nat) (d : List α) : Filled lo lo f d d :=
  ⟨rfl, fun _ h1 h2 => absurd h1 (by omega), fun _ _ => rfl⟩

theorem Filled.set {lo hi : Nat} {d₀ d : List α} (h : Filled lo hi f d₀ d)
    (hle : lo ≤ hi) (hfit : hi < d₀.length) : Filled lo (hi + 1) f d₀ (d.set hi (f hi)) := by
  refine ⟨by rw [List.length_set, h.length_eq], ?_, ?_⟩
  · intro k hlo hhi
    by_cases hk : k = hi
    · rw [hk, List.getElem?_set_self (by rw [h.length_eq]; exact hfit)]
    · rw [List.getElem?_set_ne (Ne.symm hk)]
      exact h.inside k hlo (by omega)
  · intro k hk
    rw [List.getElem?_set_ne (by omega)]
    exact h.outside k (by omega)

/-- A loop whose round `i` stores `f (i + off)` at `i + off`, given that the rounds
before it did so, fills the range. -/
theorem loop_fill (off : Nat) {lo hi : Nat} {d₀ : List α} (hle : lo ≤ hi) (hfit : hi + off ≤ d₀.length)
    (step : ∀ i d, lo ≤ i → i < hi → Filled (lo + off) (i + off) f d₀ d →
      body i d = .ok (d.set (i + off) (f (i + off)))) :
    ∃ d, loop lo hi body d₀ = .ok d ∧ Filled (lo + off) (hi + off) f d₀ d := by
  apply loop_total (P := fun i d => Filled (lo + off) (i + off) f d₀ d) hle (Filled.empty _ _)
  intro i d hlo hhi hd
  refine ⟨_, step i d hlo hhi hd, ?_⟩
  rw [Nat.add_right_comm]
  exact hd.set (by omega) (by omega)

end Fill

end Checked
