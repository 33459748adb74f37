import Mathlib.Logic.Basic

/-! # Runs of a transition function

A system is a step function: `step s a` is the state after the event `a`, or
nothing when the event cannot happen in `s`. A run is a sequence of steps that all
meet a guard on the event and the state before it; with the guard that allows
everything it is any run. An invariant of the steps is an invariant of the runs
(`Run.invariant`), and runs can be followed in a second system along a map of the
states (`Run.simulate`). A trace is a run with its events; a budget that some events use
up and no event adds to bounds how many of them there are (`Trace.count_le`). Where some
steps of a program have no meaning, `orUndefined` lets them lead to a state of which
nothing is known; a run that ends in a known state took none of them (`Run.defined`). -/
namespace Transition

variable {σ τ α β : Type}

inductive Run (step : σ → α → Option σ) (guard : σ → α → Prop) (s : σ) : σ → Prop
  | refl : Run step guard s s
  | tail {t u : σ} {a : α} (before : Run step guard s t) (allowed : guard t a)
      (next : step t a = some u) : Run step guard s u

/-- Some run, with no guard on its steps, leads there. -/
abbrev Reachable (step : σ → α → Option σ) : σ → σ → Prop := Run step fun _ _ => True

section Rules
variable {step : σ → α → Option σ} {guard : σ → α → Prop} {s t u : σ}

theorem Run.trans (h : Run step guard s t) (h' : Run step guard t u) : Run step guard s u := by
  induction h' with
  | refl => exact h
  | tail _ allowed next ih => exact .tail ih allowed next

theorem Run.single {a : α} (allowed : guard s a) (next : step s a = some t) : Run step guard s t :=
  .tail .refl allowed next

/-- A run is a run also when nothing is asked of its steps. -/
theorem Run.reachable (h : Run step guard s t) : Reachable step s t := by
  induction h with
  | refl => exact .refl
  | tail _ _ next ih => exact .tail ih trivial next

/-- What holds at the start and is kept by every allowed step holds at the end. -/
theorem Run.invariant (Inv : σ → Prop) (h : Run step guard s t) (hinit : Inv s)
    (hstep : ∀ t a u, Inv t → guard t a → step t a = some u → Inv u) : Inv t := by
  induction h with
  | refl => exact hinit
  | tail _ allowed next ih => exact hstep _ _ _ ih allowed next

/-- A step that a second system can follow in zero or more steps of its own, from
every state that meets an invariant, makes its runs runs of that system. -/
theorem Run.simulate {step' : τ → β → Option τ} {guard' : τ → β → Prop} {Inv : σ → Prop}
    (f : σ → τ) (hinv : ∀ t a u, Inv t → guard t a → step t a = some u → Inv u)
    (hsim : ∀ t a u, Inv t → guard t a → step t a = some u → Run step' guard' (f t) (f u))
    (hinit : Inv s) (h : Run step guard s t) : Run step' guard' (f s) (f t) := by
  have hboth : Inv t ∧ Run step' guard' (f s) (f t) := by
    induction h with
    | refl => exact ⟨hinit, .refl⟩
    | tail _ allowed next ih =>
      exact ⟨hinv _ _ _ ih.1 allowed next, ih.2.trans (hsim _ _ _ ih.1 allowed next)⟩
  exact hboth.2

/-- Take the events one after the other, as long as the guard allows them. -/
def exec (step : σ → α → Option σ) (guard : σ → α → Prop) [∀ s a, Decidable (guard s a)] :
    σ → List α → Option σ
  | s, [] => some s
  | s, a :: events =>
    if guard s a then (step s a).bind fun t => exec step guard t events else none

theorem Run.of_exec [∀ s a, Decidable (guard s a)] (events : List α)
    (h : exec step guard s events = some t) : Run step guard s t := by
  induction events generalizing s with
  | nil =>
    cases h
    exact .refl
  | cons a events ih =>
    simp only [exec] at h
    split at h
    · next allowed =>
      obtain ⟨u, hu, hrest⟩ := Option.bind_eq_some_iff.mp h
      exact (Run.single allowed hu).trans (ih hrest)
    · cases h

end Rules

/-! ## Traces -/

/-- The events lead from one state to the other. -/
inductive Trace (step : σ → α → Option σ) (s : σ) : List α → σ → Prop
  | nil : Trace step s [] s
  | snoc {events : List α} {t u : σ} {a : α} (before : Trace step s events t)
      (next : step t a = some u) : Trace step s (events ++ [a]) u

section Budgets
variable {step : σ → α → Option σ} {s t : σ} {events : List α}

theorem Trace.cons {u : σ} {a : α} (next : step s a = some t) (h : Trace step t events u) :
    Trace step s (a :: events) u := by
  induction h with
  | nil => exact .snoc .nil next
  | snoc _ last ih => exact .snoc ih last

theorem Trace.of_exec (events : List α) (h : exec step (fun _ _ => True) s events = some t) :
    Trace step s events t := by
  induction events generalizing s with
  | nil =>
    cases h
    exact .nil
  | cons a events ih =>
    obtain ⟨u, hu, hrest⟩ := Option.bind_eq_some_iff.mp h
    exact .cons hu (ih hrest)

/-- As long as an invariant holds, the events of a kind use up a budget. -/
theorem Trace.count_le (Inv : σ → Prop) (p : α → Bool) (budget : σ → Nat)
    (hinv : ∀ t a u, Inv t → step t a = some u → Inv u)
    (hpays : ∀ t a u, Inv t → step t a = some u → p a = true → budget u < budget t)
    (hkeeps : ∀ t a u, Inv t → step t a = some u → p a = false → budget u ≤ budget t)
    (hinit : Inv s) (h : Trace step s events t) :
    Inv t ∧ events.countP p + budget t ≤ budget s := by
  induction h with
  | nil => exact ⟨hinit, by simp⟩
  | @snoc events t u a _ next ih =>
    obtain ⟨ht, hle⟩ := ih
    refine ⟨hinv t a u ht next, ?_⟩
    rw [List.countP_append, List.countP_singleton]
    cases hp : p a with
    | true =>
      have hless := hpays t a u ht next hp
      rw [if_pos rfl]
      omega
    | false =>
      have hless := hkeeps t a u ht next hp
      rw [if_neg Bool.false_ne_true]
      omega

end Budgets

/-! ## Steps without a meaning -/

/-- The system with the steps that have no meaning. They lead to `none`, of which nothing
is known and which no step leaves. -/
def orUndefined (undef : σ → α → Prop) [∀ s a, Decidable (undef s a)] (step : σ → α → Option σ) :
    Option σ → α → Option (Option σ)
  | none, _ => some none
  | some s, a => if undef s a then some none else (step s a).map some

section Undefined
variable {step : σ → α → Option σ} {undef : σ → α → Prop} [∀ s a, Decidable (undef s a)]
  {s t : σ} {a : α}

theorem orUndefined_none (h : undef s a) : orUndefined undef step (some s) a = some none :=
  if_pos h

theorem orUndefined_some (h : ¬ undef s a) (next : step s a = some t) :
    orUndefined undef step (some s) a = some (some t) := by
  rw [orUndefined, if_neg h, next, Option.map_some]

/-- A step to a known state is a step of the system that has a meaning. -/
theorem orUndefined_eq_some {u : Option σ} (h : orUndefined undef step u a = some (some t)) :
    ∃ s, u = some s ∧ ¬ undef s a ∧ step s a = some t := by
  cases u with
  | none => cases h
  | some s =>
    rw [orUndefined] at h
    split at h
    · cases h
    · next hdef =>
      obtain ⟨t', next, ht⟩ := Option.map_eq_some_iff.mp h
      cases ht
      exact ⟨s, rfl, hdef, next⟩

/-- A run to a known state is a run of the system whose steps all have a meaning. -/
theorem Run.defined {guard : Option σ → α → Prop}
    (h : Run (orUndefined undef step) guard (some s) (some t)) :
    Run step (fun s a => ¬ undef s a) s t := by
  generalize ht : some t = t' at h
  induction h generalizing t with
  | refl =>
    cases ht
    exact .refl
  | tail _ _ next ih =>
    subst ht
    obtain ⟨u, rfl, hdef, hstep⟩ := orUndefined_eq_some next
    exact .tail (ih rfl) hdef hstep

theorem Trace.defined {events : List α}
    (h : Trace (orUndefined undef step) (some s) events (some t)) : Trace step s events t := by
  generalize ht : some t = t' at h
  induction h generalizing t with
  | nil =>
    cases ht
    exact .nil
  | snoc _ next ih =>
    subst ht
    obtain ⟨u, rfl, _, hstep⟩ := orUndefined_eq_some next
    exact .snoc (ih rfl) hstep

end Undefined

end Transition
