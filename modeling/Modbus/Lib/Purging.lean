import Mathlib.Data.List.Basic

/-! # What a party can tell about the others

A machine takes actions one after the other and gives some outputs for each. A party has
actions of its own and sees some of the outputs. When states that look alike to it give
the same answer to an action of its own, and the actions of others show nothing to it and
leave the look of the state (`Unwinding`), then it sees what it would see without the
others (`Unwinding.purge`). -/
namespace Purging

variable {σ α β : Type}

/-- The outputs for the actions, in order, and the state afterwards. -/
def run (act : σ → α → List β × σ) : σ → List α → List β × σ
  | s, [] => ([], s)
  | s, a :: actions =>
    ((act s a).1 ++ (run act (act s a).2 actions).1, (run act (act s a).2 actions).2)

/-- The two conditions, on the actions that are allowed to the parties. -/
structure Unwinding (act : σ → α → List β × σ) (Allowed Own : α → Prop) (sees : β → Bool)
    (Alike : σ → σ → Prop) : Prop where
  own : ∀ s t a, Allowed a → Own a → Alike s t →
    (act s a).1.filter sees = (act t a).1.filter sees ∧ Alike (act s a).2 (act t a).2
  other : ∀ s t a, Allowed a → ¬ Own a → Alike s t →
    (act s a).1.filter sees = [] ∧ Alike (act s a).2 t

variable {act : σ → α → List β × σ} {Allowed Own : α → Prop} [DecidablePred Own]
  {sees : β → Bool} {Alike : σ → σ → Prop}

theorem Unwinding.purge (h : Unwinding act Allowed Own sees Alike) (actions : List α) {s t : σ}
    (hallowed : ∀ a ∈ actions, Allowed a) (halike : Alike s t) :
    (run act s actions).1.filter sees =
        (run act t (actions.filter fun a => Own a)).1.filter sees ∧
      Alike (run act s actions).2 (run act t (actions.filter fun a => Own a)).2 := by
  induction actions generalizing s t with
  | nil => exact ⟨rfl, halike⟩
  | cons a actions ih =>
    have ha := hallowed a List.mem_cons_self
    have hrest := fun b hb => hallowed b (List.mem_cons_of_mem a hb)
    by_cases hown : Own a
    · obtain ⟨houtputs, hnext⟩ := h.own s t a ha hown halike
      obtain ⟨hseen, hend⟩ := ih hrest hnext
      simp only [List.filter_cons, decide_eq_true hown, if_true, run, List.filter_append]
      exact ⟨by rw [houtputs, hseen], hend⟩
    · obtain ⟨hnothing, hnext⟩ := h.other s t a ha hown halike
      obtain ⟨hseen, hend⟩ := ih hrest hnext
      simp only [List.filter_cons, decide_eq_false hown, Bool.false_eq_true, if_false, run,
        List.filter_append]
      exact ⟨by rw [hnothing, hseen, List.nil_append], hend⟩

end Purging
