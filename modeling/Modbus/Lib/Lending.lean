import Mathlib.Data.List.Count
import Mathlib.Logic.Function.Basic

/-! # Lending and giving back

Holders take resources from a lender, one each, and give them back. The lender keeps two
lists, of what it lent and of what it got back. As long as it lends only what is balanced
in its lists, no resource is with two holders, and a resource is with a holder exactly
when it was lent once more than it was given back (`Balanced`). -/
namespace Lending

variable {ι κ : Type} [DecidableEq κ]

/-- The lists say of every resource whether it is with a holder, and with one at most. -/
structure Balanced (holding : ι → Option κ) (lent returned : List κ) : Prop where
  exclusive : ∀ {i j : ι} {k : κ}, holding i = some k → holding j = some k → i = j
  held : ∀ {i : ι} {k : κ}, holding i = some k → lent.count k = returned.count k + 1
  free : ∀ {k : κ}, (∀ i, holding i ≠ some k) → lent.count k = returned.count k

theorem Balanced.empty : Balanced (fun _ : ι => (none : Option κ)) [] [] :=
  ⟨nofun, nofun, fun _ => rfl⟩

section Operations
variable {holding : ι → Option κ} {lent returned : List κ} {i : ι} {k : κ}

/-- What is balanced in the lists is with nobody. -/
theorem Balanced.not_held (h : Balanced holding lent returned)
    (hk : lent.count k = returned.count k) (j : ι) : holding j ≠ some k := by
  intro hj
  have hcount := h.held hj
  omega

/-- Once nobody has anything, everything was given back as often as it was lent. -/
theorem Balanced.perm (h : Balanced holding lent returned) (hnone : ∀ i, holding i = none) :
    lent.Perm returned := by
  refine List.perm_iff_count.mpr fun k => h.free fun i hi => ?_
  rw [hnone i] at hi
  cases hi

variable [DecidableEq ι]

/-- A holder takes a resource that is balanced. -/
theorem Balanced.take (h : Balanced holding lent returned) (hi : holding i = none)
    (hk : lent.count k = returned.count k) :
    Balanced (Function.update holding i (some k)) (lent ++ [k]) returned := by
  have hnone := h.not_held hk
  have hcount : ∀ x, (lent ++ [k]).count x = lent.count x + if k = x then 1 else 0 := by
    intro x
    simp [List.count_append, List.count_singleton]
  -- what a holder has afterwards is the new resource, or it had it before
  have hcases : ∀ {j x}, Function.update holding i (some k) j = some x →
      (j = i ∧ x = k) ∨ (holding j = some x ∧ x ≠ k) := by
    intro j x hj
    by_cases hne : j = i
    · subst hne
      rw [Function.update_self] at hj
      exact .inl ⟨rfl, (Option.some.inj hj).symm⟩
    · rw [Function.update_of_ne hne] at hj
      refine .inr ⟨hj, ?_⟩
      rintro rfl
      exact hnone j hj
  refine ⟨fun hj hj' => ?_, fun hj => ?_, fun {x} hx => ?_⟩
  · rcases hcases hj with ⟨rfl, rfl⟩ | ⟨hold, hne⟩
    · rcases hcases hj' with ⟨rfl, _⟩ | ⟨_, hne⟩
      · rfl
      · exact absurd rfl hne
    · rcases hcases hj' with ⟨rfl, rfl⟩ | ⟨hold', _⟩
      · exact absurd rfl hne
      · exact h.exclusive hold hold'
  · rw [hcount]
    rcases hcases hj with ⟨rfl, rfl⟩ | ⟨hold, hne⟩
    · rw [if_pos rfl, hk]
    · rw [if_neg (Ne.symm hne), Nat.add_zero]
      exact h.held hold
  · have hne : k ≠ x := by
      rintro rfl
      exact hx i (Function.update_self ..)
    rw [hcount, if_neg hne, Nat.add_zero]
    refine h.free fun j hj => hx j ?_
    rw [Function.update_of_ne ?_, hj]
    rintro rfl
    rw [hi] at hj
    cases hj

/-- A holder gives back what it has. -/
theorem Balanced.give (h : Balanced holding lent returned) (hi : holding i = some k) :
    Balanced (Function.update holding i none) lent (returned ++ [k]) := by
  have hcount : ∀ x, (returned ++ [k]).count x = returned.count x + if k = x then 1 else 0 := by
    intro x
    simp [List.count_append, List.count_singleton]
  have hold : ∀ {j x}, Function.update holding i none j = some x → j ≠ i ∧ holding j = some x := by
    intro j x hj
    by_cases hne : j = i
    · subst hne
      rw [Function.update_self] at hj
      cases hj
    · rw [Function.update_of_ne hne] at hj
      exact ⟨hne, hj⟩
  refine ⟨fun hj hj' => h.exclusive (hold hj).2 (hold hj').2, fun {j x} hj => ?_, fun {x} hx => ?_⟩
  · obtain ⟨hne, hj⟩ := hold hj
    have hother : k ≠ x := by
      rintro rfl
      exact hne (h.exclusive hj hi)
    rw [hcount, if_neg hother, Nat.add_zero]
    exact h.held hj
  · rw [hcount]
    by_cases hk : k = x
    · subst hk
      rw [if_pos rfl]
      exact h.held hi
    · rw [if_neg hk, Nat.add_zero]
      refine h.free fun j hj => hx j ?_
      rw [Function.update_of_ne ?_, hj]
      rintro rfl
      rw [hi] at hj
      exact hk (Option.some.inj hj)

end Operations

end Lending
