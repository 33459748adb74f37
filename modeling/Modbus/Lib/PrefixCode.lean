import Mathlib.Data.Set.Basic
import Mathlib.Data.List.Infix

/-! # Prefix codes

Words of a code in which none is empty and none continues another can be written one
after the other: of two such streams one continues the other exactly when its words do
(`PrefixFree.flatMap_prefix_iff`), so a stream has one reading. The code may be a prefix
code only on a set of what it encodes. -/
namespace PrefixCode

variable {α β : Type} {code : α → List β} {s : Set α}

/-- On the set, no word is empty, and none is continued by that of another element. -/
structure PrefixFree (code : α → List β) (s : Set α) : Prop where
  nonempty : ∀ a ∈ s, code a ≠ []
  eq_of_prefix : ∀ a ∈ s, ∀ b ∈ s, code a <+: code b → a = b

theorem PrefixFree.flatMap_prefix_iff (h : PrefixFree code s) {xs ys : List α}
    (hxs : ∀ a ∈ xs, a ∈ s) (hys : ∀ a ∈ ys, a ∈ s) :
    xs.flatMap code <+: ys.flatMap code ↔ xs <+: ys := by
  constructor
  · intro hp
    induction xs generalizing ys with
    | nil => exact List.nil_prefix
    | cons a xs ih =>
      obtain ⟨ha, hxs'⟩ := List.forall_mem_cons.mp hxs
      rw [List.flatMap_cons] at hp
      cases ys with
      | nil =>
        have hnil := List.prefix_nil.mp hp
        exact absurd (List.append_eq_nil_iff.mp hnil).1 (h.nonempty a ha)
      | cons b ys =>
        obtain ⟨hb, hys'⟩ := List.forall_mem_cons.mp hys
        rw [List.flatMap_cons] at hp
        -- both words are at the front of the longer stream
        obtain rfl : a = b := by
          rcases List.prefix_or_prefix_of_prefix ((List.prefix_append _ _).trans hp)
            (List.prefix_append _ _) with hab | hba
          · exact h.eq_of_prefix a ha b hb hab
          · exact (h.eq_of_prefix b hb a ha hba).symm
        exact (List.prefix_cons_inj a).mpr (ih hxs' hys' ((List.prefix_append_right_inj _).mp hp))
  · rintro ⟨zs, rfl⟩
    rw [List.flatMap_append]
    exact List.prefix_append _ _

end PrefixCode
