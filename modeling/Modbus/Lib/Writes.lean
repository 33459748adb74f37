import Mathlib.Logic.Function.Basic
import Mathlib.Data.List.Induction
import Mathlib.Data.Set.Piecewise
import Modbus.Lib.Checked

/-! # Stores as maps

A store is a map from keys to values, and a write changes it at one key. After a
list of writes a key holds the last value written to it, or what it held before
(`applyWrites_eq`). A program whose every operation amounts to some writes on
what its state shows amounts to all of them over a whole run (`run_refines`). An
operation may also set a whole set of keys to values that do not depend on the state
(`Sets`); it then changes nothing the second time, and two of them on disjoint sets
can be swapped. -/
namespace Writes
open Checked

section Map
variable {κ β : Type} [DecidableEq κ]

/-- The map after the writes, in order. -/
def applyWrites (init : κ → β) (ws : List (κ × β)) : κ → β :=
  ws.foldl (fun m w => Function.update m w.1 w.2) init

/-- The last value written to `k`, or its initial one. -/
def lastWritten (init : κ → β) (ws : List (κ × β)) (k : κ) : β :=
  match (ws.filter fun w => w.1 = k).getLast? with
  | some w => w.2
  | none => init k

theorem applyWrites_append (init : κ → β) (ws vs : List (κ × β)) :
    applyWrites init (ws ++ vs) = applyWrites (applyWrites init ws) vs :=
  List.foldl_append

theorem applyWrites_eq (init : κ → β) (ws : List (κ × β)) :
    applyWrites init ws = lastWritten init ws := by
  funext k
  induction ws using List.reverseRecOn with
  | nil => rfl
  | append_singleton ws w ih =>
    rw [applyWrites_append]
    simp only [applyWrites, List.foldl_cons, List.foldl_nil, Function.update_apply] at ih ⊢
    by_cases hk : w.1 = k
    · simp [lastWritten, List.filter_append, hk]
    · rw [if_neg (Ne.symm hk), ih]
      simp [lastWritten, List.filter_append, hk]

/-- Writes to different keys, one for each element of a list, are all there. -/
theorem lastWritten_map {ι : Type} {init : κ → β} {key : ι → κ} {value : ι → β} {is : List ι}
    (hinj : Function.Injective key) {i : ι} (hi : i ∈ is) :
    lastWritten init (is.map fun i => (key i, value i)) (key i) = value i := by
  have hsame : ∀ w ∈ (is.map fun i => (key i, value i)).filter fun w => w.1 = key i,
      w.2 = value i := by
    intro w hw
    rw [List.mem_filter, List.mem_map] at hw
    obtain ⟨⟨k, _, rfl⟩, hk⟩ := hw
    rw [hinj (of_decide_eq_true hk)]
  have hmem : (key i, value i) ∈
      (is.map fun i => (key i, value i)).filter fun w => w.1 = key i := by
    rw [List.mem_filter]
    exact ⟨List.mem_map.mpr ⟨i, hi, rfl⟩, decide_eq_true rfl⟩
  rw [lastWritten]
  split
  · next w hw => exact hsame w (List.mem_of_getLast? hw)
  · next hw =>
    rw [List.getLast?_eq_none_iff] at hw
    rw [hw] at hmem
    cases hmem

/-- What was written does not depend on what the key held before. -/
theorem lastWritten_congr {init init' : κ → β} {k : κ} (h : init k = init' k) (ws : List (κ × β)) :
    lastWritten init ws k = lastWritten init' ws k := by
  unfold lastWritten
  split
  · rfl
  · exact h

/-- A key that is not written keeps its value. -/
theorem lastWritten_of_forall_ne {init : κ → β} {ws : List (κ × β)} {k : κ}
    (h : ∀ w ∈ ws, w.1 ≠ k) : lastWritten init ws k = init k := by
  have hnone : ws.filter (fun w => w.1 = k) = [] :=
    List.filter_eq_nil_iff.mpr fun w hw => by simpa using h w hw
  rw [lastWritten, hnone]
  rfl

end Map

section Run
variable {σ ω κ β : Type} [DecidableEq κ] (step : σ → ω → Except Fault σ)
  (view : σ → κ → β) (writes : ω → List (κ × β)) (Inv : σ → Prop) (Allowed : ω → Prop)

/-- Operations that each end without a fault, keep the invariant and show as
their writes do so over a whole run. -/
theorem run_refines
    (hstep : ∀ s o, Inv s → Allowed o →
      ∃ t, step s o = .ok t ∧ Inv t ∧ view t = applyWrites (view s) (writes o))
    (ops : List ω) (s : σ) (hs : Inv s) (hops : ∀ o ∈ ops, Allowed o) :
    ∃ t, ops.foldlM step s = .ok t ∧ Inv t ∧
      view t = applyWrites (view s) (ops.flatMap writes) := by
  induction ops generalizing s with
  | nil => exact ⟨s, rfl, hs, rfl⟩
  | cons o ops ih =>
    obtain ⟨s', hs', hinv, hview⟩ := hstep s o hs (hops o (by simp))
    obtain ⟨t, ht, hinvt, hviewt⟩ := ih s' hinv (fun p hp => hops p (by simp [hp]))
    refine ⟨t, ?_, hinvt, ?_⟩
    · rw [List.foldlM_cons, hs', ok_bind, ht]
    · rw [hviewt, hview, List.flatMap_cons, applyWrites_append]

end Run

/-! ## Setting a set of keys -/

section Masked
variable {σ κ β : Type} {view : σ → κ → β} {size : σ → Nat}

/-- A run of the operation sets the keys of `s` to `f`, keeps the others and the size,
and whether there is one depends on the size alone. -/
structure Sets (view : σ → κ → β) (size : σ → Nat) (op : σ → Except Fault σ) (s : Set κ)
    [DecidablePred (· ∈ s)] (f : κ → β) : Prop where
  size_eq : ∀ {a b}, op a = .ok b → size b = size a
  view_eq : ∀ {a b}, op a = .ok b → view b = s.piecewise f (view a)
  total : ∀ {a b c}, op a = .ok b → size c = size a → ∃ d, op c = .ok d

variable {s t : Set κ} [DecidablePred (· ∈ s)] [DecidablePred (· ∈ t)] {f g : κ → β}
  {op op' : σ → Except Fault σ} {a b c : σ}

/-- The second time nothing changes. -/
theorem Sets.idem (hext : ∀ a b, size a = size b → view a = view b → a = b)
    (h : Sets view size op s f) (hb : op a = .ok b) : op b = .ok b := by
  obtain ⟨d, hd⟩ := h.total hb (h.size_eq hb)
  have hview : view d = view b := by
    funext k
    rw [h.view_eq hd, h.view_eq hb]
    by_cases hk : k ∈ s
    · simp [hk]
    · simp [hk]
  rw [hd, hext d b (h.size_eq hd) hview]

/-- Operations on disjoint sets of keys can be swapped. -/
theorem Sets.comm (hext : ∀ a b, size a = size b → view a = view b → a = b)
    (h : Sets view size op s f) (h' : Sets view size op' t g) (hdisjoint : ∀ k ∈ s, k ∉ t)
    (hb : op a = .ok b) (hc : op' a = .ok c) : ∃ d, op' b = .ok d ∧ op c = .ok d := by
  obtain ⟨d, hd⟩ := h'.total hc (h.size_eq hb)
  obtain ⟨e, he⟩ := h.total hb (h'.size_eq hc)
  have hsize : size e = size d := by
    rw [h.size_eq he, h'.size_eq hc, h'.size_eq hd, h.size_eq hb]
  have hview : view e = view d := by
    funext k
    rw [h.view_eq he, h'.view_eq hc, h'.view_eq hd, h.view_eq hb]
    by_cases hs : k ∈ s
    · have ht : k ∉ t := hdisjoint k hs
      simp [hs, ht]
    · by_cases ht : k ∈ t
      · simp [hs, ht]
      · simp [hs, ht]
  exact ⟨d, hd, by rw [he, hext e d hsize hview]⟩

end Masked

end Writes
