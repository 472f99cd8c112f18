import Mathlib.Data.List.Induction

/-! What holds at every moment of a run, that is, of each of its prefixes, and what the moves of a
run do, one after the other. -/

namespace GatewayEnrichment

/-- When each step tells exactly whether the property survives it, the property holds all along a
run if and only if no step of the run breaks it. -/
theorem forall_prefix_iff {α : Type} {P : List α → Prop} {Keeps : List α → α → Prop}
    (start : P []) (step : ∀ as a, P as → (P (as ++ [a]) ↔ Keeps as a)) (run : List α) :
    (∀ as, as <+: run → P as) ↔ ∀ as a, as ++ [a] <+: run → Keeps as a := by
  constructor
  · intro h as a ha
    have hp : P as := h as ((List.prefix_append as [a]).trans ha)
    exact (step as a hp).mp (h _ ha)
  · intro h as ha
    induction as using List.reverseRecOn with
    | nil => exact start
    | append_singleton as a ih =>
      have hp : P as := ih ((List.prefix_append as [a]).trans ha)
      exact (step as a hp).mpr (h as a ha)

section Along

variable {σ μ α : Type} (move : σ → μ → σ) (does : σ → μ → List α)

def along (s : σ) : List μ → List α
  | [] => []
  | m :: moves => does s m ++ along (move s m) moves

theorem along_append (s : σ) (as bs : List μ) :
    along move does s (as ++ bs) =
      along move does s as ++ along move does (as.foldl move s) bs := by
  induction as generalizing s with
  | nil => rfl
  | cons m as ih => rw [List.cons_append, along, ih, along, List.append_assoc, List.foldl_cons]

theorem along_concat (s : σ) (moves : List μ) (m : μ) :
    along move does s (moves ++ [m]) = along move does s moves ++ does (moves.foldl move s) m := by
  rw [along_append, along, along, List.append_nil]

theorem foldl_along {β : Type} (view : σ → β) {step : β → α → β}
    (acts : ∀ s m, view (move s m) = (does s m).foldl step (view s)) (s : σ) (moves : List μ) :
    view (moves.foldl move s) = (along move does s moves).foldl step (view s) := by
  induction moves generalizing s with
  | nil => rfl
  | cons m moves ih => rw [List.foldl_cons, ih, acts, along, List.foldl_append]

end Along

theorem foldl_unchanged {σ μ β : Type} {move : σ → μ → σ} (view : σ → β)
    (same : ∀ s m, view (move s m) = view s) (s : σ) (moves : List μ) :
    view (moves.foldl move s) = view s := by
  induction moves generalizing s with
  | nil => rfl
  | cons m moves ih => rw [List.foldl_cons, ih, same]

end GatewayEnrichment
