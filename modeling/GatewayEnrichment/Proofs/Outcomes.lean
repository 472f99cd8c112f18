/-! Computations that succeed or fail, put together from others. Two of them amount to the same when
both succeed with the same value or both fail, with whatever failures. -/

namespace GatewayEnrichment

section

variable {ε ε' α β ρ : Type}

theorem exists_of_bind_eq_ok {x : Except ε α} {f : α → Except ε β} {b : β}
    (h : x >>= f = .ok b) : ∃ a, x = .ok a ∧ f a = .ok b := by
  cases x with
  | error e => cases h
  | ok a => exact ⟨a, rfl, h⟩

theorem exists_of_map_eq_ok {x : Except ε α} {f : α → β} {b : β} (h : x.map f = .ok b) :
    ∃ a, x = .ok a ∧ f a = b := by
  cases x with
  | error e => cases h
  | ok a => exact ⟨a, rfl, Except.ok.inj h⟩

theorem pair_eq_ok_iff {x : Except ε α} {y : Except ε β} {a : α} {b : β} :
    (x >>= fun a => y >>= fun b => .ok (a, b)) = .ok (a, b) ↔ x = .ok a ∧ y = .ok b := by
  cases x with
  | error e => simp [bind, Except.bind]
  | ok a' =>
    cases y with
    | error e => simp [bind, Except.bind]
    | ok b' => simp [bind, Except.bind]

/-- The first computation leaves `rest` besides what it has in common with the second. -/
inductive Amounts : Except ε (α × ρ) → Except ε' α → ρ → Prop
  | ok (a : α) (rest : ρ) : Amounts (.ok (a, rest)) (.ok a) rest
  | error (e : ε) (e' : ε') (rest : ρ) : Amounts (.error e) (.error e') rest

namespace Amounts

variable {x : Except ε (α × ρ)} {y : Except ε' α} {rest rest' : ρ}

theorem of_eq (h : x = .ok (a, rest)) : Amounts x (.ok a : Except ε' α) rest := h ▸ .ok a rest

theorem bind (h : Amounts x y rest) {f : α × ρ → Except ε (β × ρ)} {g : α → Except ε' β}
    (hf : ∀ a, Amounts (f (a, rest)) (g a) rest') : Amounts (x >>= f) (y >>= g) rest' := by
  cases h with
  | ok a => exact hf a
  | error e e' => exact .error e e' rest'

theorem map (h : Amounts x y rest) (f : α → β) :
    Amounts (x.map fun r => (f r.1, r.2)) (y.map f) rest := by
  cases h with
  | ok a => exact .ok (f a) rest
  | error e e' => exact .error e e' rest

theorem eq_ok_iff (h : Amounts x y rest) (a : α) : x = .ok (a, rest) ↔ y = .ok a := by
  cases h with
  | ok b => simp
  | error e e' => simp

theorem eq_of_eq_ok (h : Amounts x y rest) {a : α} (ok : x = .ok (a, rest')) : rest' = rest := by
  cases h with
  | ok b =>
    cases ok
    rfl
  | error e e' => cases ok

end Amounts

end

end GatewayEnrichment
