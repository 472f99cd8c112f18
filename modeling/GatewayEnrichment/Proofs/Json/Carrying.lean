import GatewayEnrichment.Proofs.Json.Arrangement
import GatewayEnrichment.Proofs.Json.Fitting

/-! What a value becomes when it is written and read again. Whether it comes back as it was is up to
the numbers in it: a value of any type comes back whole if each of its numbers does. -/

namespace GatewayEnrichment

open Json

def Binary.CarriedBack {f : Format} (x : Binary f) : Prop :=
  (Schema.number f).read (writeNumber x) = .ok (x, [])

namespace Json

theorem reread_eq_ok_iff {f : Format} (legible : f.Legible) (x : Binary f) :
    (Schema.number f).reread x = .ok x ↔ x.CarriedBack := by
  have read : readValue 0 (writeNumber x) = .ok (numberValue x, []) := by
    rw [← List.append_nil (writeNumber x)]
    exact legible x 0 [] trivial
  exact (((Schema.number f).fits_read read).eq_ok_iff x).symm

mutual

/-- Each number in the value is carried back. -/
def Schema.Carried : (s : Schema) → s.Val → Prop
  | .number _ => Binary.CarriedBack
  | .nullable s => fun v => ∀ a ∈ v, s.Carried a
  | .list s => fun vs => ∀ v ∈ vs, s.Carried v
  | .record _ fs => fs.Carried
  | .text | .flag | .int32 | .table => fun _ => True

def Fields.Carried : (fs : Fields) → fs.Vals → Prop
  | .nil, () => True
  | .cons _ _ s fs, (v, vs) => s.Carried v ∧ fs.Carried vs

end

theorem mapM_eq_ok_self {α ε : Type} {f : α → Except ε α} {as : List α}
    (h : ∀ a ∈ as, f a = .ok a) : as.mapM f = .ok as := by
  induction as with
  | nil => rfl
  | cons a as ih =>
    obtain ⟨own, rest⟩ := List.forall_mem_cons.mp h
    rw [List.mapM_cons, own, ih rest]
    rfl

mutual

theorem Schema.reread_of_carried : (s : Schema) → s.Sound → {v : s.Val} → s.Carried v →
    s.reread v = .ok v
  | .text, _, _, _ => rfl
  | .flag, _, _, _ => rfl
  | .int32, _, _, _ => rfl
  | .table, _, _, _ => rfl
  | .number _, legible, x, h => (reread_eq_ok_iff legible x).mpr h
  | .nullable _, _, none, _ => rfl
  | .nullable s, sound, some v, h => by
    change (s.reread v).map some = _
    rw [s.reread_of_carried sound.2 (h v rfl)]
    rfl
  | .list s, sound, _, h => mapM_eq_ok_self fun v hv => s.reread_of_carried sound (h v hv)
  | .record _ fs, sound, _, h => fs.reread_of_carried sound.2 h

theorem Fields.reread_of_carried : (fs : Fields) → fs.Sound → {vs : fs.Vals} → fs.Carried vs →
    fs.reread vs = .ok vs
  | .nil, _, (), _ => rfl
  | .cons _ _ s fs, sound, (v, vs), h => by
    rw [Fields.reread, s.reread_of_carried sound.1 h.1, fs.reread_of_carried sound.2 h.2]
    rfl

end

section

variable {α : Type} [Encoded α]

def value (a : α) : Value := (Encoded.schema α).value (Encoded.toVal a)

def reread (a : α) : Except Mismatch α :=
  ((Encoded.schema α).reread (Encoded.toVal a)).map Encoded.ofVal

theorem parse_eq_ok_iff_fit {levels : Nat} {o : Octets} {v : Value}
    (whole : atEnd (readValue levels) o = .ok v) (a : α) :
    parse α o = .ok a ↔ fit v = .ok a := by
  refine atEnd_eq_ok_iff_of_amounts whole (fun trail read => ?_) a
  exact ((Encoded.schema α).fits_read read).map Encoded.ofVal

variable (sound : (Encoded.schema α).Sound)

include sound

theorem fit_value (a : α) : fit (value a) = reread a := by
  rw [fit, value, Schema.fit_value _ sound, reread]

theorem parse_write_eq_ok_iff (shallow : (Encoded.schema α).depth ≤ maxLevels) (a b : α) :
    parse α (write a) = .ok b ↔ reread a = .ok b := by
  have spelled : readValue maxLevels (write a) = .ok (value a, []) := by
    rw [← List.append_nil (write a)]
    exact (Encoded.schema α).spells_write sound shallow (Encoded.toVal a) [] trivial
  have whole : atEnd (readValue maxLevels) (write a) = .ok (value a) :=
    atEnd_eq_ok_iff.mpr ⟨[], blank_nil, spelled⟩
  rw [parse_eq_ok_iff_fit whole, fit_value sound]

/-- A value whose numbers are carried back is read as it was written. -/
theorem parse_write_of_carried (shallow : (Encoded.schema α).depth ≤ maxLevels) {a : α}
    (carried : (Encoded.schema α).Carried (Encoded.toVal a)) : parse α (write a) = .ok a := by
  rw [parse_write_eq_ok_iff sound shallow, reread, Schema.reread_of_carried _ sound carried]
  exact congrArg Except.ok (Encoded.ofVal_toVal a)

end

end Json
end GatewayEnrichment
