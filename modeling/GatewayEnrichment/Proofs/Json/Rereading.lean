import GatewayEnrichment.Json.Encoded
import GatewayEnrichment.Proofs.Binary.Texts

/-! Reading what was written. What a schema writes spells a JSON value, and fitting that value to
the schema again gives what is left of it: everything but its numbers is kept, a number becomes what
its text is read as, and a number without a text is refused where it is met. -/

namespace GatewayEnrichment.Json

def numberValue {f : Format} (x : Binary f) : Value :=
  match Numeral.read (writeNumber x) with
  | .ok (n, _) => .number n
  | .error _ => .null

mutual

def Schema.value : (s : Schema) → s.Val → Value
  | .text => fun s => .text s
  | .flag => fun b => .flag b
  | .number _ => numberValue
  | .int32 => fun n => .number (.integer n.toInt)
  | .nullable s => fun v =>
    match v with
    | none => .null
    | some v => s.value v
  | .list s => fun vs => .array (vs.map s.value)
  | .table => fun t => .object (t.entries.map fun e => (e.1, .text e.2))
  | .record _ fs => fun vs => .object (fs.members vs)

def Fields.members : (fs : Fields) → fs.Vals → List (String × Value)
  | .nil, () => []
  | .cons name presence s fs, (v, vs) =>
    if presence = .hiddenWhenEmpty ∧ s.isEmpty v = true then fs.members vs
    else (name, s.value v) :: fs.members vs

end

mutual

def Schema.reread : (s : Schema) → s.Val → Except Mismatch s.Val
  | .text => .ok
  | .flag => .ok
  | .number f => fun x => fitNumeral (.number f) (fun n => .ok (n.toBinary f)) (numberValue x)
  | .int32 => .ok
  | .nullable s => fun v =>
    match v with
    | none => .ok none
    | some v => (s.reread v).map some
  | .list s => fun vs => vs.mapM s.reread
  | .table => .ok
  | .record _ fs => fs.reread

def Fields.reread : (fs : Fields) → fs.Vals → Except Mismatch fs.Vals
  | .nil, () => .ok ()
  | .cons _ _ s fs, (v, vs) => do
    let v ← s.reread v
    return (v, ← fs.reread vs)

end

end Json

/-- Every number of the format is written as what the reader of values takes it for. -/
def Format.Legible (f : Format) : Prop :=
  ∀ (x : Binary f) (levels : Nat), Json.Spells levels (Json.writeNumber x) (Json.numberValue x)

namespace Table

theorem insertEntry_last {key text : String} {es : List (String × String)}
    (h : ∀ e ∈ es, e.1 < key) : insertEntry key text es = es ++ [(key, text)] := by
  induction es with
  | nil => rfl
  | cons e es ih =>
    have before : e.1 < key := h e List.mem_cons_self
    rw [insertEntry, if_neg (String.lt_asymm before), if_pos before,
      ih fun e he => h e (List.mem_cons_of_mem _ he)]
    rfl

theorem foldlM_insert {ε : Type} (t' : Table) {es : List (String × String)} {t : Table}
    (h : t'.entries = t.entries ++ es) :
    es.foldlM (fun t e => (.ok (t.insert e.1 e.2) : Except ε Table)) t = .ok t' := by
  induction es generalizing t with
  | nil =>
    obtain ⟨entries, sorted⟩ := t
    obtain rfl : t'.entries = entries := by simpa using h
    rfl
  | cons e es ih =>
    have before : ∀ x ∈ t.entries, x.1 < e.1 := fun x hx => by
      have sorted := t'.sorted
      rw [h, List.pairwise_append] at sorted
      exact sorted.2.2 x hx e List.mem_cons_self
    have inserted : (t.insert e.1 e.2).entries = t.entries ++ [e] := insertEntry_last before
    exact ih (t := t.insert e.1 e.2) (by rw [h, inserted, List.append_assoc]; rfl)

end Table

namespace Json

def Schema.neverNull : Schema → Bool
  | .number _ | .nullable _ => false
  | _ => true

mutual

/-- What tells the values of a schema apart: no field is named twice, and `null` stands for one
thing only. -/
def Schema.Sound : Schema → Prop
  | .number f => f.Legible
  | .nullable s => s.neverNull = true ∧ s.Sound
  | .list s => s.Sound
  | .record _ fs => fs.names.Nodup ∧ fs.Sound
  | .text | .flag | .int32 | .table => True

def Fields.Sound : Fields → Prop
  | .nil => True
  | .cons _ _ s fs => s.Sound ∧ fs.Sound

end

mutual

def Schema.depth : Schema → Nat
  | .text | .flag | .number _ | .int32 => 0
  | .nullable s => s.depth
  | .list s => s.depth + 1
  | .table => 1
  | .record _ fs => fs.depth + 1

def Fields.depth : Fields → Nat
  | .nil => 0
  | .cons _ _ s fs => max s.depth fs.depth

end

theorem writeNumber_of_not_finite {f : Format} {x : Binary f} (h : ¬ x.isFinite = true) :
    writeNumber x = octets "null" := by
  rw [writeNumber, Binary.text?, if_neg h]
  rfl

theorem numberValue_of_not_finite {f : Format} {x : Binary f} (h : ¬ x.isFinite = true) :
    numberValue x = .null := by
  rw [numberValue, writeNumber_of_not_finite h]
  rfl

section

variable {f : Format} (literal : ∀ x : Binary f, x.isFinite = true →
  ∃ (l : Literal) (n : Numeral), l.WellFormed ∧ l.numeral = .ok n ∧ writeNumber x = l.written)

include literal

theorem exists_numeral_of_isFinite {x : Binary f} (h : x.isFinite = true) :
    ∃ n, numberValue x = .number n ∧ ∀ levels, Spells levels (writeNumber x) (.number n) := by
  obtain ⟨l, n, wellFormed, hn, text⟩ := literal x h
  have alone : Numeral.read l.written = .ok (n, []) := by
    rw [← List.append_nil l.written]
    exact Literal.numeralRead_written wellFormed hn trivial
  refine ⟨n, ?_, fun levels => ?_⟩
  · rw [numberValue, text, alone]
  · rw [text]
    exact Literal.spells_written wellFormed hn levels

theorem legible_of_literal : f.Legible := by
  intro x levels
  by_cases finite : x.isFinite = true
  · obtain ⟨n, value, spells⟩ := exists_numeral_of_isFinite literal finite
    rw [value]
    exact spells levels
  · rw [numberValue_of_not_finite finite, writeNumber_of_not_finite finite]
    exact spells_null

end

theorem legible_single : Format.single.Legible := legible_of_literal fun _ => exists_literal_of_single

theorem legible_double : Format.double.Legible := legible_of_literal fun _ => exists_literal_of_double

theorem spells_int32 (n : Int32) (levels : Nat) :
    Spells levels (octets (toString n.toInt)) (.number (.integer n.toInt)) := by
  have low : Int64.minValue.toInt ≤ n.toInt := Int.le_trans (by decide) n.le_toInt
  have high : n.toInt < UInt64.size := Int.lt_trans n.toInt_lt (by decide)
  rw [octets_toString_int]
  exact Literal.spells_written (wellFormed_integerLiteral _) (numeral_integerLiteral low high)
    levels

theorem exists_eq_succ {n m : Nat} (h : n + 1 ≤ m) : ∃ k, m = k + 1 ∧ n ≤ k :=
  ⟨m - 1, by omega, by omega⟩

theorem spells_table (t : Table) {levels : Nat} (h : 1 ≤ levels) :
    Spells levels (writeTable t) (.object (t.entries.map fun e => (e.1, .text e.2))) := by
  obtain ⟨levels, rfl, -⟩ := exists_eq_succ h
  refine spells_object ?_
  rw [List.forall₂_map_left_iff, List.forall₂_map_right_iff, List.forall₂_same]
  intro e _
  exact ⟨writeString e.2, rfl, spells_text e.2⟩

mutual

theorem Schema.spells_write : (s : Schema) → s.Sound → {levels : Nat} → s.depth ≤ levels →
    (v : s.Val) → Spells levels (s.write v) (s.value v)
  | .text, _, _, _, v => spells_text v
  | .flag, _, _, _, v => spells_flag v
  | .number f, h, levels, _, v => h v levels
  | .int32, _, levels, _, v => spells_int32 v levels
  | .nullable s, _, _, _, none => spells_null
  | .nullable s, h, _, hd, some v => s.spells_write h.2 hd v
  | .list s, h, levels, hd, vs => by
    obtain ⟨levels, rfl, inner⟩ := exists_eq_succ hd
    refine spells_array ?_
    rw [List.forall₂_map_left_iff, List.forall₂_map_right_iff, List.forall₂_same]
    intro v _
    exact s.spells_write h inner v
  | .table, _, _, hd, t => spells_table t hd
  | .record _ fs, h, levels, hd, vs => by
    obtain ⟨levels, rfl, inner⟩ := exists_eq_succ hd
    exact spells_object (fs.spells_members h.2 inner vs)

theorem Fields.spells_members : (fs : Fields) → fs.Sound → {levels : Nat} → fs.depth ≤ levels →
    (vs : fs.Vals) → List.Forall₂ (SpellsMember levels) (fs.writeMembers vs) (fs.members vs)
  | .nil, _, _, _, () => .nil
  | .cons name presence s fs, h, levels, hd, (v, vs) => by
    have rest := fs.spells_members h.2 (Nat.le_trans (Nat.le_max_right _ _) hd) vs
    rw [Fields.writeMembers, Fields.members]
    split
    · exact rest
    · have own := s.spells_write h.1 (Nat.le_trans (Nat.le_max_left _ _) hd) v
      exact .cons ⟨s.write v, rfl, own⟩ rest

end

theorem fitTable_entries (t : Table) :
    fitTable (.object (t.entries.map fun e => (e.1, .text e.2))) = .ok t := by
  rw [fitTable, List.foldlM_map]
  exact t.foldlM_insert rfl

theorem Schema.value_ne_null {s : Schema} (h : s.neverNull = true) (v : s.Val) :
    s.value v ≠ .null := by
  cases s with
  | number f => cases h
  | nullable s => cases h
  | text | flag | int32 | list | table | record => rintro ⟨⟩

theorem Schema.eq_zero_of_isEmpty {s : Schema} {v : s.Val} (h : s.isEmpty v = true) :
    v = s.zero ∧ s.reread v = .ok v := by
  cases s with
  | list s =>
    obtain rfl : v = [] := List.isEmpty_iff.mp h
    exact ⟨rfl, rfl⟩
  | table =>
    obtain ⟨entries, sorted⟩ := v
    obtain rfl : entries = [] := List.isEmpty_iff.mp h
    exact ⟨rfl, rfl⟩
  | _ => cases h

theorem Fields.name_mem_names (fs : Fields) (vs : fs.Vals) :
    ∀ m ∈ fs.members vs, m.1 ∈ fs.names := by
  intro m hm
  cases fs with
  | nil => cases hm
  | cons name presence s fs =>
    obtain ⟨v, vs⟩ := vs
    rw [Fields.members] at hm
    split at hm
    · exact List.mem_cons_of_mem _ (fs.name_mem_names vs m hm)
    · rcases List.mem_cons.mp hm with rfl | hm
      · exact List.mem_cons_self
      · exact List.mem_cons_of_mem _ (fs.name_mem_names vs m hm)

def Fields.fitMembers (fs : Fields) (seen : fs.Seen) (ms : List (String × Value)) :
    Except Mismatch fs.Seen :=
  ms.foldlM (fun seen m => fs.fitMember m.1 m.2 seen) seen

section

variable {name : String} {presence : Presence} {s : Schema} {fs : Fields}
  {ms : List (String × Value)} (h : ∀ m ∈ ms, m.1 ≠ name)

include h

theorem Fields.fitMembers_others (v : Option s.Val) (seen : fs.Seen) :
    (Fields.cons name presence s fs).fitMembers (v, seen) ms =
      (fs.fitMembers seen ms).map fun seen => (v, seen) := by
  induction ms generalizing seen with
  | nil => rfl
  | cons m ms ih =>
    have other : (Fields.cons name presence s fs).fitMember m.1 m.2 (v, seen) =
        (fs.fitMember m.1 m.2 seen).map fun seen => (v, seen) := by
      change (if m.1 = name then _ else _) = _
      rw [if_neg (h m List.mem_cons_self)]
      cases fs.fitMember m.1 m.2 seen <;> rfl
    rw [fitMembers, fitMembers, List.foldlM_cons, List.foldlM_cons, other]
    cases fs.fitMember m.1 m.2 seen with
    | error e => rfl
    | ok seen => exact ih (fun m hm => h m (List.mem_cons_of_mem _ hm)) seen

theorem Fields.fitMembers_own (value : Value) (seen : fs.Seen) :
    (Fields.cons name presence s fs).fitMembers (none, seen) ((name, value) :: ms) =
      (s.fit value).bind fun v => (fs.fitMembers seen ms).map fun seen => (some v, seen) := by
  have own : (Fields.cons name presence s fs).fitMember name value (none, seen) =
      (s.fit value).map fun v => (some v, seen) := by
    change (if name = name then _ else _) = _
    rw [if_pos rfl]
    cases s.fit value <;> rfl
  rw [fitMembers, List.foldlM_cons, own]
  cases s.fit value with
  | error e => rfl
  | ok v => exact Fields.fitMembers_others h (some v) seen

end

theorem fitInt32_toInt (n : Int32) :
    fitNumeral .int32 Numeral.toInt32 (.number (.integer n.toInt)) = .ok n := by
  have low : Int32.minValue.toInt ≤ n.toInt := n.le_toInt
  have high : n.toInt ≤ Int32.maxValue.toInt := Int.le_of_lt_add_one n.toInt_lt
  rw [fitNumeral, Numeral.toInt32, if_pos ⟨low, high⟩, Int32.ofInt_toInt]

theorem fitNullable_of_ne_null {α : Type} (inner : Value → Except Mismatch α) {v : Value}
    (h : v ≠ .null) : fitNullable inner v = (inner v).map some := by
  cases v with
  | null => exact absurd rfl h
  | _ => rfl

mutual

theorem Schema.fit_value : (s : Schema) → s.Sound → (v : s.Val) → s.fit (s.value v) = s.reread v
  | .text, _, v => rfl
  | .flag, _, v => rfl
  | .number f, _, v => rfl
  | .int32, _, v => fitInt32_toInt v
  | .nullable s, _, none => rfl
  | .nullable s, h, some v => by
    have inner : s.fit (s.value v) = s.reread v := s.fit_value h.2 v
    change fitNullable s.fit (s.value v) = (s.reread v).map some
    rw [← inner]
    exact fitNullable_of_ne_null s.fit (Schema.value_ne_null h.1 v)
  | .list s, h, vs => by
    have items : s.fit ∘ s.value = s.reread := funext fun v => s.fit_value h v
    rw [Schema.reread, ← items]
    exact List.mapM_map ..
  | .table, _, t => fitTable_entries t
  | .record _ fs, h, vs => fs.fit_members h.1 h.2 vs

theorem Fields.fit_members : (fs : Fields) → fs.names.Nodup → fs.Sound → (vs : fs.Vals) →
    (fs.fitMembers fs.unseen (fs.members vs)).bind fs.complete = fs.reread vs
  | .nil, _, _, () => rfl
  | .cons name presence s fs, hn, h, (v, vs) => by
    obtain ⟨fresh, hn⟩ := List.nodup_cons.mp hn
    have rest : (fs.fitMembers fs.unseen (fs.members vs)).bind fs.complete = fs.reread vs :=
      fs.fit_members hn h.2 vs
    have others : ∀ m ∈ fs.members vs, m.1 ≠ name := fun m hm he =>
      fresh (he ▸ fs.name_mem_names vs m hm)
    rw [Fields.members, Fields.reread, ← rest]
    by_cases hidden : presence = .hiddenWhenEmpty ∧ s.isEmpty v = true
    · obtain ⟨rfl, empty⟩ := hidden
      obtain ⟨rfl, kept⟩ := Schema.eq_zero_of_isEmpty empty
      rw [if_pos ⟨rfl, empty⟩, kept]
      refine (congrArg (Except.bind · _) (Fields.fitMembers_others others none fs.unseen)).trans ?_
      cases fs.fitMembers fs.unseen (fs.members vs) <;> rfl
    · rw [if_neg hidden, ← s.fit_value h.1 v]
      refine (congrArg (Except.bind · _)
        (Fields.fitMembers_own others (s.value v) fs.unseen)).trans ?_
      cases s.fit (s.value v) with
      | error e => rfl
      | ok v => cases fs.fitMembers fs.unseen (fs.members vs) <;> rfl

end

end Json
end GatewayEnrichment
