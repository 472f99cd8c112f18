import GatewayEnrichment.Proofs.Json.Layout

/-! The texts of arrays and objects. A text holds an object with certain members exactly if it can
be put together from them: white space, an opening brace, texts of the members with commas between
them, a closing brace and white space. -/

namespace GatewayEnrichment.Json

theorem atEnd_eq_ok_iff {α : Type} {read : Reader α} {o : Octets} {a : α} :
    atEnd read o = .ok a ↔ ∃ trail, Blank trail ∧ read o = .ok (a, trail) := by
  rw [atEnd]
  constructor
  · intro h
    obtain ⟨⟨b, trail⟩, taken, h⟩ := exists_of_bind_eq_ok h
    dsimp only at h
    split at h
    · next ended =>
      cases h
      exact ⟨trail, blank_iff_skipSpace.mpr (List.isEmpty_iff.mp ended), taken⟩
    · cases h
  · rintro ⟨trail, blank, taken⟩
    rw [taken]
    change (if (skipSpace trail).isEmpty then _ else _) = _
    rw [blank_iff_skipSpace.mp blank]
    rfl

theorem atEnd_eq_ok_iff_of_amounts {α ε : Type} {levels : Nat} {o : Octets} {v : Value}
    {read : Reader α} {y : Except ε α} (whole : atEnd (readValue levels) o = .ok v)
    (h : ∀ trail, readValue levels o = .ok (v, trail) → Amounts (read o) y trail) (a : α) :
    atEnd read o = .ok a ↔ y = .ok a := by
  obtain ⟨trail, blank, read'⟩ := atEnd_eq_ok_iff.mp whole
  rw [atEnd_eq_ok_iff, ← (h trail read').eq_ok_iff a]
  constructor
  · rintro ⟨trail', -, taken⟩
    cases (h trail read').eq_of_eq_ok taken
    exact taken
  · intro taken
    exact ⟨trail, blank, taken⟩

section

variable (levels : Nat)

def ItemText (o : Octets) (v : Value) : Prop :=
  ∃ t trail, o = t ++ trail ∧ Spells levels t v ∧ Blank trail

def MemberText (o : Octets) (m : String × Value) : Prop :=
  ∃ lead key gap t trail,
    o = lead ++ Mark.quote :: (key ++ (gap ++ Mark.colon :: (t ++ trail))) ∧
    Blank lead ∧ SpellsKey key m.1 ∧ Blank gap ∧ Spells levels t m.2 ∧ Blank trail

def Bracketed (opening closing : UInt8) (o : Octets) (os : List Octets) : Prop :=
  ∃ lead gap trail, o = lead ++ opening :: (separated os ++ (gap ++ closing :: trail)) ∧
    Blank lead ∧ Blank gap ∧ Blank trail

def ArrayText (o : Octets) (vs : List Value) : Prop :=
  ∃ os, Bracketed Mark.openList Mark.closeList o os ∧ List.Forall₂ (ItemText levels) os vs

def ObjectText (o : Octets) (ms : List (String × Value)) : Prop :=
  ∃ os, Bracketed Mark.openObject Mark.closeObject o os ∧ List.Forall₂ (MemberText levels) os ms

end

section

variable {levels : Nat} {o : Octets}

theorem itemText_iff_padded {v : Value} :
    ItemText levels o v ↔ Padded (readValue levels) o v := by
  constructor
  · rintro ⟨t, trail, split, spells, blank⟩
    exact ⟨t, trail, split, blank, spells⟩
  · rintro ⟨t, trail, split, blank, spells⟩
    exact ⟨t, trail, split, spells, blank⟩

theorem memberText_iff_padded {m : String × Value} :
    MemberText levels o m ↔ Padded (memberOf (readValue levels)) o m := by
  constructor
  · rintro ⟨lead, key, gap, t, trail, split, leadBlank, spellsKey, gapBlank, spells, trailBlank⟩
    refine ⟨lead ++ Mark.quote :: (key ++ (gap ++ Mark.colon :: t)), trail, ?_, trailBlank, ?_⟩
    · rw [split]
      simp
    · exact MemberPiece.holds ⟨lead, key, gap, t, rfl, leadBlank, spellsKey, gapBlank, spells⟩
  · rintro ⟨piece, trail, rfl, trailBlank, held⟩
    have read := held [] trivial
    obtain ⟨o, split, lead, key, gap, t, rfl, leadBlank, spellsKey, gapBlank, spells⟩ :=
      exists_memberPiece (regular_readValue levels) read
    rw [List.append_nil, List.append_nil] at split
    refine ⟨lead, key, gap, t, trail, ?_, leadBlank, spellsKey, gapBlank, spells, trailBlank⟩
    rw [split]
    simp

theorem objectText_iff {ms : List (String × Value)} :
    ObjectText levels o ms ↔ atEnd (readValue (levels + 1)) o = .ok (.object ms) := by
  rw [atEnd_eq_ok_iff]
  constructor
  · rintro ⟨os, ⟨lead, gap, trail, rfl, leadBlank, gapBlank, trailBlank⟩, members⟩
    have padded := members.imp fun _ _ => memberText_iff_padded.mp
    have spells := (spells_layout_object (regular_readValue levels) padded gapBlank).blank_append
      leadBlank
    refine ⟨trail, trailBlank, ?_⟩
    rw [← spells trail (List.append_nil trail ▸ stops_blank_append trailBlank trivial)]
    simp
  · rintro ⟨trail, trailBlank, read⟩
    cases readAs_of_readValue read with
    | object deep begins members =>
      cases deep
      obtain ⟨lead, leadBlank, rfl⟩ := exists_blank_cons begins
      obtain ⟨os, _, ⟨⟩, padded, gap, gapBlank, rfl⟩ :=
        members.exists_padded (regular_memberOf (regular_readValue levels))
      refine ⟨os, ⟨lead, gap, trail, by simp, leadBlank, gapBlank, trailBlank⟩, ?_⟩
      exact padded.imp fun _ _ => memberText_iff_padded.mpr

theorem arrayText_iff {vs : List Value} :
    ArrayText levels o vs ↔ atEnd (readValue (levels + 1)) o = .ok (.array vs) := by
  rw [atEnd_eq_ok_iff]
  constructor
  · rintro ⟨os, ⟨lead, gap, trail, rfl, leadBlank, gapBlank, trailBlank⟩, items⟩
    have padded := items.imp fun _ _ => itemText_iff_padded.mp
    have spells := (spells_layout_array (regular_readValue levels) padded gapBlank).blank_append
      leadBlank
    refine ⟨trail, trailBlank, ?_⟩
    rw [← spells trail (List.append_nil trail ▸ stops_blank_append trailBlank trivial)]
    simp
  · rintro ⟨trail, trailBlank, read⟩
    cases readAs_of_readValue read with
    | array deep begins items =>
      cases deep
      obtain ⟨lead, leadBlank, rfl⟩ := exists_blank_cons begins
      obtain ⟨os, _, ⟨⟩, padded, gap, gapBlank, rfl⟩ :=
        items.exists_padded (regular_readValue levels)
      refine ⟨os, ⟨lead, gap, trail, by simp, leadBlank, gapBlank, trailBlank⟩, ?_⟩
      exact padded.imp fun _ _ => itemText_iff_padded.mpr

theorem objectText_written {os : List Octets} {ms : List (String × Value)}
    (h : List.Forall₂ (SpellsMember levels) os ms) : ObjectText levels (writeMembers os) ms := by
  have read := spells_object h [] trivial
  rw [List.append_nil] at read
  exact objectText_iff.mpr (atEnd_eq_ok_iff.mpr ⟨[], blank_nil, read⟩)

theorem arrayText_written {os : List Octets} {vs : List Value}
    (h : List.Forall₂ (Spells levels) os vs) : ArrayText levels (writeItems os) vs := by
  have read := spells_array h [] trivial
  rw [List.append_nil] at read
  exact arrayText_iff.mpr (atEnd_eq_ok_iff.mpr ⟨[], blank_nil, read⟩)

theorem exists_object_of_begins {v : Value} {r : Octets}
    (begins : skipSpace o = Mark.openObject :: r)
    (whole : atEnd (readValue levels) o = .ok v) : ∃ ms, v = .object ms := by
  obtain ⟨trail, -, read⟩ := atEnd_eq_ok_iff.mp whole
  cases readAs_of_readValue read with
  | object => exact ⟨_, rfl⟩
  | number begins' digit =>
    rw [begins] at begins'
    obtain ⟨rfl, -⟩ := List.cons.inj begins'
    exact absurd digit (by decide)
  | null begins' | yes begins' | no begins' | text begins' | array _ begins' =>
    rw [begins] at begins'
    cases begins'

end

end GatewayEnrichment.Json
