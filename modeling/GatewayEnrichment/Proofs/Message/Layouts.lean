import GatewayEnrichment.Proofs.Message.Reading

/-! How the object of an event may be laid out. An event depends on the tag and on the fields of its
message alone: members may stand in any order, members with other keys may come and go, and the same
values may stand in an array behind the tag. Only one thing is refused, that the tag or a field is
there twice. -/

namespace GatewayEnrichment

open Json

def Kind.keys (k : Kind) : List String := Event.family.key :: k.fields.names

section

variable {k : Kind} {m : k.Message} {o : Octets} {ms ms' : List (String × Value)}

theorem perm_valuesOf_of_keys
    (same : (ms'.filter (·.1 ∈ k.keys)).Perm (ms.filter (·.1 ∈ k.keys))) {key : String}
    (h : key ∈ k.keys) : (valuesOf key ms').Perm (valuesOf key ms) := by
  have kept : ∀ ms : List (String × Value),
      valuesOf key (ms.filter (·.1 ∈ k.keys)) = valuesOf key ms := by
    intro ms
    refine valuesOf_filter fun member _ own => ?_
    rw [own]
    exact decide_eq_true h
  rw [← kept ms', ← kept ms]
  exact perm_valuesOf same key

theorem length_valuesOf_le_of_parse (laid : ObjectText (maxLevels - 1) o ms)
    (accepted : Event.parse o = .ok (.of k m)) : ∀ key ∈ k.keys, (valuesOf key ms).length ≤ 1 := by
  obtain ⟨tagged, fits⟩ := (Event.parse_object_iff laid).mp accepted
  refine List.forall_mem_cons.mpr ⟨?_, k.length_valuesOf_le fits⟩
  rw [tagged]
  exact Nat.le_refl 1

theorem parse_of_perm (laid : ObjectText (maxLevels - 1) o ms)
    (accepted : Event.parse o = .ok (.of k m)) {o' : Octets}
    (laid' : ObjectText (maxLevels - 1) o' ms')
    (same : (ms'.filter (·.1 ∈ k.keys)).Perm (ms.filter (·.1 ∈ k.keys))) :
    Event.parse o' = .ok (.of k m) := by
  obtain ⟨tagged, fits⟩ := (Event.parse_object_iff laid).mp accepted
  have values : ∀ key ∈ k.keys, (valuesOf key ms').Perm (valuesOf key ms) :=
    fun key hk => perm_valuesOf_of_keys same hk
  obtain ⟨sameTag, sameFields⟩ := List.forall_mem_cons.mp values
  refine (Event.parse_object_iff laid').mpr ⟨?_, ?_⟩
  · rw [tagged] at sameTag
    exact List.perm_singleton.mp sameTag
  · exact k.fit_object_congr (fun key hk => (sameFields key hk).symm) fits

theorem parse_of_lists (laid : ObjectText (maxLevels - 1) o ms)
    (accepted : Event.parse o = .ok (.of k m)) {o' : Octets} {us : List Value}
    (array : ArrayText (maxLevels - 1) o' (.text k.tag :: us)) (listed : k.fields.Lists ms us) :
    Event.parse o' = .ok (.of k m) := by
  obtain ⟨-, fits⟩ := (Event.parse_object_iff laid).mp accepted
  refine (Event.parse_eq_ok_iff_ofValue (arrayText_iff.mp array) _).mpr ?_
  exact Event.ofValue_array_eq_ok_iff.mpr (k.fit_array_of_lists fits listed)

theorem refused_of_repeated (laid : ObjectText (maxLevels - 1) o ms)
    (accepted : Event.parse o = .ok (.of k m)) {o' : Octets}
    (laid' : ObjectText (maxLevels - 1) o' ms') (sub : ms.Subperm ms') {key : String}
    (hk : key ∈ k.keys) (twice : 2 ≤ (valuesOf key ms').length) :
    ∃ flaw, Event.parse o' = .error flaw := by
  cases outcome : Event.parse o' with
  | error flaw => exact ⟨flaw, rfl⟩
  | ok e =>
    obtain ⟨k', m', rfl⟩ := e.exists_of
    obtain ⟨tagged, -⟩ := (Event.parse_object_iff laid).mp accepted
    obtain ⟨tagged', -⟩ := (Event.parse_object_iff laid').mp outcome
    -- the tag is still there, so it is the one that was found
    have there : (Event.family.key, .text k.tag) ∈ ms' :=
      sub.subset (mem_valuesOf.mp (tagged ▸ List.mem_singleton_self _))
    rw [← mem_valuesOf, tagged', List.mem_singleton] at there
    have named : Event.family.fitTag (.text k'.tag) = .ok k := Event.fitTag_eq_ok_iff.mpr there.symm
    have sameKind : k' = k := by
      rw [Event.fitTag_eq_ok_iff.mpr rfl] at named
      exact Except.ok.inj named
    subst sameKind
    have once := length_valuesOf_le_of_parse laid' outcome key hk
    omega

/-- An accepted object is laid out from its members; with them in any order, with other members
beside them or without some that mean nothing, and as an array behind the tag, it is the same event;
with a key of its message twice it is refused. -/
theorem parse_event_of_any_layout (k : Kind) (m : k.Message) {o : Octets}
    (object : ∃ r, skipSpace o = Mark.openObject :: r)
    (accepted : Event.parse o = .ok (.of k m)) :
    (∃ ms, ObjectText (maxLevels - 1) o ms) ∧ ∀ ms, ObjectText (maxLevels - 1) o ms →
      (∀ key ∈ k.keys, (valuesOf key ms).length ≤ 1) ∧
      (∀ o' ms', ObjectText (maxLevels - 1) o' ms' →
        (ms'.filter (·.1 ∈ k.keys)).Perm (ms.filter (·.1 ∈ k.keys)) →
        Event.parse o' = .ok (.of k m)) ∧
      (∀ o' us, ArrayText (maxLevels - 1) o' (.text k.tag :: us) → k.fields.Lists ms us →
        Event.parse o' = .ok (.of k m)) ∧
      ∀ o' ms', ObjectText (maxLevels - 1) o' ms' → ms.Subperm ms' →
        (∃ key ∈ k.keys, 2 ≤ (valuesOf key ms').length) → ∃ flaw, Event.parse o' = .error flaw := by
  refine ⟨Event.exists_objectText_of_parse object accepted, fun ms laid => ⟨?_, ?_, ?_, ?_⟩⟩
  · exact length_valuesOf_le_of_parse laid accepted
  · intro o' ms' laid' same
    exact parse_of_perm laid accepted laid' same
  · intro o' us array listed
    exact parse_of_lists laid accepted array listed
  · rintro o' ms' laid' sub ⟨key, hk, twice⟩
    exact refused_of_repeated laid accepted laid' sub hk twice

def objectOfTexts (ms : List (String × String)) : Octets :=
  writeMembers (ms.map fun m => writeMember m.1 (writeString m.2))

theorem objectText_objectOfTexts (levels : Nat) (ms : List (String × String)) :
    ObjectText levels (objectOfTexts ms) (ms.map fun m => (m.1, .text m.2)) := by
  refine objectText_written ?_
  induction ms with
  | nil => exact .nil
  | cons m ms ih => exact .cons ⟨writeString m.2, rfl, spells_text m.2⟩ ih

theorem parse_event_of_any_layout_of_uplink :
    let o := objectOfTexts [("type", "uplink"), ("description", "x"), ("gateway_id", "g")]
    let e : Event := .of .uplink { gatewayId := "g" }
    (∃ r, skipSpace o = Mark.openObject :: r) ∧ Event.parse o = .ok e ∧
      Event.parse (objectOfTexts [("gateway_id", "g"), ("platform", ""), ("type", "uplink")]) =
        .ok e ∧
      Event.parse (writeItems [writeString "uplink", writeString "g", octets "null"]) = .ok e ∧
      ∃ flaw, Event.parse (objectOfTexts [("type", "uplink"), ("description", "x"),
        ("gateway_id", "g"), ("gateway_id", "g")]) = .error flaw := by
  intro o e
  have object : ∃ r, skipSpace o = Mark.openObject :: r := ⟨_, rfl⟩
  have accepted : Event.parse o = .ok e := by decide +kernel
  obtain ⟨-, layouts⟩ := parse_event_of_any_layout .uplink { gatewayId := "g" } object accepted
  obtain ⟨-, reordered, array, repeated⟩ := layouts _ (objectText_objectOfTexts _ _)
  refine ⟨object, accepted, ?_, ?_, ?_⟩
  · refine reordered _ _ (objectText_objectOfTexts _ _) ?_
    exact List.Perm.swap _ _ _
  · refine array _ [.text "g", .null] (arrayText_written ?_) ?_
    · exact .cons (spells_text _) (.cons (spells_text _) (.cons spells_null .nil))
    · refine ⟨.said _ _, .default rfl, ⟨by decide, ?_, ⟨by decide, ?_, rfl⟩⟩⟩
      · exact List.forall_mem_nil _
      · exact List.forall_mem_nil _
  · refine repeated _ _ (objectText_objectOfTexts _ _) ?_ ⟨"gateway_id", by decide, ?_⟩
    · exact (List.sublist_append_left [_, _, _] [_]).subperm
    · exact Nat.le_refl 2

end

end GatewayEnrichment
