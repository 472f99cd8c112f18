import GatewayEnrichment.Json.Tagged
import GatewayEnrichment.Proofs.Json.Fitting
import GatewayEnrichment.Proofs.Json.Naming

/-! Choosing a type by its tag. A tagged value is accepted only if all of it can be read in full,
and what becomes of it then depends on the tree alone: in an object the one member with the key of
the tag decides, wherever it stands, and all other members are handed on in their order. -/

namespace GatewayEnrichment.Json.Family

variable {κ : Type} (family : Family κ)

def fitTag : Value → Except Mismatch κ
  | .text s => family.ofTag s
  | v => unfit v .tag

def fitMember : Option κ × List (String × Value) → String × Value →
    Except Mismatch (Option κ × List (String × Value)) :=
  takeMember family.key family.fitTag (.duplicateField family.key) fun kept m => .ok (m :: kept)

def fit : Value → Except Mismatch (Tagged κ)
  | .array [] => .error (.missingField family.key)
  | .array (u :: us) => do return ⟨← family.fitTag u, .array us⟩
  | .object ms => do
    let (tag, kept) ← ms.foldlM family.fitMember (none, [])
    match tag with
    | none => .error (.missingField family.key)
    | some kind => .ok ⟨kind, .object kept.reverse⟩
  | v => unfit v (.tagged family.name)

variable {family} {input rest : Octets}

theorem readTag_other {c : UInt8} {r : Octets} (begins : skipSpace input = c :: r)
    (other : c ≠ Mark.quote) : family.readTag input = refuse .tag (c :: r) := by
  rw [readTag, begins]
  split
  · next same => exact absurd (List.cons.inj same).1 other
  · rfl

theorem readTag_quote {r : Octets} {s : String} (begins : skipSpace input = Mark.quote :: r)
    (read : readString r = .ok (s, rest)) :
    family.readTag input = fitting (family.ofTag s) >>= fun kind => .ok (kind, rest) := by
  rw [readTag, begins]
  change (readString r >>= fun x => fitting (family.ofTag x.1) >>= fun kind => .ok (kind, x.2)) = _
  rw [read]
  rfl

theorem fits_tag : Fits family.readTag family.fitTag := by
  intro levels input rest v h
  cases readAs_of_readValue h with
  | text begins read =>
    rw [readTag_quote begins read]
    exact amounts_fitting _ rest
  | number begins digit =>
    rw [readTag_other begins (ne_of_digit digit (by decide) (by decide))]
    exact amounts_refuse ..
  | null begins | yes begins | no begins | array _ begins | object _ begins =>
    rw [readTag_other begins (by decide)]
    exact amounts_refuse ..

theorem exists_readValue_of_readTag (levels : Nat) {kind : κ}
    (h : family.readTag input = .ok (kind, rest)) :
    ∃ v, readValue levels input = .ok (v, rest) := by
  unfold readTag at h
  split at h
  · next r begins =>
    obtain ⟨⟨s, after⟩, read, h⟩ := exists_of_bind_eq_ok h
    obtain ⟨kind', -, h⟩ := exists_of_bind_eq_ok h
    cases h
    obtain ⟨array, object, he⟩ := readValue_eq_with levels
    refine ⟨.text s, ?_⟩
    rw [he, readValueWith, begins]
    exact congrArg (Except.map fun r => (Value.text r.1, r.2)) read
  · obtain ⟨flaw, refused⟩ := exists_refuse (α := κ) .tag (skipSpace input)
    rw [refused] at h
    cases h

section

variable {key : String} {seen : Option κ × List (String × Value)}

theorem amounts_readMember {v : Value}
    (h : behindColon (readValue (maxLevels - 1)) input = .ok (v, rest)) :
    Amounts (family.readMember key seen input) (family.fitMember seen (key, v)) rest := by
  obtain ⟨⟨⟨⟩, r⟩, colon, read⟩ := exists_of_bind_eq_ok h
  have read : readValue (maxLevels - 1) r = .ok (v, rest) := read
  rw [readMember, fitMember, takeMember]
  by_cases same : key = family.key
  · rw [if_pos same, if_pos same]
    cases seen.1 with
    | some kind => exact .error _ _ _
    | none =>
      dsimp only
      rw [colon]
      exact (fits_tag read).map fun kind => (some kind, seen.2)
  · rw [if_neg same, if_neg same, colon]
    refine .of_eq ?_
    change (readValue (maxLevels - 1) r >>= fun x =>
      Except.ok ((seen.1, (key, x.1) :: seen.2), x.2)) = _
    rw [read]
    rfl

theorem exists_of_readMember {seen' : Option κ × List (String × Value)}
    (h : family.readMember key seen input = .ok (seen', rest)) :
    ∃ v, behindColon (readValue (maxLevels - 1)) input = .ok (v, rest) ∧
      family.fitMember seen (key, v) = .ok seen' := by
  have whole : ∃ v, behindColon (readValue (maxLevels - 1)) input = .ok (v, rest) := by
    unfold readMember at h
    split at h
    · split at h
      · cases h
      · obtain ⟨⟨⟨⟩, r⟩, colon, h⟩ := exists_of_bind_eq_ok h
        obtain ⟨⟨kind, after⟩, taken, h⟩ := exists_of_bind_eq_ok h
        cases h
        obtain ⟨v, read⟩ := exists_readValue_of_readTag (maxLevels - 1) taken
        refine ⟨v, ?_⟩
        rw [behindColon, colon]
        exact read
    · obtain ⟨⟨⟨⟩, r⟩, colon, h⟩ := exists_of_bind_eq_ok h
      obtain ⟨⟨v, after⟩, read, h⟩ := exists_of_bind_eq_ok h
      cases h
      refine ⟨v, ?_⟩
      rw [behindColon, colon]
      exact read
  obtain ⟨v, read⟩ := whole
  exact ⟨v, read, ((amounts_readMember read).eq_ok_iff seen').mp h⟩

end

theorem amounts_readArray {vs : List Value}
    (h : Items Mark.closeList (readValue (maxLevels - 1)) true input vs (Mark.closeList :: rest)) :
    Amounts (family.readArray input) (family.fit (.array vs)) rest := by
  cases h with
  | nil ended =>
    rw [readArray, ended]
    exact .error _ _ _
  | @cons _ _ begun after _ u vs more read others =>
    have enough : vs.length < after.length + 1 :=
      Nat.lt_succ_of_le (others.length_le (regular_readValue (maxLevels - 1)))
    have walked := others.walk_collect enough
    rw [readArray, more, fit]
    change Amounts (family.readTag begun >>= fun x =>
      walk Mark.closeList (collect (readValue (maxLevels - 1))) (x.2.length + 1) false [] x.2 >>=
      fun y => closeItems y.2 >>= fun z =>
        .ok ((⟨x.1, .array y.1.reverse⟩ : Tagged κ), z.2)) _ rest
    refine (fits_tag read).bind fun kind => .of_eq ?_
    dsimp only
    rw [walked]
    change (closeItems (Mark.closeList :: rest) >>= fun z => Except.ok (_, z.2)) = _
    rw [closeItems, readMark_cons (by decide), List.reverse_reverse]
    rfl

theorem amounts_readObject {ms : List (String × Value)}
    (h : Items Mark.closeObject (memberOf (readValue (maxLevels - 1))) true input ms
      (Mark.closeObject :: rest)) :
    Amounts (family.readObject input) (family.fit (.object ms)) rest := by
  have seen : Amounts (walkMembers family.readMember (none, []) input)
      (ms.foldlM family.fitMember (none, [])) (Mark.closeObject :: rest) := by
    refine h.walkMembers (regular_readValue (maxLevels - 1)) ?_ (none, [])
    intro key seen behind v after read
    exact amounts_readMember read
  rw [readObject, fit]
  refine seen.bind fun s => ?_
  obtain ⟨tag, kept⟩ := s
  cases tag with
  | none => exact .error _ _ _
  | some kind =>
    refine .of_eq ?_
    change (closeMembers (Mark.closeObject :: rest) >>= fun u => Except.ok (_, u.2)) = _
    rw [closeMembers, readMark_cons (by decide)]
    rfl

theorem read_other {c : UInt8} {r : Octets} (begins : skipSpace input = c :: r)
    (list : c ≠ Mark.openList) (object : c ≠ Mark.openObject) :
    family.read input = refuse (.tagged family.name) (c :: r) := by
  rw [read, begins]
  split
  · next same => exact absurd (List.cons.inj same).1 list
  · next same => exact absurd (List.cons.inj same).1 object
  · rfl

theorem amounts_read {v : Value} (h : readValue maxLevels input = .ok (v, rest)) :
    Amounts (family.read input) (family.fit v) rest := by
  cases readAs_of_readValue h with
  | @array inner _ _ _ deep begins items =>
    obtain rfl : maxLevels - 1 = inner := by rw [deep, Nat.add_sub_cancel]
    rw [read, begins]
    exact amounts_readArray items
  | @object inner _ _ _ deep begins members =>
    obtain rfl : maxLevels - 1 = inner := by rw [deep, Nat.add_sub_cancel]
    rw [read, begins]
    exact amounts_readObject members
  | number begins digit =>
    rw [read_other begins (ne_of_digit digit (by decide) (by decide))
      (ne_of_digit digit (by decide) (by decide))]
    exact amounts_refuse ..
  | null begins | yes begins | no begins | text begins =>
    rw [read_other begins (by decide) (by decide)]
    exact amounts_refuse ..

theorem exists_items_of_readArray {t : Tagged κ} (h : family.readArray input = .ok (t, rest)) :
    ∃ vs, Items Mark.closeList (readValue (maxLevels - 1)) true input vs
      (Mark.closeList :: rest) := by
  obtain ⟨⟨more, begun⟩, next, h⟩ := exists_of_bind_eq_ok h
  cases more with
  | false => cases h
  | true =>
    obtain ⟨⟨kind, after⟩, tagged, h⟩ := exists_of_bind_eq_ok h
    obtain ⟨⟨seen, behind⟩, walked, h⟩ := exists_of_bind_eq_ok h
    obtain ⟨⟨⟨⟩, after⟩, closed, h⟩ := exists_of_bind_eq_ok h
    cases h
    obtain ⟨v, tagRead⟩ := exists_readValue_of_readTag (maxLevels - 1) tagged
    obtain ⟨vs, others, -⟩ := exists_items_of_walk_collect walked
    refine ⟨v :: vs, .cons next tagRead ?_⟩
    rw [← others.eq_of_readMark closed]
    exact others

theorem exists_items_of_readObject {t : Tagged κ} (h : family.readObject input = .ok (t, rest)) :
    ∃ ms, Items Mark.closeObject (memberOf (readValue (maxLevels - 1))) true input ms
      (Mark.closeObject :: rest) := by
  obtain ⟨⟨⟨tag, kept⟩, behind⟩, walked, h⟩ := exists_of_bind_eq_ok h
  obtain ⟨ms, members, -⟩ := exists_items_of_walkMembers
    (fun _ _ _ _ _ => exists_of_readMember) walked
  cases tag with
  | none => cases h
  | some kind =>
    obtain ⟨⟨⟨⟩, after⟩, closed, h⟩ := exists_of_bind_eq_ok h
    cases h
    refine ⟨ms, ?_⟩
    rw [← members.eq_of_readMark closed]
    exact members

theorem exists_readValue_of_read {t : Tagged κ} (h : family.read input = .ok (t, rest)) :
    ∃ v, readValue maxLevels input = .ok (v, rest) := by
  unfold read at h
  split at h
  · next r begins =>
    obtain ⟨vs, items⟩ := exists_items_of_readArray h
    exact ⟨_, readValue_array begins (readArrayOf_items (regular_readValue _) items)⟩
  · next r begins =>
    obtain ⟨ms, members⟩ := exists_items_of_readObject h
    exact ⟨_, readValue_object begins (readObjectOf_items (regular_readValue _) members)⟩
  · obtain ⟨flaw, refused⟩ := exists_refuse (α := Tagged κ) (.tagged family.name) (skipSpace input)
    rw [refused] at h
    cases h

theorem foldlM_fitMember_eq_ok_iff {ms kept : List (String × Value)} {tag : Option κ} :
    ms.foldlM family.fitMember (none, []) = .ok (tag, kept) ↔
      Taken family.fitTag none (valuesOf family.key ms) tag ∧
        kept.reverse = ms.filter (·.1 ≠ family.key) := by
  have collected := foldlM_collect (ε := Mismatch) (ms.filter (·.1 ≠ family.key)) []
  rw [fitMember, foldlM_takeMember_eq_ok_iff, collected, List.append_nil, Except.ok.injEq,
    List.reverse_eq_iff, eq_comm (b := kept.reverse)]

theorem fit_object_eq_ok_iff {ms : List (String × Value)} {t : Tagged κ} :
    family.fit (.object ms) = .ok t ↔ ∃ u, valuesOf family.key ms = [u] ∧
      family.fitTag u = .ok t.kind ∧ t.content = .object (ms.filter (·.1 ≠ family.key)) := by
  constructor
  · intro h
    obtain ⟨⟨tag, kept⟩, folded, h⟩ := exists_of_bind_eq_ok h
    obtain ⟨taken, others⟩ := foldlM_fitMember_eq_ok_iff.mp folded
    cases tag with
    | none => cases h
    | some kind =>
      cases h
      generalize hus : valuesOf family.key ms = us at taken
      cases taken with
      | @one u _ fits => exact ⟨u, rfl, fits, congrArg Value.object others⟩
  · rintro ⟨u, single, fits, content⟩
    have folded : ms.foldlM family.fitMember (none, []) =
        .ok (some t.kind, (ms.filter (·.1 ≠ family.key)).reverse) := by
      rw [foldlM_fitMember_eq_ok_iff, single, List.reverse_reverse]
      exact ⟨.one fits, rfl⟩
    rw [fit, folded]
    obtain ⟨kind, content'⟩ := t
    obtain rfl : content' = _ := content
    change Except.ok _ = _
    rw [List.reverse_reverse]

end GatewayEnrichment.Json.Family
