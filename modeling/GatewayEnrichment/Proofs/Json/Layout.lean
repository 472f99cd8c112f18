import GatewayEnrichment.Json.Tagged
import GatewayEnrichment.Proofs.Json.Items

/-! How a JSON text is laid out. A value that is read in full lies in the text as one piece, an
array as the pieces of its items and an object as those of its members, with white space wherever it
may stand. So the texts of an object are exactly those that can be put together from its members. -/

namespace GatewayEnrichment.Json

section Members

variable {α : Type} {value : Reader α} {input rest : Octets}

def behindColon (value : Reader α) : Reader α := fun input => do
  let (_, rest) ← readColon input
  value rest

def memberOf (value : Reader α) : Reader (String × α) := fun input =>
  match skipSpace input with
  | Mark.quote :: rest => do
    let (key, rest) ← readString rest
    let (v, rest) ← behindColon value rest
    return ((key, v), rest)
  | _ => .error .malformed

theorem exists_of_memberOf {m : String × α} (h : memberOf value input = .ok (m, rest)) :
    ∃ r behind, skipSpace input = Mark.quote :: r ∧ readString r = .ok (m.1, behind) ∧
      behindColon value behind = .ok (m.2, rest) := by
  unfold memberOf at h
  split at h
  · next r begins =>
    obtain ⟨⟨key, behind⟩, hkey, h⟩ := exists_of_bind_eq_ok h
    obtain ⟨⟨v, rest'⟩, hvalue, h⟩ := exists_of_bind_eq_ok h
    cases h
    exact ⟨r, behind, begins, hkey, hvalue⟩
  · cases h

theorem memberOf_quote {r behind : Octets} {key : String} {v : α}
    (begins : skipSpace input = Mark.quote :: r) (hkey : readString r = .ok (key, behind))
    (hvalue : behindColon value behind = .ok (v, rest)) :
    memberOf value input = .ok ((key, v), rest) := by
  rw [memberOf, begins]
  change (readString r >>= fun x => behindColon value x.2 >>= fun y =>
    Except.ok ((x.1, y.1), y.2)) = _
  rw [hkey]
  change (behindColon value behind >>= fun y => Except.ok ((key, y.1), y.2)) = _
  rw [hvalue]
  rfl

theorem exists_gap_of_behindColon {v : α} (h : behindColon value input = .ok (v, rest)) :
    ∃ gap r, Blank gap ∧ input = gap ++ Mark.colon :: r ∧ value r = .ok (v, rest) := by
  obtain ⟨⟨⟨⟩, r⟩, colon, h⟩ := exists_of_bind_eq_ok h
  obtain ⟨gap, blank, split⟩ := exists_gap_of_readMark colon
  exact ⟨gap, r, blank, split, h⟩

theorem behindColon_gap {gap : Octets} (h : Blank gap) (r : Octets) :
    behindColon value (gap ++ Mark.colon :: r) = value r := by
  rw [behindColon, readColon, readMark_gap (by decide) h]
  rfl

def MemberPiece (value : Reader α) (o : Octets) (m : String × α) : Prop :=
  ∃ lead key gap t, o = lead ++ Mark.quote :: (key ++ (gap ++ Mark.colon :: t)) ∧ Blank lead ∧
    SpellsKey key m.1 ∧ Blank gap ∧ Holds value t m.2

theorem MemberPiece.holds {o : Octets} {m : String × α} (h : MemberPiece value o m) :
    Holds (memberOf value) o m := by
  obtain ⟨lead, key, gap, t, rfl, leadBlank, hkey, gapBlank, held⟩ := h
  intro rest stops
  have behind : behindColon value (gap ++ Mark.colon :: (t ++ rest)) = .ok (m.2, rest) := by
    rw [behindColon_gap gapBlank]
    exact held rest stops
  refine memberOf_quote (r := key ++ (gap ++ Mark.colon :: (t ++ rest))) ?_ (hkey _) behind
  rw [List.append_assoc, skipSpace_blank_append leadBlank, List.cons_append,
    skipSpace_cons (by decide)]
  simp

theorem exists_memberPiece {close : UInt8} (regular : Regular close value) {m : String × α}
    (h : memberOf value input = .ok (m, rest)) :
    ∃ o, input = o ++ rest ∧ MemberPiece value o m := by
  obtain ⟨r, behind, begins, hkey, hvalue⟩ := exists_of_memberOf h
  obtain ⟨lead, leadBlank, rfl⟩ := exists_blank_cons begins
  obtain ⟨key, rfl, -, spells⟩ := exists_spellsKey hkey
  obtain ⟨gap, r, gapBlank, rfl, read⟩ := exists_gap_of_behindColon hvalue
  obtain ⟨t, rfl, held⟩ := regular.piece read
  refine ⟨lead ++ Mark.quote :: (key ++ (gap ++ Mark.colon :: t)), by simp, ?_⟩
  exact ⟨lead, key, gap, t, rfl, leadBlank, spells, gapBlank, held⟩

theorem regular_memberOf {close : UInt8} (regular : Regular close value) :
    Regular Mark.closeObject (memberOf value) where
  opens h := by
    obtain ⟨r, -, begins, -⟩ := exists_of_memberOf h
    exact ⟨Mark.quote, r, begins, by decide⟩
  skips input := by rw [memberOf, memberOf, skipSpace_skipSpace]
  piece h := by
    obtain ⟨o, split, piece⟩ := exists_memberPiece regular h
    exact ⟨o, split, piece.holds⟩

end Members

section

variable {α σ ε : Type} {value : Reader α} {round : String → σ → Reader σ}
  {step : σ → String × α → Except ε σ}

theorem exists_items_of_walkMembers
    (hround : ∀ key s input s' rest, round key s input = .ok (s', rest) →
      ∃ v, behindColon value input = .ok (v, rest) ∧ step s (key, v) = .ok s')
    {s s' : σ} {input rest : Octets} (h : walkMembers round s input = .ok (s', rest)) :
    ∃ ms, Items Mark.closeObject (memberOf value) true input ms rest ∧
      ms.foldlM step s = .ok s' := by
  refine exists_items_of_walk (fun s input s' rest h => ?_) h
  dsimp only at h
  split at h
  · next r begins =>
    obtain ⟨⟨key, behind⟩, hkey, h⟩ := exists_of_bind_eq_ok h
    obtain ⟨v, read, stepped⟩ := hround key s behind s' rest h
    exact ⟨(key, v), memberOf_quote begins hkey read, stepped⟩
  · cases h

theorem Items.walkMembers {close : UInt8} (regular : Regular close value) {input rest : Octets}
    {ms : List (String × α)} (h : Items Mark.closeObject (memberOf value) true input ms rest)
    (hround : ∀ key s behind v after, behindColon value behind = .ok (v, after) →
      Amounts (round key s behind) (step s (key, v)) after) (s : σ) :
    Amounts (walkMembers round s input) (ms.foldlM step s) rest := by
  have enough : ms.length < input.length + 1 :=
    Nat.lt_succ_of_le (h.length_le (regular_memberOf regular))
  refine h.walk enough (fun s begun m after read => ?_) s
  obtain ⟨r, behind, begins, hkey, hvalue⟩ := exists_of_memberOf read
  dsimp only
  rw [begins]
  change Amounts (readString r >>= fun x => round x.1 s x.2) _ _
  rw [hkey]
  exact hround m.1 s behind m.2 after hvalue

end

theorem foldlM_collect {α ε : Type} (as seen : List α) :
    as.foldlM (fun seen a => (.ok (a :: seen) : Except ε (List α))) seen =
      .ok (as.reverse ++ seen) := by
  induction as generalizing seen with
  | nil => rfl
  | cons a as ih =>
    rw [List.reverse_cons, List.append_assoc]
    exact ih (a :: seen)

section Collect

variable {ι : Type} {close : UInt8} {item : Reader ι} {n : Nat} {first : Bool}
  {input rest : Octets} {seen as : List ι}

def collect (item : Reader ι) (seen : List ι) : Reader (List ι) := fun input => do
  let (a, rest) ← item input
  return (a :: seen, rest)

theorem exists_items_of_walk_collect
    (h : walk close (collect item) n first [] input = .ok (seen, rest)) :
    ∃ as, Items close item first input as rest ∧ seen.reverse = as := by
  let step (seen : List ι) (a : ι) : Except Flaw (List ι) := .ok (a :: seen)
  have hround : ∀ s input s' rest, collect item s input = .ok (s', rest) →
      ∃ a, item input = .ok (a, rest) ∧ step s a = .ok s' := by
    intro s input s' rest h
    obtain ⟨⟨a, after⟩, read, h⟩ := exists_of_bind_eq_ok h
    cases h
    exact ⟨a, read, rfl⟩
  obtain ⟨as, items, folded⟩ := exists_items_of_walk hround h
  have collected : as.foldlM step [] = .ok (as.reverse ++ []) := foldlM_collect as []
  rw [folded, List.append_nil] at collected
  refine ⟨as, items, ?_⟩
  rw [Except.ok.inj collected, List.reverse_reverse]

theorem Items.walk_collect (h : Items close item first input as rest) (enough : as.length < n) :
    Json.walk close (collect item) n first [] input = .ok (as.reverse, rest) := by
  let step (seen : List ι) (a : ι) : Except Flaw (List ι) := .ok (a :: seen)
  have amounts : Amounts (Json.walk close (collect item) n first [] input) (as.foldlM step [])
      rest := by
    refine h.walk enough (fun s begun a after read => ?_) []
    rw [collect, read]
    exact .ok (a :: s) after
  refine (amounts.eq_ok_iff _).mpr ?_
  rw [← List.append_nil as.reverse]
  exact foldlM_collect as []

theorem Items.exists_rest (h : Items close item first input as rest) :
    ∃ r, rest = close :: r ∧ isSpace close = false := by
  induction h with
  | nil ended =>
    obtain ⟨r, rfl, begins⟩ := exists_of_nextItem_ended ended
    exact ⟨r, rfl, isSpace_of_skipSpace begins⟩
  | cons more read others ih => exact ih

theorem Items.eq_of_readMark {after : Octets} (h : Items close item first input as rest)
    (closed : readMark close rest = .ok ((), after)) : rest = close :: after := by
  obtain ⟨r, rfl, space⟩ := h.exists_rest
  rw [readMark_cons space] at closed
  cases closed
  rfl

end Collect

section

variable {close : UInt8} {value : Reader Value} {input rest : Octets}

theorem items_of_readArrayOf {vs : List Value} (h : readArrayOf value input = .ok (vs, rest)) :
    Items Mark.closeList value true input vs (Mark.closeList :: rest) := by
  obtain ⟨⟨seen, behind⟩, walked, h⟩ := exists_of_bind_eq_ok h
  obtain ⟨⟨⟨⟩, after⟩, closed, h⟩ := exists_of_bind_eq_ok h
  cases h
  obtain ⟨vs, items, rfl⟩ := exists_items_of_walk_collect walked
  rw [← items.eq_of_readMark closed]
  exact items

theorem readArrayOf_items (regular : Regular Mark.closeList value) {vs : List Value}
    (h : Items Mark.closeList value true input vs (Mark.closeList :: rest)) :
    readArrayOf value input = .ok (vs, rest) := by
  have enough : vs.length < input.length + 1 := Nat.lt_succ_of_le (h.length_le regular)
  have walked := h.walk_collect enough
  change (walk Mark.closeList (collect value) (input.length + 1) true [] input >>= fun x =>
    closeItems x.2 >>= fun u => Except.ok (x.1.reverse, u.2)) = _
  rw [walked]
  change (closeItems (Mark.closeList :: rest) >>= fun u => Except.ok (_, u.2)) = _
  rw [closeItems, readMark_cons (by decide), List.reverse_reverse]
  rfl

def keepMember (value : Reader Value) (key : String) (seen : List (String × Value)) :
    Reader (List (String × Value)) := fun input => do
  let (_, rest) ← readColon input
  let (v, rest) ← value rest
  return ((key, v) :: seen, rest)

theorem keepMember_eq (key : String) (seen : List (String × Value)) (input : Octets) :
    keepMember value key seen input =
      (behindColon value input).map fun x => ((key, x.1) :: seen, x.2) := by
  rw [keepMember, behindColon]
  cases readColon input with
  | error e => rfl
  | ok x =>
    change (value x.2 >>= fun y => Except.ok ((key, y.1) :: seen, y.2)) = (value x.2).map _
    cases value x.2 <;> rfl

theorem items_of_readObjectOf {ms : List (String × Value)}
    (h : readObjectOf value input = .ok (ms, rest)) :
    Items Mark.closeObject (memberOf value) true input ms (Mark.closeObject :: rest) := by
  obtain ⟨⟨seen, behind⟩, walked, h⟩ := exists_of_bind_eq_ok h
  obtain ⟨⟨⟨⟩, after⟩, closed, h⟩ := exists_of_bind_eq_ok h
  cases h
  let step (seen : List (String × Value)) (m : String × Value) :
    Except Flaw (List (String × Value)) := .ok (m :: seen)
  have hround : ∀ key s input s' rest, keepMember value key s input = .ok (s', rest) →
      ∃ v, behindColon value input = .ok (v, rest) ∧ step s (key, v) = .ok s' := by
    intro key s input s' rest h
    rw [keepMember_eq] at h
    obtain ⟨⟨v, after⟩, read, h⟩ := exists_of_map_eq_ok h
    cases h
    exact ⟨v, read, rfl⟩
  obtain ⟨ms, items, folded⟩ := exists_items_of_walkMembers hround walked
  have collected : ms.foldlM step [] = .ok (ms.reverse ++ []) := foldlM_collect ms []
  rw [folded, List.append_nil] at collected
  rw [Except.ok.inj collected, List.reverse_reverse, ← items.eq_of_readMark closed]
  exact items

theorem readObjectOf_items (regular : Regular close value) {ms : List (String × Value)}
    (h : Items Mark.closeObject (memberOf value) true input ms (Mark.closeObject :: rest)) :
    readObjectOf value input = .ok (ms, rest) := by
  let step (seen : List (String × Value)) (m : String × Value) :
    Except Flaw (List (String × Value)) := .ok (m :: seen)
  have amounts : Amounts (walkMembers (keepMember value) [] input) (ms.foldlM step [])
      (Mark.closeObject :: rest) := by
    refine h.walkMembers regular (fun key s behind v after read => ?_) []
    rw [keepMember_eq, read]
    exact .ok ((key, v) :: s) after
  have collected : ms.foldlM step [] = .ok (ms.reverse ++ []) := foldlM_collect ms []
  have walked := (amounts.eq_ok_iff _).mpr collected
  change (walkMembers (keepMember value) [] input >>= fun x =>
    closeMembers x.2 >>= fun u => Except.ok (x.1.reverse, u.2)) = _
  rw [walked, List.append_nil]
  change (closeMembers (Mark.closeObject :: rest) >>= fun u => Except.ok (_, u.2)) = _
  rw [closeMembers, readMark_cons (by decide), List.reverse_reverse]
  rfl

end

inductive ReadAs (levels : Nat) (input : Octets) : Value → Octets → Prop
  | null {r rest : Octets} (begins : skipSpace input = Mark.n :: r)
      (word : readWord (octets "null") (Mark.n :: r) = .ok ((), rest)) :
      ReadAs levels input .null rest
  | yes {r rest : Octets} (begins : skipSpace input = Mark.t :: r)
      (word : readWord (octets "true") (Mark.t :: r) = .ok ((), rest)) :
      ReadAs levels input (.flag true) rest
  | no {r rest : Octets} (begins : skipSpace input = Mark.f :: r)
      (word : readWord (octets "false") (Mark.f :: r) = .ok ((), rest)) :
      ReadAs levels input (.flag false) rest
  | number {c : UInt8} {r rest : Octets} {n : Numeral} (begins : skipSpace input = c :: r)
      (digit : c = Mark.minus ∨ isDigit c = true) (read : Numeral.read (c :: r) = .ok (n, rest)) :
      ReadAs levels input (.number n) rest
  | text {r rest : Octets} {s : String} (begins : skipSpace input = Mark.quote :: r)
      (read : readString r = .ok (s, rest)) : ReadAs levels input (.text s) rest
  | array {inner : Nat} {r rest : Octets} {vs : List Value} (deep : levels = inner + 1)
      (begins : skipSpace input = Mark.openList :: r)
      (items : Items Mark.closeList (readValue inner) true r vs (Mark.closeList :: rest)) :
      ReadAs levels input (.array vs) rest
  | object {inner : Nat} {r rest : Octets} {ms : List (String × Value)} (deep : levels = inner + 1)
      (begins : skipSpace input = Mark.openObject :: r)
      (members : Items Mark.closeObject (memberOf (readValue inner)) true r ms
        (Mark.closeObject :: rest)) : ReadAs levels input (.object ms) rest

section

variable {levels : Nat} {input rest : Octets} {v : Value}

theorem readAs_of_readValueWith {array object : Reader Value}
    (harray : ∀ r, skipSpace input = Mark.openList :: r → array r = .ok (v, rest) →
      ReadAs levels input v rest)
    (hobject : ∀ r, skipSpace input = Mark.openObject :: r → object r = .ok (v, rest) →
      ReadAs levels input v rest)
    (h : readValueWith id array object input = .ok (v, rest)) : ReadAs levels input v rest := by
  rw [readValueWith] at h
  split at h
  · cases h
  · next c r begins =>
    by_cases hn : c = Mark.n
    · subst hn
      obtain ⟨⟨⟨⟩, after⟩, word, h⟩ := exists_of_bind_eq_ok h
      cases h
      exact .null begins word
    by_cases ht : c = Mark.t
    · subst ht
      obtain ⟨⟨⟨⟩, after⟩, word, h⟩ := exists_of_bind_eq_ok h
      cases h
      exact .yes begins word
    by_cases hf : c = Mark.f
    · subst hf
      obtain ⟨⟨⟨⟩, after⟩, word, h⟩ := exists_of_bind_eq_ok h
      cases h
      exact .no begins word
    rw [if_neg hn, if_neg ht, if_neg hf] at h
    split at h
    · next digit =>
      obtain ⟨⟨n, after⟩, read, h⟩ := exists_of_bind_eq_ok h
      cases h
      exact .number begins digit read
    · split at h
      · next quote =>
        subst quote
        obtain ⟨⟨s, after⟩, read, h⟩ := exists_of_bind_eq_ok h
        cases h
        exact .text begins read
      · split at h
        · next opens =>
          subst opens
          exact harray r begins h
        · split at h
          · next opens =>
            subst opens
            exact hobject r begins h
          · cases h

theorem readAs_of_readValue (h : readValue levels input = .ok (v, rest)) :
    ReadAs levels input v rest := by
  cases levels with
  | zero =>
    refine readAs_of_readValueWith (fun r _ h => ?_) (fun r _ h => ?_) h
    · cases h
    · cases h
  | succ levels =>
    refine readAs_of_readValueWith (fun r begins h => ?_) (fun r begins h => ?_) h
    · obtain ⟨⟨vs, after⟩, read, h⟩ := exists_of_map_eq_ok h
      cases h
      exact .array rfl begins (items_of_readArrayOf read)
    · obtain ⟨⟨ms, after⟩, read, h⟩ := exists_of_map_eq_ok h
      cases h
      exact .object rfl begins (items_of_readObjectOf read)

theorem readValue_array {vs : List Value} {r : Octets}
    (begins : skipSpace input = Mark.openList :: r)
    (read : readArrayOf (readValue levels) r = .ok (vs, rest)) :
    readValue (levels + 1) input = .ok (.array vs, rest) := by
  rw [readValue, readValueWith, begins]
  change (readArrayOf (readValue levels) r).map (fun x => (Value.array x.1, x.2)) = _
  rw [read]
  rfl

theorem readValue_object {ms : List (String × Value)} {r : Octets}
    (begins : skipSpace input = Mark.openObject :: r)
    (read : readObjectOf (readValue levels) r = .ok (ms, rest)) :
    readValue (levels + 1) input = .ok (.object ms, rest) := by
  rw [readValue, readValueWith, begins]
  change (readObjectOf (readValue levels) r).map (fun x => (Value.object x.1, x.2)) = _
  rw [read]
  rfl

theorem Spells.blank_append {lead o : Octets} (hl : Blank lead) (h : Spells levels o v) :
    Spells levels (lead ++ o) v := by
  intro rest stops
  rw [List.append_assoc, ← readValue_skipSpace, skipSpace_blank_append hl, readValue_skipSpace]
  exact h rest stops

theorem stops_closeList (rest : Octets) : Stops (Mark.closeList :: rest) :=
  ⟨by decide, by decide, by decide, by decide⟩

theorem stops_closeObject (rest : Octets) : Stops (Mark.closeObject :: rest) :=
  ⟨by decide, by decide, by decide, by decide⟩

theorem spells_layout_array (regular : Regular Mark.closeList (readValue levels)) {os : List Octets}
    {vs : List Value} (h : List.Forall₂ (Padded (readValue levels)) os vs) {gap : Octets}
    (hg : Blank gap) :
    Spells (levels + 1) (Mark.openList :: (separated os ++ (gap ++ [Mark.closeList])))
      (.array vs) := by
  intro more _
  refine readValue_array (r := separated os ++ (gap ++ Mark.closeList :: more)) ?_ ?_
  · rw [List.cons_append, skipSpace_cons (by decide)]
    simp
  · exact readArrayOf_items regular
      (items_separated regular (by decide) (by decide) stops_closeList h hg more)

theorem spells_layout_object (regular : Regular Mark.closeList (readValue levels))
    {os : List Octets} {ms : List (String × Value)}
    (h : List.Forall₂ (Padded (memberOf (readValue levels))) os ms) {gap : Octets}
    (hg : Blank gap) :
    Spells (levels + 1) (Mark.openObject :: (separated os ++ (gap ++ [Mark.closeObject])))
      (.object ms) := by
  intro more _
  refine readValue_object (r := separated os ++ (gap ++ Mark.closeObject :: more)) ?_ ?_
  · rw [List.cons_append, skipSpace_cons (by decide)]
    simp
  · exact readObjectOf_items regular
      (items_separated (regular_memberOf regular) (by decide) (by decide) stops_closeObject h hg
        more)

theorem regular_of_pieces (piece : ∀ {input : Octets} {v : Value} {rest : Octets},
    readValue levels input = .ok (v, rest) → ∃ o, input = o ++ rest ∧ Spells levels o v) :
    Regular Mark.closeList (readValue levels) where
  opens := opens_of_readValue
  skips := readValue_skipSpace levels
  piece h := piece h

theorem exists_spells (h : readValue levels input = .ok (v, rest)) :
    ∃ o, input = o ++ rest ∧ Spells levels o v := by
  induction levels using Nat.strong_induction_on generalizing input v rest with
  | _ levels ih =>
  cases readAs_of_readValue h with
  | null begins word =>
    obtain ⟨lead, leadBlank, rfl⟩ := exists_blank_cons begins
    rw [eq_append_of_readWord word, ← List.append_assoc]
    exact ⟨_, rfl, spells_null.blank_append leadBlank⟩
  | yes begins word =>
    obtain ⟨lead, leadBlank, rfl⟩ := exists_blank_cons begins
    rw [eq_append_of_readWord word, ← List.append_assoc]
    exact ⟨_, rfl, (spells_flag true).blank_append leadBlank⟩
  | no begins word =>
    obtain ⟨lead, leadBlank, rfl⟩ := exists_blank_cons begins
    rw [eq_append_of_readWord word, ← List.append_assoc]
    exact ⟨_, rfl, (spells_flag false).blank_append leadBlank⟩
  | number begins digit read =>
    obtain ⟨lead, leadBlank, rfl⟩ := exists_blank_cons begins
    obtain ⟨o, split, ne, taken⟩ := exists_piece_of_numeralRead read
    rw [split, ← List.append_assoc]
    refine ⟨_, rfl, Spells.blank_append leadBlank fun more stops => ?_⟩
    obtain ⟨d, o, rfl⟩ := List.exists_cons_of_ne_nil ne
    obtain ⟨rfl, -⟩ := List.cons.inj split
    obtain ⟨array, object, he⟩ := readValue_eq_with levels
    have again := taken more stops
    rw [List.cons_append] at again
    rw [he, List.cons_append, readValueWith_digit digit id array object, again]
    rfl
  | text begins read =>
    obtain ⟨lead, leadBlank, rfl⟩ := exists_blank_cons begins
    obtain ⟨o, rfl, -, taken⟩ := exists_spellsKey read
    refine ⟨lead ++ Mark.quote :: o, by simp, Spells.blank_append leadBlank fun more _ => ?_⟩
    obtain ⟨array, object, he⟩ := readValue_eq_with levels
    rw [he]
    exact congrArg (Except.map fun r => (Value.text r.1, r.2)) (taken more)
  | @array inner r _ vs deep begins items =>
    subst deep
    have regular : Regular Mark.closeList (readValue inner) :=
      regular_of_pieces (ih inner (Nat.lt_succ_self inner))
    obtain ⟨lead, leadBlank, rfl⟩ := exists_blank_cons begins
    obtain ⟨os, _, ⟨⟩, padded, gap, gapBlank, rfl⟩ := items.exists_padded regular
    refine ⟨lead ++ Mark.openList :: (separated os ++ (gap ++ [Mark.closeList])), by simp, ?_⟩
    exact (spells_layout_array regular padded gapBlank).blank_append leadBlank
  | @object inner r _ ms deep begins members =>
    subst deep
    have regular : Regular Mark.closeList (readValue inner) :=
      regular_of_pieces (ih inner (Nat.lt_succ_self inner))
    obtain ⟨lead, leadBlank, rfl⟩ := exists_blank_cons begins
    obtain ⟨os, _, ⟨⟩, padded, gap, gapBlank, rfl⟩ :=
      members.exists_padded (regular_memberOf regular)
    refine ⟨lead ++ Mark.openObject :: (separated os ++ (gap ++ [Mark.closeObject])), by simp, ?_⟩
    exact (spells_layout_object regular padded gapBlank).blank_append leadBlank

end

theorem regular_readValue (levels : Nat) : Regular Mark.closeList (readValue levels) :=
  regular_of_pieces exists_spells

end GatewayEnrichment.Json
