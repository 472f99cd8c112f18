import Mathlib.Data.List.Forall2
import GatewayEnrichment.Json.Value
import GatewayEnrichment.Proofs.Json.Strings

/-! Texts that spell a value. The reader takes such a text to its end, in front of anything that
cannot be taken for more of it, and what is put together from texts by brackets, commas and colons
spells the value that is put together from their values. -/

namespace GatewayEnrichment.Json

def Stops : Octets → Prop
  | [] => True
  | c :: _ => isDigit c = false ∧ c ≠ Mark.point ∧ c ≠ Mark.e ∧ c ≠ Mark.capitalE

def Spells (levels : Nat) (o : Octets) (v : Value) : Prop :=
  ∀ rest, Stops rest → readValue levels (o ++ rest) = .ok (v, rest)

def SpellsMember (levels : Nat) (o : Octets) (m : String × Value) : Prop :=
  ∃ t, o = writeMember m.1 t ∧ Spells levels t m.2

theorem skipSpace_cons {c : UInt8} (h : isSpace c = false) (rest : Octets) :
    skipSpace (c :: rest) = c :: rest := by
  rw [skipSpace, List.dropWhile_cons, h]
  rfl

theorem skipSpace_skipSpace (input : Octets) : skipSpace (skipSpace input) = skipSpace input := by
  induction input with
  | nil => rfl
  | cons c rest ih =>
    cases h : isSpace c with
    | false => rw [skipSpace_cons h, skipSpace_cons h]
    | true =>
      have skipped : skipSpace (c :: rest) = skipSpace rest := by
        rw [skipSpace, List.dropWhile_cons, h]
        rfl
      rw [skipped, ih]

theorem readWord_append (word rest : Octets) : readWord word (word ++ rest) = .ok ((), rest) := by
  induction word with
  | nil => rfl
  | cons w word ih => simpa [readWord] using ih

theorem readMark_cons {c : UInt8} (h : isSpace c = false) (rest : Octets) :
    readMark c (c :: rest) = .ok ((), rest) := by
  simp [readMark, skipSpace_cons h]

/-! A walk over texts with commas between them does with each what its round does. -/

theorem separated_cons (o : Octets) (os : List Octets) :
    separated (o :: os) = o ++ os.flatMap (Mark.comma :: ·) := by
  induction os generalizing o with
  | nil => simp [separated]
  | cons p os ih =>
    have unfolded : separated (o :: p :: os) = o ++ Mark.comma :: separated (p :: os) := rfl
    rw [unfolded, ih, List.flatMap_cons, List.cons_append]

theorem length_le_separated (os : List Octets) : os.length ≤ (separated os).length + 1 := by
  induction os with
  | nil => exact Nat.zero_le _
  | cons o os ih =>
    cases os with
    | nil => exact Nat.le_add_left 1 _
    | cons p os =>
      simp only [separated, List.length_append, List.length_cons] at ih ⊢
      omega

section Walk

variable {σ : Type} {close : UInt8} {round : σ → Reader σ}

def Opens (close : UInt8) (input : Octets) : Prop := ∃ c r, skipSpace input = c :: r ∧ c ≠ close

def Takes (close : UInt8) (round : σ → Reader σ) (o : Octets) (s s' : σ) : Prop :=
  ∀ rest, Stops rest → Opens close (o ++ rest) ∧ round s (skipSpace (o ++ rest)) = .ok (s', rest)

def Lead (R : Octets → σ → σ → Prop) : List Octets → σ → σ → Prop
  | [], s, s' => s = s'
  | o :: os, s, s' => ∃ t, R o s t ∧ Lead R os t s'

theorem Lead.imp {R R' : Octets → σ → σ → Prop} (h : ∀ o s t, R o s t → R' o s t)
    {os : List Octets} {s s' : σ} (hos : Lead R os s s') : Lead R' os s s' := by
  induction os generalizing s with
  | nil => exact hos
  | cons o os ih =>
    obtain ⟨t, ho, hos⟩ := hos
    exact ⟨t, h o s t ho, ih hos⟩

theorem walk_close (hs : isSpace close = false) (n : Nat) (first : Bool) (s : σ) (rest : Octets) :
    walk close round (n + 1) first s (close :: rest) = .ok (s, close :: rest) := by
  have ended : nextItem close first (close :: rest) = .ok (false, close :: rest) := by
    simp [nextItem, skipSpace_cons hs]
  rw [walk, ended]
  rfl

theorem walk_first {input : Octets} (n : Nat) (s : σ) (h : Opens close input) :
    walk close round (n + 1) true s input =
      (round s (skipSpace input)).bind fun (s, rest) => walk close round n false s rest := by
  obtain ⟨c, r, hr, hc⟩ := h
  simp only [walk, nextItem, hr, if_neg hc]
  rfl

theorem walk_next {input : Octets} (n : Nat) (s : σ) (hcomma : Mark.comma ≠ close)
    (h : Opens close input) :
    walk close round (n + 1) false s (Mark.comma :: input) =
      (round s (skipSpace input)).bind fun (s, rest) => walk close round n false s rest := by
  obtain ⟨c, r, hr, hc⟩ := h
  have comma : skipSpace (Mark.comma :: input) = Mark.comma :: input := skipSpace_cons (by decide) _
  simp only [walk, nextItem, comma, hr, if_neg hc, if_neg hcomma]
  rfl

variable (hs : isSpace close = false) (hcomma : Mark.comma ≠ close)
  (hstop : ∀ rest, Stops (close :: rest))

include hstop in
theorem stops_items (os : List Octets) (rest : Octets) :
    Stops (os.flatMap (Mark.comma :: ·) ++ close :: rest) := by
  cases os with
  | nil => exact hstop rest
  | cons o os => exact ⟨by decide, by decide, by decide, by decide⟩

include hs hcomma hstop

theorem walk_rest {os : List Octets} {s s' : σ} (h : Lead (Takes close round) os s s') {n : Nat}
    (hn : os.length < n) (rest : Octets) :
    walk close round n false s (os.flatMap (Mark.comma :: ·) ++ close :: rest) =
      .ok (s', close :: rest) := by
  induction os generalizing n s with
  | nil =>
    obtain ⟨n, rfl⟩ := Nat.exists_eq_add_one_of_ne_zero (Nat.ne_zero_of_lt hn)
    obtain rfl : s = s' := h
    exact walk_close hs n false s rest
  | cons o os ih =>
    obtain ⟨n, rfl⟩ := Nat.exists_eq_add_one_of_ne_zero (Nat.ne_zero_of_lt hn)
    obtain ⟨t, ho, hos⟩ := h
    obtain ⟨opens, taken⟩ := ho _ (stops_items hstop os rest)
    rw [List.flatMap_cons, List.append_assoc, List.cons_append, walk_next n s hcomma opens, taken]
    exact ih hos (Nat.lt_of_succ_lt_succ hn)

theorem walk_separated {os : List Octets} {s s' : σ} (h : Lead (Takes close round) os s s')
    {n : Nat} (hn : os.length < n) (rest : Octets) :
    walk close round n true s (separated os ++ close :: rest) = .ok (s', close :: rest) := by
  obtain ⟨n, rfl⟩ := Nat.exists_eq_add_one_of_ne_zero (Nat.ne_zero_of_lt hn)
  cases os with
  | nil =>
    obtain rfl : s = s' := h
    exact walk_close hs n true s rest
  | cons o os =>
    obtain ⟨t, ho, hos⟩ := h
    obtain ⟨opens, taken⟩ := ho _ (stops_items hstop os rest)
    rw [separated_cons, List.append_assoc, walk_first n s opens, taken]
    exact walk_rest hs hcomma hstop hos (Nat.lt_of_succ_lt_succ hn) rest

end Walk

theorem length_lt_fuel (os : List Octets) (close : UInt8) (rest : Octets) :
    os.length < (separated os ++ close :: rest).length + 1 := by
  have bound : os.length ≤ (separated os).length + 1 := length_le_separated os
  rw [List.length_append, List.length_cons]
  omega

section

variable {σ : Type} {s s' : σ} {os : List Octets}

theorem walkItems_separated {round : σ → Reader σ} (h : Lead (Takes Mark.closeList round) os s s')
    (rest : Octets) :
    walkItems round s (separated os ++ Mark.closeList :: rest) = .ok (s', Mark.closeList :: rest) :=
  walk_separated (by decide) (by decide) (fun _ => ⟨by decide, by decide, by decide, by decide⟩) h
    (length_lt_fuel os _ rest) rest

def TakesMember (round : String → σ → Reader σ) (o : Octets) (s s' : σ) : Prop :=
  ∃ k t, o = writeMember k t ∧
    ∀ rest, Stops rest → round k s (Mark.colon :: (t ++ rest)) = .ok (s', rest)

theorem walkMembers_separated {round : String → σ → Reader σ} (h : Lead (TakesMember round) os s s')
    (rest : Octets) :
    walkMembers round s (separated os ++ Mark.closeObject :: rest) =
      .ok (s', Mark.closeObject :: rest) := by
  refine walk_separated (by decide) (by decide)
    (fun _ => ⟨by decide, by decide, by decide, by decide⟩)
    (h.imp fun o s t ho rest hr => ?_) (length_lt_fuel os _ rest) rest
  obtain ⟨k, value, rfl, taken⟩ := ho
  have quoted : skipSpace (writeMember k value ++ rest) =
      Mark.quote :: ((octets k).flatMap writeOctet ++ Mark.quote ::
        (Mark.colon :: (value ++ rest))) := by
    rw [writeMember, List.append_assoc, writeString_append, skipSpace_cons (by decide)]
    rfl
  refine ⟨⟨Mark.quote, _, quoted, by decide⟩, ?_⟩
  beta_reduce
  rw [skipSpace_skipSpace, quoted]
  change (readString _ >>= fun x => round x.1 s x.2) = _
  rw [readString_written]
  exact taken rest hr

end

section

variable (levels : Nat)

theorem readValue_eq_with :
    ∃ array object : Reader Value, readValue levels = readValueWith id array object := by
  cases levels with
  | zero => exact ⟨_, _, rfl⟩
  | succ levels => exact ⟨_, _, rfl⟩

theorem readValue_skipSpace (input : Octets) :
    readValue levels (skipSpace input) = readValue levels input := by
  obtain ⟨array, object, h⟩ := readValue_eq_with levels
  rw [h, readValueWith, readValueWith, skipSpace_skipSpace]

variable {levels}

theorem opens_of_readValue {input : Octets} {r : Value × Octets}
    (h : readValue levels input = .ok r) : Opens Mark.closeList input := by
  obtain ⟨array, object, he⟩ := readValue_eq_with levels
  rw [he, readValueWith] at h
  split at h
  · cases h
  · next c rest hc =>
    refine ⟨c, rest, hc, ?_⟩
    rintro rfl
    cases h

theorem Spells.opens {o : Octets} {v : Value} (h : Spells levels o v) {rest : Octets}
    (hr : Stops rest) : Opens Mark.closeList (o ++ rest) :=
  opens_of_readValue (h rest hr)

theorem spells_null : Spells levels (octets "null") .null := by
  intro rest _
  obtain ⟨array, object, h⟩ := readValue_eq_with levels
  have word : readWord (octets "null") (octets "null" ++ rest) = .ok ((), rest) :=
    readWord_append _ rest
  rw [h]
  exact congrArg (Except.map fun r => (Value.null, r.2)) word

theorem spells_flag (b : Bool) :
    Spells levels (octets (if b then "true" else "false")) (.flag b) := by
  intro rest _
  obtain ⟨array, object, h⟩ := readValue_eq_with levels
  rw [h]
  cases b with
  | true =>
    have word : readWord (octets "true") (octets "true" ++ rest) = .ok ((), rest) :=
      readWord_append _ rest
    exact congrArg (Except.map fun r => (Value.flag true, r.2)) word
  | false =>
    have word : readWord (octets "false") (octets "false" ++ rest) = .ok ((), rest) :=
      readWord_append _ rest
    exact congrArg (Except.map fun r => (Value.flag false, r.2)) word

theorem spells_text (s : String) : Spells levels (writeString s) (.text s) := by
  intro rest _
  obtain ⟨array, object, h⟩ := readValue_eq_with levels
  rw [h, writeString_append]
  exact congrArg (Except.map fun r => (Value.text r.1, r.2)) (readString_written s rest)

end

section

variable {levels : Nat} {os : List Octets}

theorem lead_items {vs : List Value} (h : List.Forall₂ (Spells levels) os vs)
    (seen : List Value) :
    Lead (Takes Mark.closeList fun seen input => do
      let (v, rest) ← readValue levels input
      return (v :: seen, rest)) os seen (vs.reverse ++ seen) := by
  induction h generalizing seen with
  | nil => rfl
  | @cons o v os vs ho _ ih =>
    rw [List.reverse_cons, List.append_assoc]
    refine ⟨v :: seen, fun rest hr => ⟨ho.opens hr, ?_⟩, ih (v :: seen)⟩
    simp only [readValue_skipSpace, ho rest hr, bind, Except.bind]
    rfl

theorem spells_array {vs : List Value} (h : List.Forall₂ (Spells levels) os vs) :
    Spells (levels + 1) (writeItems os) (.array vs) := by
  intro rest _
  have opened : readValue (levels + 1) (writeItems os ++ rest) =
      (readArrayOf (readValue levels) (separated os ++ Mark.closeList :: rest)).map
        fun r => (.array r.1, r.2) := by
    simp only [writeItems, List.cons_append, List.append_assoc]
    rfl
  have items := walkItems_separated (lead_items h []) rest
  rw [opened, readArrayOf, items]
  simp only [bind, Except.bind, closeItems,
    readMark_cons (show isSpace Mark.closeList = false by decide), List.append_nil,
    List.reverse_reverse]
  rfl

theorem lead_members {ms : List (String × Value)}
    (h : List.Forall₂ (SpellsMember levels) os ms) (seen : List (String × Value)) :
    Lead (TakesMember fun key seen input => do
      let (_, rest) ← readColon input
      let (v, rest) ← readValue levels rest
      return ((key, v) :: seen, rest)) os seen (ms.reverse ++ seen) := by
  induction h generalizing seen with
  | nil => rfl
  | @cons o m os ms ho _ ih =>
    obtain ⟨t, rfl, spelled⟩ := ho
    rw [List.reverse_cons, List.append_assoc]
    refine ⟨m :: seen, ⟨m.1, t, rfl, fun rest hr => ?_⟩, ih (m :: seen)⟩
    simp only [readColon, readMark_cons (show isSpace Mark.colon = false by decide), bind,
      Except.bind, spelled rest hr]
    rfl

theorem spells_object {ms : List (String × Value)} (h : List.Forall₂ (SpellsMember levels) os ms) :
    Spells (levels + 1) (writeMembers os) (.object ms) := by
  intro rest _
  have opened : readValue (levels + 1) (writeMembers os ++ rest) =
      (readObjectOf (readValue levels) (separated os ++ Mark.closeObject :: rest)).map
        fun r => (.object r.1, r.2) := by
    simp only [writeMembers, List.cons_append, List.append_assoc]
    rfl
  have members := walkMembers_separated (lead_members h []) rest
  rw [opened, readObjectOf, members]
  simp only [bind, Except.bind, closeMembers,
    readMark_cons (show isSpace Mark.closeObject = false by decide), List.append_nil,
    List.reverse_reverse]
  rfl

end

end GatewayEnrichment.Json
