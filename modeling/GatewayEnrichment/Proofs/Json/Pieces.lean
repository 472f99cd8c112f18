import Mathlib.Data.List.TakeWhile
import GatewayEnrichment.Proofs.Outcomes
import GatewayEnrichment.Proofs.Json.Literals

/-! The piece of a text that a reader takes. Readers go from left to right and look at most one
octet past what they take, and only to see whether a number goes on. So a piece that was taken once
is taken again, with the same result, in front of anything that cannot be taken for more of it. -/

namespace GatewayEnrichment.Json

def Blank (o : Octets) : Prop := ∀ c ∈ o, isSpace c = true

theorem blank_nil : Blank [] := fun _ hc => by cases hc

theorem blank_iff_skipSpace {o : Octets} : Blank o ↔ skipSpace o = [] :=
  List.dropWhile_eq_nil_iff.symm

theorem skipSpace_blank_append {o : Octets} (h : Blank o) (rest : Octets) :
    skipSpace (o ++ rest) = skipSpace rest := List.dropWhile_append_of_pos h

theorem exists_blank (input : Octets) : ∃ lead, Blank lead ∧ input = lead ++ skipSpace input :=
  ⟨input.takeWhile isSpace, fun _ hc => List.mem_takeWhile_imp hc,
    List.takeWhile_append_dropWhile.symm⟩

theorem length_skipSpace_le (input : Octets) : (skipSpace input).length ≤ input.length :=
  (List.dropWhile_sublist _).length_le

theorem length_lt_of_skipSpace {input r : Octets} {c : UInt8} (h : skipSpace input = c :: r) :
    r.length < input.length := by
  have bound := length_skipSpace_le input
  rw [h, List.length_cons] at bound
  exact bound

theorem isSpace_of_skipSpace {input rest : Octets} {c : UInt8} (h : skipSpace input = c :: rest) :
    isSpace c = false := by
  have again : skipSpace (c :: rest) = c :: rest := by rw [← h, skipSpace_skipSpace]
  cases hc : isSpace c with
  | false => rfl
  | true =>
    -- a text of the same length cannot have lost its first octet
    have shorter : skipSpace (c :: rest) = skipSpace rest := by
      rw [skipSpace, List.dropWhile_cons, hc]
      rfl
    have bound := length_skipSpace_le rest
    rw [← shorter, again, List.length_cons] at bound
    exact absurd bound (Nat.not_succ_le_self _)

theorem exists_blank_cons {input rest : Octets} {c : UInt8} (h : skipSpace input = c :: rest) :
    ∃ lead, Blank lead ∧ input = lead ++ c :: rest := by
  rw [← h]
  exact exists_blank input

theorem eq_append_of_readWord {word input rest : Octets}
    (h : readWord word input = .ok ((), rest)) : input = word ++ rest := by
  induction word generalizing input with
  | nil =>
    cases h
    rfl
  | cons w word ih =>
    cases input with
    | nil => cases h
    | cons c input =>
      rw [readWord] at h
      split at h
      · next same => rw [same, ih h, List.cons_append]
      · cases h

theorem exists_gap_of_readMark {c : UInt8} {input rest : Octets}
    (h : readMark c input = .ok ((), rest)) : ∃ gap, Blank gap ∧ input = gap ++ c :: rest := by
  rw [readMark] at h
  split at h
  · cases h
  · next d r hd =>
    split at h
    · next same =>
      cases h
      subst same
      exact exists_blank_cons hd
    · cases h

theorem readMark_of_begins {c : UInt8} {input r : Octets} (h : skipSpace input = c :: r) :
    readMark c input = .ok ((), r) := by
  rw [readMark, h]
  exact if_pos rfl

theorem readMark_gap {c : UInt8} (hc : isSpace c = false) {gap : Octets} (h : Blank gap)
    (rest : Octets) : readMark c (gap ++ c :: rest) = .ok ((), rest) := by
  rw [readMark, skipSpace_blank_append h, skipSpace_cons hc]
  exact if_pos rfl

theorem scanString_piece {care : Care} {phase : Phase} {seen input x rest : Octets}
    (h : scanString care phase seen input = .ok (x, rest)) :
    ∃ o, input = o ++ rest ∧ o ≠ [] ∧
      ∀ more, scanString care phase seen (o ++ more) = .ok (x, more) := by
  induction input generalizing phase seen with
  | nil => cases h
  | cons c input ih =>
    rw [scanString] at h
    split at h
    · cases h
    · next closed =>
      cases h
      refine ⟨[c], rfl, List.cons_ne_nil _ _, fun more => ?_⟩
      rw [List.singleton_append, scanString, closed]
    · next add next opened =>
      obtain ⟨o, rfl, -, taken⟩ := ih h
      refine ⟨c :: o, rfl, List.cons_ne_nil _ _, fun more => ?_⟩
      rw [List.cons_append, scanString, opened]
      exact taken more

def SpellsKey (o : Octets) (key : String) : Prop := ∀ rest, readString (o ++ rest) = .ok (key, rest)

theorem exists_spellsKey {input rest : Octets} {s : String}
    (h : readString input = .ok (s, rest)) : ∃ o, input = o ++ rest ∧ o ≠ [] ∧ SpellsKey o s := by
  obtain ⟨⟨x, rest'⟩, scanned, h⟩ := exists_of_bind_eq_ok h
  obtain ⟨o, split, ne, taken⟩ := scanString_piece scanned
  cases decoded : x.text? with
  | none =>
    simp only [decoded] at h
    cases h
  | some t =>
    simp only [decoded] at h
    cases h
    refine ⟨o, split, ne, fun more => ?_⟩
    rw [readString, taken more]
    simp only [decoded, bind, Except.bind]
    rfl

namespace Literal

theorem piece_of_someDigits {input ds rest : Octets} (h : someDigits input = .ok (ds, rest)) :
    input = ds ++ rest ∧ AllDigits ds ∧ ds ≠ [] := by
  cases input with
  | nil => cases h
  | cons c input =>
    rw [someDigits] at h
    split at h
    · next digit =>
      rw [List.span_eq_takeWhile_dropWhile] at h
      cases h
      refine ⟨List.takeWhile_append_dropWhile.symm, fun d hd => List.mem_takeWhile_imp hd, ?_⟩
      rw [List.takeWhile_cons, if_pos digit]
      exact List.cons_ne_nil _ _
    · cases h

theorem piece_of_wholePart {input ds rest : Octets} (h : wholePart input = .ok (ds, rest)) :
    input = ds ++ rest ∧ AllDigits ds ∧ ds ≠ [] ∧
      (ds.head? = some Mark.zero → ds = [Mark.zero]) := by
  unfold wholePart at h
  split at h
  · split at h
    · cases h
    · cases h
      refine ⟨rfl, ?_, List.cons_ne_nil _ _, fun _ => rfl⟩
      exact fun c hc => List.mem_singleton.mp hc ▸ rfl
  · next alone =>
    obtain ⟨split, digits, ne⟩ := piece_of_someDigits h
    refine ⟨split, digits, ne, fun zero => ?_⟩
    obtain ⟨d, ds, rfl⟩ := List.exists_cons_of_ne_nil ne
    obtain rfl : d = Mark.zero := Option.some.inj zero
    cases ds with
    | nil => rfl
    | cons c ds => exact absurd split (alone c (ds ++ rest))

theorem piece_of_fractionPart {input ds rest : Octets} (h : fractionPart input = .ok (ds, rest)) :
    input = writtenFraction ds ++ rest ∧ AllDigits ds := by
  unfold fractionPart at h
  split at h
  · obtain ⟨split, digits, ne⟩ := piece_of_someDigits h
    rw [writtenFraction, if_neg ne, split]
    exact ⟨rfl, digits⟩
  · cases h
    exact ⟨rfl, fun c hc => by cases hc⟩

section

variable {letter : UInt8} (hl : letter = Mark.e ∨ letter = Mark.capitalE)

def signedDigits (negative : Bool) (input : Octets) :
    Except Flaw (Option (Bool × Octets) × Octets) :=
  (someDigits input).map fun r => (some (negative, r.1), r.2)

include hl

theorem exponentPart_plus (input : Octets) :
    exponentPart (letter :: Mark.plus :: input) = signedDigits false input := if_pos hl

theorem exponentPart_minus (input : Octets) :
    exponentPart (letter :: Mark.minus :: input) = signedDigits true input := if_pos hl

theorem exponentPart_bare {input : Octets} (plus : ∀ r, input ≠ Mark.plus :: r)
    (minus : ∀ r, input ≠ Mark.minus :: r) :
    exponentPart (letter :: input) = signedDigits false input := by
  rw [exponentPart, if_pos hl]
  · rfl
  · exact plus
  · exact minus

theorem exists_sign_of_exponentPart (input : Octets) :
    ∃ sign negative r, input = sign ++ r ∧
      exponentPart (letter :: input) = signedDigits negative r ∧
      ∀ d ds, isDigit d = true →
        exponentPart (letter :: (sign ++ d :: ds)) = signedDigits negative (d :: ds) := by
  by_cases plus : ∃ r, input = Mark.plus :: r
  · obtain ⟨r, rfl⟩ := plus
    exact ⟨[Mark.plus], false, r, rfl, exponentPart_plus hl r, fun _ _ _ => exponentPart_plus hl _⟩
  · by_cases minus : ∃ r, input = Mark.minus :: r
    · obtain ⟨r, rfl⟩ := minus
      exact ⟨[Mark.minus], true, r, rfl, exponentPart_minus hl r,
        fun _ _ _ => exponentPart_minus hl _⟩
    · refine ⟨[], false, input, rfl, ?_, fun d ds digit => ?_⟩
      · exact exponentPart_bare hl (fun r hr => plus ⟨r, hr⟩) fun r hr => minus ⟨r, hr⟩
      · have other : ∀ m : UInt8, isDigit m = false → ∀ r, d :: ds ≠ m :: r := by
          intro m hm r hr
          rw [(List.cons.inj hr).1, hm] at digit
          cases digit
        exact exponentPart_bare hl (other _ (by decide)) (other _ (by decide))

end

theorem head_of_stops {more : Octets} (h : Stops more) : ∀ c ∈ more.head?, isDigit c = false := by
  cases more with
  | nil => simp
  | cons c more => simpa using h.1

theorem exists_piece_of_exponentPart {input rest : Octets} {e : Option (Bool × Octets)}
    (h : exponentPart input = .ok (e, rest)) :
    ∃ o, input = o ++ rest ∧ ∀ more, Stops more →
      exponentPart (o ++ more) = .ok (e, more) ∧
        ∀ c ∈ (o ++ more).head?, isDigit c = false ∧ c ≠ Mark.point := by
  have absent : ∀ more, Stops more → exponentPart ([] ++ more) = .ok (none, more) ∧
      ∀ c ∈ ([] ++ more).head?, isDigit c = false ∧ c ≠ Mark.point := fun more stops =>
    ⟨exponentPart_append (e := none) (by simp) stops, head_writtenExponent none stops⟩
  cases input with
  | nil =>
    cases h
    exact ⟨[], rfl, absent⟩
  | cons c input =>
    by_cases letter : c = Mark.e ∨ c = Mark.capitalE
    · have head : isDigit c = false ∧ c ≠ Mark.point := by
        rcases letter with rfl | rfl
        · decide
        · decide
      obtain ⟨sign, negative, r, rfl, read, again⟩ := exists_sign_of_exponentPart letter input
      rw [read] at h
      obtain ⟨⟨ds, rest'⟩, hd, hr⟩ := exists_of_map_eq_ok h
      cases hr
      obtain ⟨rfl, digits, ne⟩ := piece_of_someDigits hd
      refine ⟨c :: (sign ++ ds), by simp, fun more stops => ⟨?_, ?_⟩⟩
      · have ended := someDigits_append digits ne (head_of_stops stops)
        obtain ⟨d, ds, rfl⟩ := List.exists_cons_of_ne_nil ne
        rw [List.cons_append, List.append_assoc, List.cons_append,
          again d (ds ++ more) (digits d List.mem_cons_self), signedDigits, ← List.cons_append,
          ended]
        rfl
      · rintro d ⟨⟩
        exact head
    · rw [exponentPart.eq_def] at h
      dsimp only at h
      rw [if_neg letter] at h
      cases h
      exact ⟨[], rfl, absent⟩

theorem exists_piece_of_readParts {negative : Bool} {input rest : Octets} {l : Literal}
    (h : readParts negative input = .ok (l, rest)) :
    ∃ o, input = o ++ rest ∧ (∃ d ds, o = d :: ds ∧ isDigit d = true) ∧
      ∀ more, Stops more → readParts negative (o ++ more) = .ok (l, more) := by
  obtain ⟨⟨whole, input'⟩, hw, h⟩ := exists_of_bind_eq_ok h
  obtain ⟨⟨fraction, input''⟩, hf, h⟩ := exists_of_bind_eq_ok h
  obtain ⟨⟨exponent, rest'⟩, he, h⟩ := exists_of_bind_eq_ok h
  cases h
  obtain ⟨rfl, digits, ne, lead⟩ := piece_of_wholePart hw
  obtain ⟨rfl, fractionDigits⟩ := piece_of_fractionPart hf
  obtain ⟨o, rfl, taken⟩ := exists_piece_of_exponentPart he
  refine ⟨whole ++ (writtenFraction fraction ++ o), by simp, ?_, fun more stops => ?_⟩
  · obtain ⟨d, ds, rfl⟩ := List.exists_cons_of_ne_nil ne
    exact ⟨d, _, rfl, digits d List.mem_cons_self⟩
  · obtain ⟨exponentRead, tail⟩ := taken more stops
    have fractionRead := fractionPart_append fractionDigits tail
    have wholeRead := wholePart_append digits ne lead (head_writtenFraction fraction tail)
    rw [List.append_assoc, List.append_assoc, readParts, wholeRead]
    simp only [fractionRead, exponentRead, bind, Except.bind]
    rfl

theorem read_minus (input : Octets) :
    Literal.read (Mark.minus :: input) = readParts true input := rfl

theorem read_unsigned {input : Octets} (h : ∀ r, input ≠ Mark.minus :: r) :
    Literal.read input = readParts false input := by
  rw [Literal.read]
  · rfl
  · exact h

theorem exists_piece_of_read {input rest : Octets} {l : Literal}
    (h : Literal.read input = .ok (l, rest)) :
    ∃ o, input = o ++ rest ∧ o ≠ [] ∧
      ∀ more, Stops more → Literal.read (o ++ more) = .ok (l, more) := by
  by_cases signed : ∃ r, input = Mark.minus :: r
  · obtain ⟨r, rfl⟩ := signed
    rw [read_minus] at h
    obtain ⟨o, rfl, -, taken⟩ := exists_piece_of_readParts h
    refine ⟨Mark.minus :: o, rfl, List.cons_ne_nil _ _, fun more stops => ?_⟩
    rw [List.cons_append, read_minus]
    exact taken more stops
  · rw [read_unsigned fun r hr => signed ⟨r, hr⟩] at h
    obtain ⟨o, rfl, ⟨d, ds, rfl, digit⟩, taken⟩ := exists_piece_of_readParts h
    refine ⟨d :: ds, rfl, List.cons_ne_nil _ _, fun more stops => ?_⟩
    rw [read_unsigned]
    · exact taken more stops
    · intro r hr
      obtain rfl : d = Mark.minus := (List.cons.inj hr).1
      exact absurd digit (by decide)

end Literal

theorem exists_piece_of_numeralRead {input rest : Octets} {n : Numeral}
    (h : Numeral.read input = .ok (n, rest)) :
    ∃ o, input = o ++ rest ∧ o ≠ [] ∧
      ∀ more, Stops more → Numeral.read (o ++ more) = .ok (n, more) := by
  obtain ⟨⟨l, rest'⟩, hl, h⟩ := exists_of_bind_eq_ok h
  obtain ⟨m, hn, h⟩ := exists_of_bind_eq_ok h
  cases h
  obtain ⟨o, rfl, ne, taken⟩ := Literal.exists_piece_of_read hl
  refine ⟨o, rfl, ne, fun more stops => ?_⟩
  rw [Numeral.read, taken more stops]
  simp only [hn, bind, Except.bind]
  rfl

end GatewayEnrichment.Json
