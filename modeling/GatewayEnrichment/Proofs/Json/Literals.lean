import Mathlib.Data.List.TakeDrop
import GatewayEnrichment.Json.Direct
import GatewayEnrichment.Proofs.Json.Spelling

/-! Numbers as they stand in a written text. A literal that is put together from well-formed parts
is cut into the same parts again, and the text of a number, positional or with an exponent, is such
a literal. -/

namespace GatewayEnrichment

def asciiOctets (cs : List Char) : Octets := cs.map fun c => UInt8.ofNat c.toNat

theorem asciiOctets_append (as bs : List Char) :
    asciiOctets (as ++ bs) = asciiOctets as ++ asciiOctets bs := List.map_append

theorem octets_ofList_ascii {cs : List Char} (h : ∀ c ∈ cs, c.toNat < 0x80) :
    octets (String.ofList cs) = asciiOctets cs := by
  rw [octets_ofList, List.flatMap_congr fun c hc => utf8EncodeChar_of_ascii (h c hc),
    ← List.map_eq_flatMap]
  rfl

namespace Json

def AllDigits (ds : Octets) : Prop := ∀ c ∈ ds, isDigit c = true

section

variable {cs : List Char} (h : ∀ c ∈ cs, c.isDigit = true)

theorem digit_range {c : Char} (h : c.isDigit = true) : 48 ≤ c.toNat ∧ c.toNat ≤ 57 := by
  simpa [Char.isDigit, UInt32.le_iff_toNat_le] using h

theorem toNat_asciiOctet {c : Char} (h : c.isDigit = true) :
    (UInt8.ofNat c.toNat).toNat = c.toNat := by
  have range := digit_range h
  exact UInt8.toNat_ofNat_of_lt' (Nat.lt_of_le_of_lt range.2 (by decide))

include h

theorem allDigits_asciiOctets : AllDigits (asciiOctets cs) := by
  intro d hd
  obtain ⟨c, hc, rfl⟩ := List.mem_map.mp hd
  simp only [isDigit, Bool.and_eq_true, decide_eq_true_eq, UInt8.le_iff_toNat_le,
    toNat_asciiOctet (h c hc)]
  exact digit_range (h c hc)

theorem digitsValue_asciiOctets : digitsValue (asciiOctets cs) = Nat.ofDigitChars 10 cs 0 := by
  rw [digitsValue, asciiOctets, List.foldl_map, Nat.ofDigitChars_eq_foldl]
  refine List.foldl_ext _ _ _ fun n c hc => ?_
  rw [toNat_asciiOctet (h c hc)]
  rfl

end

theorem span_digits {ds rest : Octets} (hd : AllDigits ds)
    (hr : ∀ c ∈ rest.head?, isDigit c = false) : (ds ++ rest).span isDigit = (ds, rest) := by
  have stopped : rest.takeWhile isDigit = [] ∧ rest.dropWhile isDigit = rest := by
    cases rest with
    | nil => exact ⟨rfl, rfl⟩
    | cons c rest => simp [hr c rfl]
  rw [List.span_eq_takeWhile_dropWhile, List.takeWhile_append_of_pos hd,
    List.dropWhile_append_of_pos hd, stopped.1, stopped.2, List.append_nil]

namespace Literal

structure WellFormed (l : Literal) : Prop where
  whole : AllDigits l.whole
  whole_ne : l.whole ≠ []
  lead : l.whole.head? = some Mark.zero → l.whole = [Mark.zero]
  fraction : AllDigits l.fraction
  exponent : ∀ e ∈ l.exponent, AllDigits e.2 ∧ e.2 ≠ []

def writtenFraction (ds : Octets) : Octets := if ds = [] then [] else Mark.point :: ds

def writtenExponent : Option (Bool × Octets) → Octets
  | none => []
  | some (negative, ds) => Mark.e :: (if negative then Mark.minus else Mark.plus) :: ds

def written (l : Literal) : Octets :=
  (if l.negative then [Mark.minus] else []) ++ l.whole ++ writtenFraction l.fraction ++
    writtenExponent l.exponent

theorem someDigits_append {ds rest : Octets} (hd : AllDigits ds) (hne : ds ≠ [])
    (hr : ∀ c ∈ rest.head?, isDigit c = false) : someDigits (ds ++ rest) = .ok (ds, rest) := by
  have cut := span_digits hd hr
  obtain ⟨d, ds, rfl⟩ := List.exists_cons_of_ne_nil hne
  rw [List.cons_append] at cut ⊢
  simp only [someDigits, hd d List.mem_cons_self, if_true, cut]

theorem wholePart_append {ds rest : Octets} (hd : AllDigits ds) (hne : ds ≠ [])
    (lead : ds.head? = some Mark.zero → ds = [Mark.zero])
    (hr : ∀ c ∈ rest.head?, isDigit c = false) : wholePart (ds ++ rest) = .ok (ds, rest) := by
  by_cases hz : ds.head? = some Mark.zero
  · obtain rfl := lead hz
    cases rest with
    | nil => rfl
    | cons c rest =>
      change (if isDigit c = true then _ else _) = _
      rw [hr c rfl]
      rfl
  · obtain ⟨d, ds, rfl⟩ := List.exists_cons_of_ne_nil hne
    have ne : d ≠ Mark.zero := fun h => hz (congrArg some h)
    have digits := someDigits_append hd hne hr
    rw [List.cons_append] at digits ⊢
    rw [← digits, wholePart]
    intro c r h
    exact absurd (List.cons.inj h).1 ne

theorem fractionPart_append {ds rest : Octets} (hd : AllDigits ds)
    (hr : ∀ c ∈ rest.head?, isDigit c = false ∧ c ≠ Mark.point) :
    fractionPart (writtenFraction ds ++ rest) = .ok (ds, rest) := by
  by_cases hne : ds = []
  · subst hne
    cases rest with
    | nil => rfl
    | cons c rest =>
      have ne : c ≠ Mark.point := (hr c rfl).2
      simp only [writtenFraction, if_true, List.nil_append]
      rw [fractionPart]
      intro r h
      exact absurd (List.cons.inj h).1 ne
  · rw [writtenFraction, if_neg hne]
    exact someDigits_append hd hne fun c hc => (hr c hc).1

theorem exponentPart_append {e : Option (Bool × Octets)} {rest : Octets}
    (he : ∀ x ∈ e, AllDigits x.2 ∧ x.2 ≠ []) (hr : Stops rest) :
    exponentPart (writtenExponent e ++ rest) = .ok (e, rest) := by
  cases e with
  | none =>
    cases rest with
    | nil => rfl
    | cons c rest =>
      obtain ⟨-, -, he, hE⟩ := hr
      simp only [writtenExponent, List.nil_append, exponentPart]
      rw [if_neg (not_or.mpr ⟨he, hE⟩)]
  | some x =>
    obtain ⟨negative, ds⟩ := x
    obtain ⟨hd, hne⟩ := he _ rfl
    have ended : ∀ c ∈ rest.head?, isDigit c = false := by
      cases rest with
      | nil => simp
      | cons c rest => simpa using hr.1
    have digits := someDigits_append hd hne ended
    have signed : exponentPart (writtenExponent (some (negative, ds)) ++ rest) =
        (someDigits (ds ++ rest)).map fun r => (some (negative, r.1), r.2) := by
      cases negative with
      | true => rfl
      | false => rfl
    rw [signed, digits]
    rfl

theorem head_writtenExponent (e : Option (Bool × Octets)) {rest : Octets} (hr : Stops rest) :
    ∀ c ∈ (writtenExponent e ++ rest).head?, isDigit c = false ∧ c ≠ Mark.point := by
  intro c hc
  cases e with
  | none =>
    cases rest with
    | nil => cases hc
    | cons d rest =>
      obtain rfl : d = c := Option.some.inj hc
      exact ⟨hr.1, hr.2.1⟩
  | some e =>
    obtain rfl : Mark.e = c := Option.some.inj hc
    exact ⟨by decide, by decide⟩

theorem head_writtenFraction (ds : Octets) {rest : Octets}
    (hr : ∀ c ∈ rest.head?, isDigit c = false ∧ c ≠ Mark.point) :
    ∀ c ∈ (writtenFraction ds ++ rest).head?, isDigit c = false := by
  intro c hc
  rw [writtenFraction] at hc
  split at hc
  · exact (hr c hc).1
  · obtain rfl : Mark.point = c := Option.some.inj hc
    decide

def readParts (negative : Bool) (input : Octets) : Except Flaw (Literal × Octets) := do
  let (whole, input) ← wholePart input
  let (fraction, input) ← fractionPart input
  let (exponent, input) ← exponentPart input
  return (⟨negative, whole, fraction, exponent⟩, input)

theorem read_written {l : Literal} (h : l.WellFormed) {rest : Octets} (hr : Stops rest) :
    Literal.read (l.written ++ rest) = .ok (l, rest) := by
  obtain ⟨negative, whole, fraction, exponent⟩ := l
  have tail := head_writtenExponent exponent hr
  have exponentRead := exponentPart_append h.exponent hr
  have fractionRead := fractionPart_append h.fraction tail
  have wholeRead := wholePart_append h.whole h.whole_ne h.lead (head_writtenFraction fraction tail)
  have cut : Literal.read (written ⟨negative, whole, fraction, exponent⟩ ++ rest) =
      readParts negative (whole ++ (writtenFraction fraction ++
        (writtenExponent exponent ++ rest))) := by
    simp only [written, List.append_assoc]
    cases negative with
    | true => rfl
    | false =>
      obtain ⟨d, ds, rfl⟩ := List.exists_cons_of_ne_nil h.whole_ne
      have digit : isDigit d = true := h.whole d List.mem_cons_self
      simp only [if_neg Bool.false_ne_true, List.nil_append, List.cons_append]
      rw [Literal.read]
      · rfl
      · intro r signed
        obtain rfl : d = Mark.minus := (List.cons.inj signed).1
        exact absurd digit (by decide)
  rw [cut, readParts, wholeRead]
  simp only [fractionRead, exponentRead, bind, Except.bind]
  rfl

end Literal

section

variable {c : UInt8} (hc : c = Mark.minus ∨ isDigit c = true)

include hc

theorem ne_of_digit {d : UInt8} (hm : d ≠ Mark.minus) (hd : isDigit d = false) : c ≠ d := by
  rintro rfl
  rcases hc with h | h
  · exact hm h
  · rw [hd] at h
    cases h

theorem isSpace_digit : isSpace c = false := by
  simp [isSpace, ne_of_digit hc (d := 0x20) (by decide) (by decide),
    ne_of_digit hc (d := 0x09) (by decide) (by decide),
    ne_of_digit hc (d := 0x0A) (by decide) (by decide),
    ne_of_digit hc (d := 0x0D) (by decide) (by decide)]

theorem readValueWith_digit {α : Type} (scalar : Value → α) (array object : Reader α)
    (rest : Octets) : readValueWith scalar array object (c :: rest) =
      (Numeral.read (c :: rest)).map fun (n, rest) => (scalar (.number n), rest) := by
  rw [readValueWith, skipSpace_cons (isSpace_digit hc)]
  simp only [if_neg (ne_of_digit hc (d := Mark.n) (by decide) (by decide)),
    if_neg (ne_of_digit hc (d := Mark.t) (by decide) (by decide)),
    if_neg (ne_of_digit hc (d := Mark.f) (by decide) (by decide)), if_pos hc]
  rfl

end

namespace Literal

theorem exists_written_eq_cons {l : Literal} (h : l.WellFormed) :
    ∃ c o, l.written = c :: o ∧ (c = Mark.minus ∨ isDigit c = true) := by
  obtain ⟨negative, whole, fraction, exponent⟩ := l
  obtain ⟨d, ds, rfl⟩ := List.exists_cons_of_ne_nil h.whole_ne
  cases negative with
  | true => exact ⟨Mark.minus, _, rfl, .inl rfl⟩
  | false => exact ⟨d, _, rfl, .inr (h.whole d List.mem_cons_self)⟩

theorem numeralRead_written {l : Literal} (h : l.WellFormed) {n : Numeral} (hn : l.numeral = .ok n)
    {rest : Octets} (hr : Stops rest) : Numeral.read (l.written ++ rest) = .ok (n, rest) := by
  rw [Numeral.read, read_written h hr]
  simp only [bind, Except.bind, hn]
  rfl

theorem spells_written {l : Literal} (h : l.WellFormed) {n : Numeral} (hn : l.numeral = .ok n)
    (levels : Nat) : Spells levels l.written (.number n) := by
  intro rest hr
  have whole := numeralRead_written h hn hr
  obtain ⟨array, object, he⟩ := readValue_eq_with levels
  obtain ⟨c, o, hw, hc⟩ := exists_written_eq_cons h
  rw [hw, List.cons_append] at whole ⊢
  rw [he, readValueWith_digit hc id array object, whole]
  rfl

end Literal

def digitsOf (n : Nat) : Octets := asciiOctets (Nat.toDigits 10 n)

theorem isDigit_toDigits {n : Nat} : ∀ c ∈ Nat.toDigits 10 n, c.isDigit = true := fun _ hc =>
  Nat.isDigit_of_mem_toDigits (by decide) (by decide) hc

theorem allDigits_digitsOf (n : Nat) : AllDigits (digitsOf n) :=
  allDigits_asciiOctets isDigit_toDigits

theorem digitsOf_ne_nil (n : Nat) : digitsOf n ≠ [] := by
  simp [digitsOf, asciiOctets, Nat.toDigits_ne_nil]

theorem digitsValue_digitsOf (n : Nat) : digitsValue (digitsOf n) = n := by
  rw [digitsOf, digitsValue_asciiOctets isDigit_toDigits, Nat.ofDigitChars_ten_toDigits]

theorem eq_zero_of_head_toDigits {n : Nat} (h : (Nat.toDigits 10 n).head? = some '0') : n = 0 := by
  induction n using Nat.strongRecOn with
  | _ n ih =>
    by_cases hn : n < 10
    · rw [Nat.toDigits_of_lt_base hn] at h
      exact (Nat.digitChar_eq_zero).mp (Option.some.inj h)
    · have tens : Nat.toDigits 10 n = Nat.toDigits 10 (n / 10) ++ [(n % 10).digitChar] :=
        Nat.toDigits_of_base_le (by decide) (Nat.not_lt.mp hn)
      rw [tens, List.head?_append_of_ne_nil _ Nat.toDigits_ne_nil] at h
      have := ih (n / 10) (by omega) h
      omega

theorem head_asciiOctets {cs : List Char} (h : ∀ c ∈ cs, c.isDigit = true)
    (hz : (asciiOctets cs).head? = some Mark.zero) : cs.head? = some '0' := by
  cases cs with
  | nil => cases hz
  | cons c cs =>
    have code : UInt8.ofNat c.toNat = Mark.zero := Option.some.inj hz
    have value : c.toNat = 48 := by
      rw [← toNat_asciiOctet (h c List.mem_cons_self), code]
      rfl
    exact congrArg some (Char.toNat_inj.mp value)

theorem lead_digitsOf {n : Nat} (h : (digitsOf n).head? = some Mark.zero) :
    n = 0 ∧ digitsOf n = [Mark.zero] := by
  have hn : n = 0 := eq_zero_of_head_toDigits (head_asciiOctets isDigit_toDigits h)
  subst hn
  exact ⟨rfl, rfl⟩

def integerLiteral (z : Int) : Literal := ⟨z < 0, digitsOf z.natAbs, [], none⟩

theorem wellFormed_integerLiteral (z : Int) : (integerLiteral z).WellFormed where
  whole := allDigits_digitsOf _
  whole_ne := digitsOf_ne_nil _
  lead h := (lead_digitsOf h).2
  fraction := by simp [AllDigits, integerLiteral]
  exponent := by simp [integerLiteral]

def intChars (z : Int) : List Char := (if z < 0 then ['-'] else []) ++ Nat.toDigits 10 z.natAbs

theorem toString_int (z : Int) : toString z = String.ofList (intChars z) := by
  cases z with
  | ofNat n => rfl
  | negSucc n =>
    rw [intChars, if_pos (Int.negSucc_lt_zero n), List.singleton_append, String.ofList_cons]
    rfl

theorem visible_intChars {z : Int} : ∀ c ∈ intChars z, 0x20 ≤ c.toNat ∧ c.toNat < 0x80 := by
  intro c hc
  rcases List.mem_append.mp hc with hc | hc
  · split at hc
    · exact List.mem_singleton.mp hc ▸ by decide
    · cases hc
  · have range := digit_range (isDigit_toDigits c hc)
    exact ⟨Nat.le_trans (by decide) range.1, Nat.lt_of_le_of_lt range.2 (by decide)⟩

theorem octets_toString_int (z : Int) : octets (toString z) = (integerLiteral z).written := by
  rw [toString_int, octets_ofList_ascii fun c hc => (visible_intChars c hc).2, intChars,
    asciiOctets_append]
  by_cases h : z < 0
  · simp [integerLiteral, Literal.written, Literal.writtenFraction, Literal.writtenExponent, h]
    rfl
  · simp [integerLiteral, Literal.written, Literal.writtenFraction, Literal.writtenExponent, h]
    rfl

theorem numeral_integerLiteral {z : Int} (low : Int64.minValue.toInt ≤ z) (high : z < UInt64.size) :
    (integerLiteral z).numeral = .ok (.integer z) := by
  have whole : (integerLiteral z).integer? = some z := by
    simp only [Literal.integer?, integerLiteral, digitsValue_digitsOf, decide_eq_true_eq]
    by_cases hz : z < 0
    · have value : -(z.natAbs : Int) = z := by omega
      rw [if_pos hz, value, if_pos ⟨Int.natAbs_pos.mpr (Int.ne_of_lt hz), low⟩]
    · have value : (z.natAbs : Int) = z := by omega
      rw [if_neg hz, value, if_pos (by omega)]
  rw [Literal.numeral, whole]

end Json
end GatewayEnrichment
