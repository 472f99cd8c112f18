import GatewayEnrichment.Proofs.Binary.Scaling
import GatewayEnrichment.Proofs.Json.Literals

/-! The text of a finite number is the literal of a decimal that the number is next to. Decimals up
to the middle in front of the last double are read as doubles, and so is the text of the last double.
So whatever is written for a finite single or double is taken for a number again. -/

namespace GatewayEnrichment

open Json

namespace Json.Literal

def ofChars (negative : Bool) (whole fraction : List Char) (exponent : Option Int) : Literal where
  negative := negative
  whole := asciiOctets whole
  fraction := asciiOctets fraction
  exponent := exponent.map fun e => (e < 0, digitsOf e.natAbs)

def pointed : List Char → List Char
  | [] => []
  | c :: cs => '.' :: c :: cs

def powered : Option Int → List Char
  | none => []
  | some e => 'e' :: (if e < 0 then '-' else '+') :: Nat.toDigits 10 e.natAbs

variable {whole fraction : List Char} {exponent : Option Int}
  (hw : ∀ c ∈ whole, c.isDigit = true) (hf : ∀ c ∈ fraction, c.isDigit = true)

include hw hf

theorem wellFormed_ofChars (negative : Bool) (ne : whole ≠ [])
    (lead : whole.head? = some '0' → whole = ['0']) :
    (ofChars negative whole fraction exponent).WellFormed where
  whole := allDigits_asciiOctets hw
  whole_ne := by simpa [ofChars, asciiOctets] using ne
  lead h := congrArg asciiOctets (lead (head_asciiOctets hw h))
  fraction := allDigits_asciiOctets hf
  exponent := by
    intro e he
    obtain ⟨x, -, rfl⟩ := Option.map_eq_some_iff.mp he
    exact ⟨allDigits_digitsOf _, digitsOf_ne_nil _⟩

theorem exact_ofChars (negative : Bool) :
    (ofChars negative whole fraction exponent).exact =
      ⟨Nat.ofDigitChars 10 (whole ++ fraction) 0, exponent.getD 0 - fraction.length⟩ := by
  have both : ∀ c ∈ whole ++ fraction, c.isDigit = true := fun c hc =>
    (List.mem_append.mp hc).elim (hw c) (hf c)
  have digits : digitsValue ((ofChars negative whole fraction exponent).whole ++
      (ofChars negative whole fraction exponent).fraction) =
      Nat.ofDigitChars 10 (whole ++ fraction) 0 := by
    rw [← digitsValue_asciiOctets both, asciiOctets_append]
    rfl
  have places : (ofChars negative whole fraction exponent).fraction.length = fraction.length :=
    List.length_map _
  have scale : (ofChars negative whole fraction exponent).scale = exponent.getD 0 := by
    cases exponent with
    | none => rfl
    | some e =>
      simp only [Literal.scale, ofChars, Option.map_some, digitsValue_digitsOf, decide_eq_true_eq,
        Option.getD_some]
      split <;> omega
  rw [Literal.exact, digits, scale, places]

omit hw hf in
theorem written_ofChars (negative : Bool) :
    (ofChars negative whole fraction exponent).written =
      (if negative then [Mark.minus] else []) ++
        asciiOctets (whole ++ pointed fraction ++ powered exponent) := by
  have point : writtenFraction (asciiOctets fraction) = asciiOctets (pointed fraction) := by
    cases fraction with
    | nil => rfl
    | cons c fraction => rfl
  have power : writtenExponent (exponent.map fun e => (decide (e < 0), digitsOf e.natAbs)) =
      asciiOctets (powered exponent) := by
    cases exponent with
    | none => rfl
    | some e => by_cases h : e < 0 <;> simp [writtenExponent, powered, h, asciiOctets, digitsOf]
  simp only [written, ofChars, point, power, asciiOctets_append, List.append_assoc]
  rfl

end Json.Literal

/-! Each layout lays the digits of a decimal out as a literal that has its value. -/

/-- The characters are a literal with the value of the decimal, and there is a point or an exponent
in it. -/
def Renders (cs : List Char) (d : Decimal) : Prop :=
  (∀ c ∈ cs, 0x20 ≤ c.toNat ∧ c.toNat < 0x80) ∧
    ∃ whole fraction exponent, cs = whole ++ Literal.pointed fraction ++ Literal.powered exponent ∧
      (fraction ≠ [] ∨ exponent ≠ none) ∧
      ∀ negative, (Literal.ofChars negative whole fraction exponent).WellFormed ∧
        (Literal.ofChars negative whole fraction exponent).exact.value = d.value

theorem renders_of {whole fraction : List Char} {exponent : Option Int} {d : Decimal}
    (hw : ∀ c ∈ whole, c.isDigit = true) (hf : ∀ c ∈ fraction, c.isDigit = true)
    (ne : whole ≠ []) (lead : whole.head? = some '0' → whole = ['0'])
    (value : (⟨Nat.ofDigitChars 10 (whole ++ fraction) 0,
      exponent.getD 0 - fraction.length⟩ : Decimal).value = d.value)
    (broken : fraction ≠ [] ∨ exponent ≠ none) :
    Renders (whole ++ Literal.pointed fraction ++ Literal.powered exponent) d := by
  have ascii : ∀ cs : List Char, (∀ c ∈ cs, c.isDigit = true) →
      ∀ c ∈ cs, 0x20 ≤ c.toNat ∧ c.toNat < 0x80 := fun cs h c hc =>
    have range := digit_range (h c hc)
    ⟨Nat.le_trans (by decide) range.1, Nat.lt_of_le_of_lt range.2 (by decide)⟩
  refine ⟨fun c hc => ?_, whole, fraction, exponent, rfl, broken, fun negative =>
    ⟨Literal.wellFormed_ofChars hw hf negative ne lead, ?_⟩⟩
  · rcases List.mem_append.mp hc with hc | hc
    · rcases List.mem_append.mp hc with hc | hc
      · exact ascii whole hw c hc
      · cases fraction with
        | nil => cases hc
        | cons d fraction =>
          rcases List.mem_cons.mp hc with rfl | hc
          · decide
          · exact ascii _ hf c hc
    · cases exponent with
      | none => cases hc
      | some e =>
        rcases List.mem_cons.mp hc with rfl | hc
        · decide
        · rcases List.mem_cons.mp hc with rfl | hc
          · split <;> decide
          · exact ascii _ isDigit_toDigits c hc
  · rw [Literal.exact_ofChars hw hf]
    exact value

namespace Layout

theorem isDigit_zeros {count : Nat} : ∀ c ∈ List.replicate count '0', c.isDigit = true := by
  intro c hc
  rw [(List.mem_replicate.mp hc).2]
  rfl

theorem isDigit_append {as bs : List Char} (ha : ∀ c ∈ as, c.isDigit = true)
    (hb : ∀ c ∈ bs, c.isDigit = true) : ∀ c ∈ as ++ bs, c.isDigit = true := fun c hc =>
  (List.mem_append.mp hc).elim (ha c) (hb c)

section

variable {d : Decimal} {digits : List Char} (hd : digits = Nat.toDigits 10 d.digits)
  (hz : d.digits = 0 → d.exponent = 0)

include hd

theorem digits_spec : 0 < digits.length ∧ (∀ c ∈ digits, c.isDigit = true) ∧
    Nat.ofDigitChars 10 digits 0 = d.digits := by
  subst hd
  exact ⟨Nat.length_toDigits_pos, isDigit_toDigits, Nat.ofDigitChars_ten_toDigits⟩

theorem eq_zero_of_lead (h : digits.head? = some '0') : d.digits = 0 ∧ digits = ['0'] := by
  have zero : d.digits = 0 := eq_zero_of_head_toDigits (hd ▸ h)
  rw [hd, zero]
  exact ⟨rfl, rfl⟩

theorem renders_cut (exponent : Option Int) {n : Nat} (hn : 0 < n)
    (place : exponent.getD 0 - (digits.length - n : Nat) = d.exponent)
    (broken : digits.drop n ≠ [] ∨ exponent ≠ none) :
    Renders (digits.take n ++ Literal.pointed (digits.drop n) ++ Literal.powered exponent) d := by
  obtain ⟨length, isDigit, value⟩ := digits_spec hd
  refine renders_of (fun c hc => isDigit c (List.mem_of_mem_take hc))
    (fun c hc => isDigit c (List.mem_of_mem_drop hc)) ?_ (fun h => ?_) ?_ broken
  · simp [Nat.ne_of_gt hn, List.ne_nil_of_length_pos length]
  · rw [List.head?_take, if_neg (Nat.ne_of_gt hn)] at h
    obtain ⟨m, rfl⟩ : ∃ m, n = m + 1 := ⟨n - 1, (Nat.succ_pred_eq_of_pos hn).symm⟩
    rw [(eq_zero_of_lead hd h).2]
    simp
  · rw [List.take_append_drop, value, List.length_drop, place]

theorem renders_zeros {zeros : Nat} (place : -(zeros + digits.length : Int) = d.exponent) :
    Renders (['0', '.'] ++ List.replicate zeros '0' ++ digits) d := by
  obtain ⟨length, isDigit, value⟩ := digits_spec hd
  have ne : List.replicate zeros '0' ++ digits ≠ [] := by
    simp [List.ne_nil_of_length_pos length]
  have text : ['0', '.'] ++ List.replicate zeros '0' ++ digits = ['0'] ++
      Literal.pointed (List.replicate zeros '0' ++ digits) ++ Literal.powered none := by
    obtain ⟨c, cs, hc⟩ := List.exists_cons_of_ne_nil ne
    rw [List.append_assoc, hc]
    simp [Literal.pointed, Literal.powered]
  have whole :
      Nat.ofDigitChars 10 (['0'] ++ (List.replicate zeros '0' ++ digits)) 0 = d.digits := by
    rw [← List.append_assoc, Nat.ofDigitChars_append, Nat.ofDigitChars_append,
      Nat.ofDigitChars_replicate_zero, ← value]
    simp [Nat.ofDigitChars]
  have places : (none : Option Int).getD 0 - ((List.replicate zeros '0' ++ digits).length : Int) =
      d.exponent := by
    simp only [List.length_append, List.length_replicate, Option.getD_none]
    omega
  rw [text]
  refine renders_of (by simp) (isDigit_append isDigit_zeros isDigit) (by simp) (fun _ => rfl) ?_
    (.inl ne)
  rw [whole, places]

theorem renders_filled (hz : d.digits = 0 → d.exponent = 0) (nonneg : 0 ≤ d.exponent) :
    Renders (digits ++ List.replicate d.exponent.toNat '0' ++ ['.', '0']) d := by
  obtain ⟨length, isDigit, value⟩ := digits_spec hd
  have text : digits ++ List.replicate d.exponent.toNat '0' ++ ['.', '0'] =
      (digits ++ List.replicate d.exponent.toNat '0') ++ Literal.pointed ['0'] ++
        Literal.powered none := by
    simp [Literal.pointed, Literal.powered]
  rw [text]
  refine renders_of (isDigit_append isDigit isDigit_zeros) (by simp)
    (by simp [List.ne_nil_of_length_pos length]) (fun h => ?_) ?_ (.inl (by simp))
  · rw [List.head?_append_of_ne_nil _ (List.ne_nil_of_length_pos length)] at h
    obtain ⟨zero, single⟩ := eq_zero_of_lead hd h
    rw [hz zero, single]
    rfl
  · have whole : Nat.ofDigitChars 10 (digits ++ List.replicate d.exponent.toNat '0' ++ ['0']) 0 =
        10 * (10 ^ d.exponent.toNat * d.digits) := by
      rw [Nat.ofDigitChars_append, Nat.ofDigitChars_append, Nat.ofDigitChars_replicate_zero, value]
      simp [Nat.ofDigitChars]
    rw [whole, Decimal.value_of_nonneg nonneg, Decimal.value]
    simp
    ring

theorem renders_positional (hz : d.digits = 0 → d.exponent = 0) :
    Renders (positional digits (d.exponent + digits.length - 1)) d := by
  obtain ⟨length, -, -⟩ := digits_spec hd
  generalize hl : d.exponent + digits.length - 1 = first
  rw [positional]
  split
  · next before => exact renders_zeros hd (by omega)
  · next after =>
    dsimp only
    split
    · next short =>
      have count : first.toNat + 1 - digits.length = d.exponent.toNat := by omega
      rw [count]
      exact renders_filled hd hz (by omega)
    · next long =>
      have ne : digits.drop (first.toNat + 1) ≠ [] := by simpa using long
      have cut := renders_cut hd none (Nat.succ_pos first.toNat)
        (by rw [Option.getD_none]; omega) (.inl ne)
      obtain ⟨c, cs, hc⟩ := List.exists_cons_of_ne_nil ne
      rw [hc] at cut ⊢
      simpa [Literal.pointed, Literal.powered] using cut

theorem renders_scientific :
    Renders (scientific digits (d.exponent + digits.length - 1)) d := by
  obtain ⟨length, -, -⟩ := digits_spec hd
  have cut := renders_cut hd (some (d.exponent + digits.length - 1)) Nat.one_pos
    (by rw [Option.getD_some]; omega) (.inr (by simp))
  have point : Literal.pointed (digits.drop 1) =
      (if digits.length ≤ 1 then [] else ['.']) ++ digits.drop 1 := by
    rcases digits with _ | ⟨c, _ | ⟨c', cs⟩⟩ <;> simp [Literal.pointed]
  rw [point] at cut
  simpa [scientific, Literal.powered] using cut

end

theorem renders_apply (l : Layout) {d : Decimal} (hz : d.digits = 0 → d.exponent = 0) :
    Renders (l.apply d) d := by
  rw [apply]
  split
  · exact renders_positional rfl hz
  · exact renders_scientific rfl

end Layout

theorem Renders.congr {cs : List Char} {d d' : Decimal} (h : Renders cs d)
    (value : d.value = d'.value) : Renders cs d' := by
  rw [Renders, ← value]
  exact h

theorem Decimal.digits_stripped {d : Decimal} (h : d.digits ≠ 0) (count : Nat) :
    (d.stripped count).digits ≠ 0 := by
  induction count generalizing d with
  | zero => exact h
  | succ count ih =>
    rw [stripped]
    split
    · next tens => exact ih (d := ⟨d.digits / 10, d.exponent + 1⟩) (by dsimp only; omega)
    · exact h

namespace Format

variable (f : Format) {k : Nat}

theorem readsBack_of_onGrid {e : Int} {d : Decimal} (h : f.onGrid k e = some d) :
    f.readsBack k d = true := by
  simp only [onGrid] at h
  split at h
  · next lower upper =>
    split at h
    · obtain rfl := Option.some.inj h
      exact lower
    · obtain rfl := Option.some.inj h
      exact upper
  · next lower _ =>
    obtain rfl := Option.some.inj h
    exact lower
  · next _ upper =>
    obtain rfl := Option.some.inj h
    exact upper
  · cases h

/-- The shortest decimal reads back, unless the search ends without one. -/
theorem readsBack_shortest (k : Nat) :
    f.readsBack k (f.shortest k) = true ∨ f.shortest k = ⟨0, 0⟩ := by
  rw [shortest]
  generalize 17 = count
  generalize 1 = n
  induction count generalizing n with
  | zero => exact .inr rfl
  | succ count ih =>
    rw [searchGrids]
    split
    · next d hd => exact .inl (f.readsBack_of_onGrid hd)
    · exact ih (n + 1)

end Format

namespace Binary

variable {f : Format}

theorem renders_zero : Renders ['0', '.', '0'] ⟨0, 0⟩ :=
  Layout.renders_filled (d := ⟨0, 0⟩) rfl (fun _ => rfl) (Int.le_refl 0)

theorem exists_renders (x : Binary f) :
    ∃ d : Decimal, Renders x.magnitudeText d ∧
      (d.value = 0 ∨ (ofDecimal f false d).magnitude = x.magnitude) := by
  have zero : (⟨0, 0⟩ : Decimal).value = 0 := by simp [Decimal.value]
  rw [magnitudeText]
  split
  · exact ⟨⟨0, 0⟩, renders_zero, .inl zero⟩
  · next positive =>
    dsimp only
    generalize hd : f.shortest x.magnitude = d
    have value := d.value_stripped (digitCount d.digits)
    rcases hd ▸ f.readsBack_shortest x.magnitude with back | rfl
    · have magnitude : (ofDecimal f false d).magnitude = x.magnitude := by
        simpa [Format.readsBack] using back
      have digits : d.digits ≠ 0 := fun h => by
        rw [ofDecimal, if_pos h] at magnitude
        exact positive magnitude.symm
      refine ⟨d, Renders.congr (Layout.renders_apply _ fun h => ?_) value, .inr magnitude⟩
      exact absurd h (Decimal.digits_stripped digits _)
    · refine ⟨⟨0, 0⟩, Renders.congr (Layout.renders_apply _ fun _ => rfl) value, .inl zero⟩

end Binary

namespace Json

theorem numeral_ofChars {negative : Bool} {whole fraction : List Char} {exponent : Option Int}
    (broken : fraction ≠ [] ∨ exponent ≠ none)
    (small : (Literal.ofChars negative whole fraction exponent).exact.value ≤ Binary.lastMiddle) :
    ∃ n, (Literal.ofChars negative whole fraction exponent).numeral = .ok n := by
  have none : (Literal.ofChars negative whole fraction exponent).integer? = none := by
    rcases fraction with _ | ⟨c, fraction⟩
    · rcases exponent with _ | e
      · exact absurd broken (by simp)
      · rfl
    · rfl
  obtain ⟨digits, le⟩ := (Literal.ofChars negative whole fraction exponent).decimal_spec
  obtain ⟨x, read⟩ := Binary.exists_ofDecimal? digits (le.trans small)
  rw [Literal.numeral, none, read]
  exact ⟨_, rfl⟩

theorem exists_literal_of_isFinite {f : Format} {x : Binary f} (h : x.isFinite = true)
    (small : ∀ d : Decimal, (Binary.ofDecimal f false d).magnitude = x.magnitude →
      d.value ≤ Binary.lastMiddle) :
    ∃ (l : Literal) (n : Numeral), l.WellFormed ∧ l.numeral = .ok n ∧
      writeNumber x = l.written := by
  obtain ⟨d, ⟨ascii, whole, fraction, exponent, text, broken, literal⟩, near⟩ := x.exists_renders
  obtain ⟨wellFormed, value⟩ := literal x.negative
  have bound : d.value ≤ Binary.lastMiddle := by
    rcases near with zero | magnitude
    · rw [zero]
      exact Nat.cast_nonneg _
    · exact small d magnitude
  obtain ⟨n, hn⟩ := numeral_ofChars broken (value.trans_le bound)
  refine ⟨_, n, wellFormed, hn, ?_⟩
  rw [Literal.written_ofChars, ← text, writeNumber, Binary.text?, if_pos h, Option.getD_some]
  have ascii : ∀ c ∈ x.magnitudeText, c.toNat < 0x80 := fun c hc => (ascii c hc).2
  cases x.negative with
  | true => exact octets_ofList_ascii (List.forall_mem_cons.mpr ⟨by decide, ascii⟩)
  | false => exact octets_ofList_ascii ascii

theorem exists_literal_of_single {x : Binary .single} (h : x.isFinite = true) :
    ∃ (l : Literal) (n : Numeral), l.WellFormed ∧ l.numeral = .ok n ∧
      writeNumber x = l.written := by
  refine exists_literal_of_isFinite h fun d magnitude => ?_
  have finite : d.value < Format.single.reach := by
    refine (Binary.isFinite_ofDecimal_iff Format.standard_single false d).mp ?_
    rw [Binary.isFinite, magnitude]
    exact h
  exact (finite.trans Binary.reach_single_lt).le

def lastLiteral (negative : Bool) : Literal :=
  .ofChars negative ['1'] "7976931348623157".toList (some 308)

theorem writeNumber_last : ∀ negative, writeNumber
    (⟨negative, Format.double.infinity - 1, by decide⟩ : Binary .double) =
      (lastLiteral negative).written := by
  decide +kernel

theorem exists_numeral_last : ∀ negative, (lastLiteral negative).numeral.isOk = true := by
  decide +kernel

/-- The last double is read from its own text. The decimals next to any other lie in front of the
middle. -/
theorem exists_literal_of_double {x : Binary .double} (h : x.isFinite = true) :
    ∃ (l : Literal) (n : Numeral), l.WellFormed ∧ l.numeral = .ok n ∧
      writeNumber x = l.written := by
  by_cases last : x.magnitude = Format.double.infinity - 1
  · obtain ⟨negative, _, _⟩ := x
    obtain rfl := last
    have wellFormed : (lastLiteral negative).WellFormed :=
      Literal.wellFormed_ofChars (List.all_eq_true.mp (by decide)) (List.all_eq_true.mp (by decide))
        negative (by decide) (by decide)
    cases read : (lastLiteral negative).numeral with
    | ok n => exact ⟨_, n, wellFormed, read, writeNumber_last negative⟩
    | error e =>
      have ok := exists_numeral_last negative
      rw [read] at ok
      cases ok
  · refine exists_literal_of_isFinite h fun d magnitude => ?_
    have finite : x.magnitude < Format.double.infinity := of_decide_eq_true h
    have before : x.magnitude < Format.double.infinity - 1 := by omega
    exact Binary.value_le_lastMiddle (magnitude.trans_lt before)

end Json
end GatewayEnrichment
