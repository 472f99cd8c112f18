import GatewayEnrichment.Settings
import GatewayEnrichment.Proofs.Text.Trimming

/-! The numbers among the settings. A text denotes a number when it has blanks, perhaps a plus sign,
then digits, then blanks. The digits are read one at a time, and since a number only grows with its
digits, it is refused on the way exactly when the whole of it is too large. -/

namespace GatewayEnrichment.Settings

def Written (cs : List Char) (n : Nat) : Prop :=
  ∃ sign digits, cs = sign ++ digits ∧ (sign = [] ∨ sign = ['+']) ∧
    digits ≠ [] ∧ (∀ c ∈ digits, c.isDigit = true) ∧ Nat.ofDigitChars 10 digits 0 = n ∧
      n < UInt64.size

def Denotes (text : String) (n : Nat) : Prop :=
  ∃ before cs after, text.toList = before ++ cs ++ after ∧ Blanks before ∧ Blanks after ∧
    Written cs n

theorem Denotes.lt {text : String} {n : Nat} (h : Denotes text n) : n < UInt64.size := by
  obtain ⟨_, _, _, -, -, -, _, _, -, -, -, -, -, small⟩ := h
  exact small

theorem appended?_eq_some_iff {m n : Nat} {c : Char} :
    appended? m c = some n ↔
      c.isDigit = true ∧ 10 * m + (c.toNat - '0'.toNat) = n ∧ n < UInt64.size := by
  unfold appended?
  dsimp only
  rw [Option.ite_none_right_eq_some, Option.ite_none_right_eq_some, Option.some.injEq]
  refine and_congr_right fun _ => ⟨?_, ?_⟩
  · rintro ⟨small, rfl⟩
    exact ⟨rfl, small⟩
  · rintro ⟨rfl, small⟩
    exact ⟨small, rfl⟩

theorem foldlM_appended_eq_some_iff (digits : List Char) (n : Nat) :
    digits.foldlM appended? 0 = some n ↔
      (∀ c ∈ digits, c.isDigit = true) ∧ Nat.ofDigitChars 10 digits 0 = n ∧ n < UInt64.size := by
  induction digits using List.reverseRecOn generalizing n with
  | nil =>
    simp only [List.foldlM_nil, Nat.ofDigitChars_nil, Option.pure_def, Option.some.injEq,
      List.not_mem_nil, false_imp_iff, implies_true, true_and]
    refine ⟨?_, And.left⟩
    rintro rfl
    exact ⟨rfl, by decide⟩
  | append_singleton digits c ih =>
    have value : Nat.ofDigitChars 10 (digits ++ [c]) 0 =
        10 * Nat.ofDigitChars 10 digits 0 + (c.toNat - '0'.toNat) := by
      simp [Nat.ofDigitChars_append, Nat.ofDigitChars_cons]
    have last (m : Nat) : [c].foldlM appended? m = appended? m c := by simp
    rw [List.foldlM_append, value, Option.bind_eq_bind, Option.bind_eq_some_iff]
    simp only [last, ih, appended?_eq_some_iff, List.forall_mem_append, List.forall_mem_singleton]
    constructor
    · rintro ⟨m, ⟨all, rfl, -⟩, digit, rfl, small⟩
      exact ⟨⟨all, digit⟩, rfl, small⟩
    · rintro ⟨⟨all, digit⟩, rfl, small⟩
      exact ⟨_, ⟨all, rfl, by omega⟩, digit, rfl, small⟩

theorem natural?_eq_some_iff (s : String) (n : Nat) : natural? s = some n ↔ Written s.toList n := by
  have read (digits : List Char) :
      (if digits = [] then none else digits.foldlM appended? 0) = some n ↔
        digits ≠ [] ∧ (∀ c ∈ digits, c.isDigit = true) ∧ Nat.ofDigitChars 10 digits 0 = n ∧
          n < UInt64.size :=
    Option.ite_none_left_eq_some.trans
      (and_congr_right fun _ => foldlM_appended_eq_some_iff digits n)
  unfold natural? Written
  dsimp only
  generalize s.toList = cs
  split
  · next _ ds =>
    rw [read]
    constructor
    · exact fun h => ⟨['+'], ds, rfl, .inr rfl, h⟩
    · rintro ⟨sign, digits, same, rfl | rfl, h⟩
      · obtain rfl : '+' :: ds = digits := same
        exact absurd (h.2.1 '+' List.mem_cons_self) (by decide)
      · obtain rfl : ds = digits := (List.cons.inj same).2
        exact h
  · next _ unsigned =>
    rw [read]
    constructor
    · exact fun h => ⟨[], cs, rfl, .inl rfl, h⟩
    · rintro ⟨sign, digits, same, rfl | rfl, h⟩
      · obtain rfl : cs = digits := same
        exact h
      · exact absurd same (unsigned digits)

theorem not_isBlank_of_isDigit {c : Char} (h : c.isDigit = true) : ¬ isBlank c = true := by
  have range : 48 ≤ c.toNat ∧ c.toNat ≤ 57 := by
    simpa [Char.isDigit, UInt32.le_iff_toNat_le] using h
  simp only [isBlank, Bool.or_eq_true, Bool.and_eq_true, decide_eq_true_eq, beq_iff_eq]
  omega

theorem Written.trimChars {cs before after : List Char} {n : Nat} (h : Written cs n)
    (hb : Blanks before) (ha : Blanks after) : trimChars (before ++ cs ++ after) = cs := by
  obtain ⟨sign, digits, rfl, signs, some, all, -⟩ := h
  have last : ¬ isBlank ((sign ++ digits).getLast (by simp [some])) = true := by
    rw [List.getLast_append_of_ne_nil _ some]
    exact not_isBlank_of_isDigit (all _ (List.getLast_mem some))
  refine trimChars_append hb ha (by simp [some]) ?_ last
  rcases signs with rfl | rfl
  · exact not_isBlank_of_isDigit (all _ (List.head_mem some))
  · show ¬ isBlank '+' = true
    decide

theorem natural?_trimmed_eq_some_iff (text : String) (n : Nat) :
    natural? (trimmed text) = some n ↔ Denotes text n := by
  rw [natural?_eq_some_iff, trimmed, String.toList_ofList]
  constructor
  · intro written
    obtain ⟨before, after, cut, hb, ha⟩ := exists_trimChars text.toList
    exact ⟨before, _, after, cut, hb, ha, written⟩
  · rintro ⟨before, cs, after, cut, hb, ha, written⟩
    rw [cut, written.trimChars hb ha]
    exact written

end GatewayEnrichment.Settings
