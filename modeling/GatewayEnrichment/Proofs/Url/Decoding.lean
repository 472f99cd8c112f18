import GatewayEnrichment.Proofs.Json.Strings
import GatewayEnrichment.Url

/-! What a part of a path stands for. An octet may be given by its code, a percent sign and two
hexadecimal digits. A client gives the characters that may not stand in a path that way and leaves
all others alone, percent signs included, so what it sends stands for what it was given, and that is
the text itself exactly where no code was in it. -/

namespace GatewayEnrichment.Url

open String (utf8EncodeChar)

def hexValue? (c : Char) : Option Nat :=
  if '0' ≤ c ∧ c ≤ '9' then some (c.toNat - 0x30)
  else if 'A' ≤ c ∧ c ≤ 'F' then some (c.toNat - 0x37)
  else if 'a' ≤ c ∧ c ≤ 'f' then some (c.toNat - 0x57)
  else none

def escape? (mark high low : Char) : Option UInt8 :=
  if mark = '%' then do
    let high ← hexValue? high
    let low ← hexValue? low
    return UInt8.ofNat (16 * high + low)
  else none

def percentDecoded : List Char → Octets
  | c :: high :: low :: cs =>
    match escape? c high low with
    | some o => o :: percentDecoded cs
    | none => utf8EncodeChar c ++ percentDecoded (high :: low :: cs)
  | cs => cs.flatMap utf8EncodeChar

def Unescaped (cs : List Char) : Prop :=
  ∀ mark high low, [mark, high, low] <:+: cs → escape? mark high low = none

def sent (cs : List Char) : List Char := cs.flatMap (encodeUnless inPath)

theorem percentDecoded_cons {c : Char} {cs : List Char}
    (h : ∀ high low, [high, low] <+: cs → escape? c high low = none) :
    percentDecoded (c :: cs) = utf8EncodeChar c ++ percentDecoded cs := by
  match cs with
  | [] => rfl
  | [_] => rfl
  | high :: low :: cs =>
    have none := h high low (List.prefix_append [high, low] cs)
    rw [percentDecoded, none]

theorem percentDecoded_escape {mark high low : Char} {o : UInt8}
    (h : escape? mark high low = some o) (cs : List Char) :
    percentDecoded (mark :: high :: low :: cs) = o :: percentDecoded cs := by
  rw [percentDecoded, h]

/-! A text that holds a code is longer than what it stands for. -/

theorem utf8EncodeChar_ne_nil (c : Char) : utf8EncodeChar c ≠ [] := by
  rw [← List.length_pos_iff, String.length_utf8EncodeChar]
  exact c.utf8Size_pos

theorem length_percentDecoded_le (cs : List Char) :
    (percentDecoded cs).length ≤ (cs.flatMap utf8EncodeChar).length := by
  fun_induction percentDecoded cs with
  | case1 c high low cs o found ih =>
    have pos := List.length_pos_iff.mpr (utf8EncodeChar_ne_nil c)
    simp only [List.flatMap_cons, List.length_append, List.length_cons]
    omega
  | case2 c high low cs none ih =>
    rw [List.flatMap_cons, List.length_append, List.length_append]
    exact Nat.add_le_add_left ih _
  | case3 cs short => exact Nat.le_refl _

theorem unescaped_cons_iff {mark high low : Char} {cs : List Char} :
    Unescaped (mark :: high :: low :: cs) ↔
      escape? mark high low = none ∧ Unescaped (high :: low :: cs) := by
  constructor
  · intro h
    exact ⟨h mark high low (List.prefix_append [mark, high, low] cs).isInfix,
      fun m a b hi => h m a b (hi.trans (List.suffix_cons _ _).isInfix)⟩
  · rintro ⟨none, rest⟩ m a b hi
    rcases List.infix_cons_iff.mp hi with hp | hi
    · simp only [List.cons_prefix_cons, List.nil_prefix, and_true] at hp
      obtain ⟨rfl, rfl, rfl⟩ := hp
      exact none
    · exact rest m a b hi

theorem percentDecoded_eq_iff (cs : List Char) :
    percentDecoded cs = cs.flatMap utf8EncodeChar ↔ Unescaped cs := by
  fun_induction percentDecoded cs with
  | case1 c high low cs o found ih =>
    rw [unescaped_cons_iff, found]
    refine iff_of_false (fun h => ?_) (fun h => Option.some_ne_none o h.1)
    have pos := List.length_pos_iff.mpr (utf8EncodeChar_ne_nil c)
    have pos' := List.length_pos_iff.mpr (utf8EncodeChar_ne_nil high)
    have shorter := length_percentDecoded_le cs
    have same := congrArg List.length h
    simp only [List.flatMap_cons, List.length_append, List.length_cons] at same
    omega
  | case2 c high low cs none ih =>
    rw [unescaped_cons_iff, ← ih, List.flatMap_cons, List.append_cancel_left_eq]
    exact (and_iff_right none).symm
  | case3 cs short =>
    refine iff_of_true rfl fun m a b hi => ?_
    match cs with
    | [] | [_] | [_, _] => exact absurd hi.length_le (by simp)
    | c :: high :: low :: cs => exact absurd rfl (short c high low cs)

theorem hexValue_hexDigit : ∀ n : Nat, n < 16 → hexValue? (hexDigit (UInt8.ofNat n)) = some n := by
  decide

theorem hexValue_high (b : UInt8) : hexValue? (hexDigit (b / 16)) = some (b.toNat / 16) := by
  have half : b / 16 = UInt8.ofNat (b.toNat / 16) := by
    rw [← UInt8.toNat_inj, UInt8.toNat_div]
    exact (Nat.mod_eq_of_lt (Nat.lt_of_le_of_lt (Nat.div_le_self _ _) b.toNat_lt)).symm
  rw [half]
  exact hexValue_hexDigit _ (Nat.div_lt_of_lt_mul b.toNat_lt)

theorem hexValue_low (b : UInt8) : hexValue? (hexDigit (b % 16)) = some (b.toNat % 16) := by
  have half : b % 16 = UInt8.ofNat (b.toNat % 16) := by
    rw [← UInt8.toNat_inj, UInt8.toNat_mod]
    exact (Nat.mod_eq_of_lt (Nat.lt_of_le_of_lt (Nat.mod_le _ _) b.toNat_lt)).symm
  rw [half]
  exact hexValue_hexDigit _ (Nat.mod_lt _ (by decide))

theorem percentDecoded_percentEncoded (o : Octets) (cs : List Char) :
    percentDecoded (o.flatMap percentEncoded ++ cs) = o ++ percentDecoded cs := by
  induction o with
  | nil => rfl
  | cons b o ih =>
    have code : escape? '%' (hexDigit (b / 16)) (hexDigit (b % 16)) = some b := by
      rw [escape?, if_pos rfl, hexValue_high, hexValue_low]
      change some (UInt8.ofNat _) = _
      rw [Nat.div_add_mod, UInt8.ofNat_toNat]
    rw [List.flatMap_cons, List.append_assoc, List.cons_append, ← ih]
    exact percentDecoded_escape code _

theorem mem_encodeUnless {allowed : Char → Bool} {c d : Char} (h : d ∈ encodeUnless allowed c) :
    (d = c ∧ allowed c) ∨ d = '%' ∨ (hexValue? d).isSome := by
  rw [encodeUnless] at h
  split at h
  · next ha => exact .inl ⟨List.mem_singleton.mp h, ha⟩
  · obtain ⟨b, -, hb⟩ := List.mem_flatMap.mp h
    rw [percentEncoded, List.mem_cons, List.mem_pair] at hb
    rcases hb with rfl | rfl | rfl
    · exact .inr (.inl rfl)
    · exact .inr (.inr (by rw [hexValue_high]; rfl))
    · exact .inr (.inr (by rw [hexValue_low]; rfl))

theorem inPath_of_hexValue {c : Char} (h : (hexValue? c).isSome) : inPath c = true := by
  have graphic : isGraphic c = true := by
    rw [hexValue?] at h
    rw [isGraphic, Bool.and_eq_true, decide_eq_true_iff, decide_eq_true_iff]
    split at h
    · next hc => exact ⟨Char.le_trans (by decide) hc.1, Char.le_trans hc.2 (by decide)⟩
    · split at h
      · next hc => exact ⟨Char.le_trans (by decide) hc.1, Char.le_trans hc.2 (by decide)⟩
      · split at h
        · next hc => exact ⟨Char.le_trans (by decide) hc.1, Char.le_trans hc.2 (by decide)⟩
        · cases h
  have excluded : ['"', '#', '<', '>', '?', '\x60', '\x7b', '\x7d'].all
      fun d => (hexValue? d).isNone := by decide
  rw [inPath, graphic, Bool.true_and, decide_eq_true_iff]
  intro hm
  have none := List.all_eq_true.mp excluded c hm
  rw [Option.isNone_iff_eq_none] at none
  rw [none] at h
  cases h

theorem escape_eq_some {mark high low : Char} {o : UInt8} (h : escape? mark high low = some o) :
    mark = '%' ∧ (hexValue? high).isSome ∧ (hexValue? low).isSome := by
  rw [escape?] at h
  split at h
  · next hm =>
    cases hh : hexValue? high with
    | none => rw [hh] at h; cases h
    | some x =>
      cases hl : hexValue? low with
      | none => rw [hh, hl] at h; cases h
      | some y => exact ⟨hm, rfl, rfl⟩
  · cases h

theorem sent_cons (c : Char) (cs : List Char) : sent (c :: cs) = encodeUnless inPath c ++ sent cs :=
  List.flatMap_cons

theorem sent_cons_of_inPath {c : Char} (h : inPath c = true) (cs : List Char) :
    sent (c :: cs) = c :: sent cs := by
  rw [sent_cons, encodeUnless, if_pos h]
  rfl

theorem eq_cons_of_sent {d : Char} {ds cs : List Char} (h : d :: ds = sent cs)
    (digit : (hexValue? d).isSome) : ∃ rest, cs = d :: rest ∧ ds = sent rest := by
  cases cs with
  | nil => cases h
  | cons c cs =>
    rw [sent_cons, encodeUnless] at h
    split at h
    · obtain ⟨rfl, rfl⟩ := List.cons.inj h
      exact ⟨cs, rfl, rfl⟩
    · obtain ⟨b, bs, code⟩ := List.exists_cons_of_ne_nil (utf8EncodeChar_ne_nil c)
      rw [code] at h
      rw [(List.cons.inj h).1] at digit
      cases digit

theorem percentDecoded_sent_cons {c : Char} {cs : List Char}
    (ih : percentDecoded (sent cs) = percentDecoded cs)
    (none : ∀ high low, [high, low] <+: cs → escape? c high low = none) :
    percentDecoded (sent (c :: cs)) = percentDecoded (c :: cs) := by
  rw [percentDecoded_cons none, ← ih]
  by_cases allowed : inPath c
  · rw [sent_cons_of_inPath allowed]
    refine percentDecoded_cons fun high low hp => ?_
    cases he : escape? c high low with
    | none => rfl
    | some o =>
      -- digits are sent as they are, so these two would have followed before
      obtain ⟨-, digit, digit'⟩ := escape_eq_some he
      obtain ⟨more, hm⟩ := hp
      obtain ⟨rest, rfl, hr⟩ := eq_cons_of_sent hm digit
      obtain ⟨rest, rfl, -⟩ := eq_cons_of_sent hr digit'
      rw [← he]
      exact none high low (List.prefix_append [high, low] rest)
  · rw [sent_cons, encodeUnless, if_neg allowed]
    exact percentDecoded_percentEncoded _ _

theorem percentDecoded_sent (cs : List Char) : percentDecoded (sent cs) = percentDecoded cs := by
  fun_induction percentDecoded cs with
  | case1 c high low cs o found ih =>
    obtain ⟨rfl, digit, digit'⟩ := escape_eq_some found
    rw [sent_cons_of_inPath (by decide), sent_cons_of_inPath (inPath_of_hexValue digit),
      sent_cons_of_inPath (inPath_of_hexValue digit'), percentDecoded_escape found, ih]
  | case2 c high low cs none ih =>
    have here : ∀ a b, [a, b] <+: high :: low :: cs → escape? c a b = Option.none := by
      intro a b hp
      simp only [List.cons_prefix_cons, List.nil_prefix, and_true] at hp
      rw [hp.1, hp.2]
      exact none
    exact (percentDecoded_sent_cons ih here).trans (percentDecoded_cons here)
  | case3 cs short =>
    have few : ∀ cs : List Char, cs.length < 2 → ∀ c a b, [a, b] <+: cs →
        escape? c a b = none := fun cs h c a b hp => absurd hp.length_le (Nat.not_le.mpr h)
    match cs with
    | [] => rfl
    | [c] => exact percentDecoded_sent_cons rfl (few [] (by decide) c)
    | [c, d] =>
      have last := percentDecoded_sent_cons rfl (few [] (by decide) d)
      exact percentDecoded_sent_cons last (few [d] (by decide : 1 < 2) c)
    | c :: high :: low :: cs => exact absurd rfl (short c high low cs)

end GatewayEnrichment.Url
