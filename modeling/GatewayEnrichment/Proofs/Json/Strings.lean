import Mathlib.Data.List.Basic
import Mathlib.Tactic.IntervalCases
import GatewayEnrichment.Json.Writer

/-! Strings as they stand in a written text. Reading one gives back what was written, octet by
octet, whatever the string holds. What is written keeps to one line: it is UTF-8, and it has no
character below the space. -/

namespace GatewayEnrichment

open String (utf8EncodeChar)

theorem octets_ofList (cs : List Char) : octets (String.ofList cs) = cs.flatMap utf8EncodeChar := by
  simp [octets, List.utf8Encode]

theorem octets_eq_flatMap (s : String) : octets s = s.toList.flatMap utf8EncodeChar := by
  rw [← octets_ofList, String.ofList_toList]

theorem utf8EncodeChar_of_ascii {c : Char} (h : c.toNat < 0x80) :
    utf8EncodeChar c = [UInt8.ofNat c.toNat] := by
  have low : c.val.toNat ≤ 127 := Nat.le_of_lt_succ h
  rw [utf8EncodeChar]
  exact if_pos low

theorem le_of_mem_utf8EncodeChar {c : Char} (h : 0x80 ≤ c.toNat) {b : UInt8}
    (hb : b ∈ utf8EncodeChar c) : 0x80 ≤ b := by
  have high : ¬ c.val.toNat ≤ 127 := Nat.not_le.mpr h
  have marked : ∀ n m k : Nat, 0 < m → m + k ≤ 256 → 128 ≤ k →
      0x80 ≤ UInt8.ofNat (n % m + k) := by
    intro n m k hm hk h128
    have hn : n % m < m := Nat.mod_lt n hm
    rw [UInt8.le_iff_toNat_le, UInt8.toNat_ofNat_of_lt' (show n % m + k < 256 by omega)]
    exact Nat.le_add_left_of_le h128
  have cont : ∀ n, 0x80 ≤ UInt8.ofNat (n % 64 + 128) := fun n =>
    marked n 64 128 (by decide) (by decide) (by decide)
  rw [utf8EncodeChar, if_neg high] at hb
  split at hb
  · simp only [List.mem_cons, List.not_mem_nil, or_false] at hb
    rcases hb with rfl | rfl
    · exact marked _ 32 192 (by decide) (by decide) (by decide)
    · exact cont _
  · split at hb
    · simp only [List.mem_cons, List.not_mem_nil, or_false] at hb
      rcases hb with rfl | rfl | rfl
      · exact marked _ 16 224 (by decide) (by decide) (by decide)
      · exact cont _
      · exact cont _
    · simp only [List.mem_cons, List.not_mem_nil, or_false] at hb
      rcases hb with rfl | rfl | rfl | rfl
      · exact marked _ 8 240 (by decide) (by decide) (by decide)
      · exact cont _
      · exact cont _
      · exact cont _

def Printed (o : Octets) : Prop :=
  ∃ cs : List Char, o = cs.flatMap utf8EncodeChar ∧ ∀ c ∈ cs, ' ' ≤ c

namespace Printed

theorem nil : Printed [] := ⟨[], rfl, by simp⟩

theorem append {a b : Octets} (ha : Printed a) (hb : Printed b) : Printed (a ++ b) := by
  obtain ⟨as, rfl, has⟩ := ha
  obtain ⟨bs, rfl, hbs⟩ := hb
  refine ⟨as ++ bs, List.flatMap_append.symm, fun c hc => ?_⟩
  rcases List.mem_append.mp hc with hc | hc
  · exact has c hc
  · exact hbs c hc

theorem flatMap {α : Type} {as : List α} {f : α → Octets} (h : ∀ a ∈ as, Printed (f a)) :
    Printed (as.flatMap f) := by
  induction as with
  | nil => exact nil
  | cons a as ih =>
    rw [List.flatMap_cons]
    exact (h a List.mem_cons_self).append (ih fun b hb => h b (List.mem_cons_of_mem a hb))

theorem char {c : Char} (h : ' ' ≤ c) : Printed (utf8EncodeChar c) :=
  ⟨[c], by simp, by simpa using h⟩

theorem ascii {b : UInt8} (low : 0x20 ≤ b) (high : b < 0x80) : Printed [b] := by
  have valid : b.toNat < 0x80 := high
  have code : (Char.ofNat b.toNat).toNat = b.toNat := by
    rw [Char.ofNat, dif_pos (Or.inl (Nat.lt_trans valid (by decide)))]
    rfl
  have single : utf8EncodeChar (Char.ofNat b.toNat) = [b] := by
    rw [utf8EncodeChar_of_ascii (by rw [code]; exact valid), code, UInt8.ofNat_toNat]
  rw [← single]
  refine char ?_
  rw [Char.le_def, UInt32.le_iff_toNat_le]
  exact Nat.le_trans low (Nat.le_of_eq code.symm)

theorem cons {b : UInt8} {o : Octets} (low : 0x20 ≤ b) (high : b < 0x80) (h : Printed o) :
    Printed (b :: o) := (ascii low high).append h

theorem le_of_mem {o : Octets} (h : Printed o) {b : UInt8} (hb : b ∈ o) : 0x20 ≤ b := by
  obtain ⟨cs, rfl, hcs⟩ := h
  obtain ⟨c, hc, hb⟩ := List.mem_flatMap.mp hb
  by_cases high : 0x80 ≤ c.toNat
  · exact UInt8.le_trans (by decide) (le_of_mem_utf8EncodeChar high hb)
  · rw [utf8EncodeChar_of_ascii (Nat.not_le.mp high), List.mem_singleton] at hb
    subst hb
    have low : 0x20 ≤ c.toNat := hcs c hc
    rw [UInt8.le_iff_toNat_le, UInt8.toNat_ofNat_of_lt' (show c.toNat < 256 by omega)]
    exact low

end Printed

namespace Json

theorem writeOctet_of_plain {c : UInt8} (low : 0x20 ≤ c) (hq : c ≠ Mark.quote)
    (hb : c ≠ Mark.backslash) : writeOctet c = [c] := by
  have ne : ∀ d : UInt8, d < 0x20 → c ≠ d := fun d hd h =>
    absurd (h ▸ hd) (UInt8.not_lt.mpr low)
  rw [writeOctet, if_neg hq, if_neg hb, if_neg (ne _ (by decide)), if_neg (ne _ (by decide)),
    if_neg (ne _ (by decide)), if_neg (ne _ (by decide)), if_neg (ne _ (by decide)),
    if_neg (UInt8.not_lt.mpr low)]

/-- An octet below the space, a quote or a backslash: what the format makes an escape of. -/
theorem plain_or_escaped (c : UInt8) :
    (0x20 ≤ c ∧ c ≠ Mark.quote ∧ c ≠ Mark.backslash) ∨
      ∃ n, c = UInt8.ofNat n ∧ (n < 32 ∨ n = 34 ∨ n = 92) := by
  by_cases hq : c = Mark.quote
  · exact .inr ⟨34, hq, by decide⟩
  · by_cases hb : c = Mark.backslash
    · exact .inr ⟨92, hb, by decide⟩
    · by_cases low : 0x20 ≤ c
      · exact .inl ⟨low, hq, hb⟩
      · refine .inr ⟨c.toNat, (UInt8.ofNat_toNat).symm, .inl ?_⟩
        exact UInt8.not_le.mp low

theorem scanString_writeOctet (c : UInt8) (seen rest : Octets) :
    scanString .full .plain seen (writeOctet c ++ rest) =
      scanString .full .plain (c :: seen) rest := by
  rcases plain_or_escaped c with ⟨low, hq, hb⟩ | ⟨n, rfl, hn⟩
  · rw [writeOctet_of_plain low hq hb]
    simp [scanString, scanOctet, hq, hb, UInt8.not_lt.mpr low]
  · -- a short escape, or a code unit of four digits that closes at once
    rcases hn with hn | rfl | rfl
    · interval_cases n <;> rfl
    · rfl
    · rfl

theorem scanString_flatMap (o seen rest : Octets) :
    scanString .full .plain seen (o.flatMap writeOctet ++ Mark.quote :: rest) =
      .ok (seen.reverse ++ o, rest) := by
  induction o generalizing seen with
  | nil => simp [scanString, scanOctet]
  | cons c o ih =>
    rw [List.flatMap_cons, List.append_assoc, scanString_writeOctet, ih]
    simp

theorem writeString_append (s : String) (rest : Octets) : writeString s ++ rest =
    Mark.quote :: ((octets s).flatMap writeOctet ++ Mark.quote :: rest) := by
  simp [writeString, quoteOctets]

theorem readString_written (s : String) (rest : Octets) :
    readString ((octets s).flatMap writeOctet ++ Mark.quote :: rest) = .ok (s, rest) := by
  rw [readString, scanString_flatMap]
  simp only [List.reverse_nil, List.nil_append, bind, Except.bind, Octets.text?_octets]
  rfl

theorem printed_writeOctet {c : UInt8} (h : c < 0x80) : Printed (writeOctet c) := by
  have visible : (writeOctet c).all (fun b => 0x20 ≤ b && b < 0x80) = true := by
    rcases plain_or_escaped c with ⟨low, hq, hb⟩ | ⟨n, rfl, hn⟩
    · rw [writeOctet_of_plain low hq hb]
      simpa using ⟨low, h⟩
    · rcases hn with hn | rfl | rfl
      · interval_cases n <;> decide
      · decide
      · decide
  have parts : ∀ b ∈ writeOctet c, Printed [b] := fun b hb => by
    have range : 0x20 ≤ b ∧ b < 0x80 := by simpa using List.all_eq_true.mp visible b hb
    exact .ascii range.1 range.2
  simpa using Printed.flatMap parts

theorem printed_writeString (s : String) : Printed (writeString s) := by
  rw [writeString, quoteOctets, octets_eq_flatMap, List.flatMap_assoc]
  refine (Printed.cons (by decide) (by decide) (Printed.flatMap fun c _ => ?_)).append
    (Printed.ascii (by decide) (by decide))
  by_cases high : 0x80 ≤ c.toNat
  · -- the octets of such a character are all past the ones that are escaped
    have same : (utf8EncodeChar c).flatMap writeOctet = utf8EncodeChar c := by
      have plain : ∀ b ∈ utf8EncodeChar c, writeOctet b = [b] := fun b hb => by
        have hb : 0x80 ≤ b := le_of_mem_utf8EncodeChar high hb
        refine writeOctet_of_plain (UInt8.le_trans (by decide) hb) ?_ ?_
        · rintro rfl
          exact absurd hb (by decide)
        · rintro rfl
          exact absurd hb (by decide)
      rw [List.flatMap_congr plain, List.flatMap_singleton']
    rw [same]
    refine Printed.char ?_
    rw [Char.le_def, UInt32.le_iff_toNat_le]
    exact Nat.le_trans (by decide) high
  · have low : c.toNat < 0x80 := Nat.not_le.mp high
    rw [utf8EncodeChar_of_ascii low, List.flatMap_singleton]
    refine printed_writeOctet ?_
    rw [UInt8.lt_iff_toNat_lt, UInt8.toNat_ofNat_of_lt' (Nat.lt_trans low (by decide))]
    exact low

end Json
end GatewayEnrichment
