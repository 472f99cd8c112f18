import Mathlib.Data.List.DropRight
import Mathlib.Data.List.Induction
import GatewayEnrichment.Text.Blank

/-! Trimming. A text is cut into blanks, what is left of it, and blanks again; what neither begins
nor ends with a blank is left whole. -/

namespace GatewayEnrichment

theorem rdropWhile_append {α : Type} (p : α → Bool) {as : List α} (some : as ≠ [])
    (stays : ¬ p (as.getLast some)) (bs : List α) :
    (as ++ bs).rdropWhile p = as ++ bs.rdropWhile p := by
  induction bs using List.reverseRecOn with
  | nil =>
    rw [List.append_nil, List.rdropWhile_nil, List.append_nil]
    exact List.rdropWhile_eq_self_iff.mpr fun _ => stays
  | append_singleton bs b ih =>
    rw [← List.append_assoc, List.rdropWhile_concat, List.rdropWhile_concat, ih]
    split
    · rfl
    · exact List.append_assoc _ _ _

def Blanks (cs : List Char) : Prop := ∀ c ∈ cs, isBlank c = true

theorem trimChars_eq (cs : List Char) :
    trimChars cs = (cs.dropWhile isBlank).rdropWhile isBlank := rfl

theorem exists_trimChars (cs : List Char) : ∃ before after,
    cs = before ++ trimChars cs ++ after ∧ Blanks before ∧ Blanks after := by
  refine ⟨cs.takeWhile isBlank, (cs.dropWhile isBlank).rtakeWhile isBlank, ?_,
    fun c hc => List.mem_takeWhile_imp hc, fun c hc => List.mem_rtakeWhile_imp hc⟩
  rw [trimChars_eq, List.append_assoc, List.rdropWhile_append_rtakeWhile,
    List.takeWhile_append_dropWhile]

theorem trimChars_append {before core after : List Char} (hb : Blanks before) (ha : Blanks after)
    (some : core ≠ []) (first : ¬ isBlank (core.head some) = true)
    (last : ¬ isBlank (core.getLast some) = true) : trimChars (before ++ core ++ after) = core := by
  have opening : (before ++ (core ++ after)).dropWhile isBlank = core ++ after := by
    rw [List.dropWhile_append_of_pos hb]
    obtain ⟨c, cs, rfl⟩ := List.exists_cons_of_ne_nil some
    exact List.dropWhile_cons_of_neg first
  rw [trimChars_eq, List.append_assoc, opening, rdropWhile_append isBlank some last,
    List.rdropWhile_eq_nil_iff.mpr ha, List.append_nil]

end GatewayEnrichment
