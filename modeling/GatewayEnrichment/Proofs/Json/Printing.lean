import GatewayEnrichment.Proofs.Binary.Texts

/-! What a schema writes keeps to one line, whatever the strings in it hold. -/

namespace GatewayEnrichment.Json

theorem printed_ascii {cs : List Char} (h : ∀ c ∈ cs, 0x20 ≤ c.toNat ∧ c.toNat < 0x80) :
    Printed (octets (String.ofList cs)) := by
  rw [octets_ofList]
  refine ⟨cs, rfl, fun c hc => ?_⟩
  rw [Char.le_def, UInt32.le_iff_toNat_le]
  exact (h c hc).1

theorem printed_word {s : String}
    (h : s.toList.all (fun c => 0x20 ≤ c.toNat && c.toNat < 0x80) = true) : Printed (octets s) := by
  rw [← String.ofList_toList (s := s)]
  refine printed_ascii fun c hc => ?_
  simpa using List.all_eq_true.mp h c hc

theorem printed_writeNumber {f : Format} (x : Binary f) : Printed (writeNumber x) := by
  rw [writeNumber, Binary.text?]
  split
  · obtain ⟨d, ⟨visible, -⟩, -⟩ := x.exists_renders
    refine printed_ascii ?_
    split
    · exact List.forall_mem_cons.mpr ⟨by decide, visible⟩
    · exact visible
  · exact printed_word (by decide)

theorem printed_int (z : Int) : Printed (octets (toString z)) := by
  rw [toString_int]
  exact printed_ascii visible_intChars

section

variable {os : List Octets} (h : ∀ o ∈ os, Printed o)

include h

theorem printed_separated : Printed (separated os) := by
  induction os with
  | nil => exact .nil
  | cons o os ih =>
    obtain ⟨ho, hos⟩ := List.forall_mem_cons.mp h
    rw [separated_cons]
    exact ho.append (Printed.flatMap fun p hp => (hos p hp).cons (by decide) (by decide))

theorem printed_writeItems : Printed (writeItems os) :=
  ((printed_separated h).cons (by decide) (by decide)).append (.ascii (by decide) (by decide))

theorem printed_writeMembers : Printed (writeMembers os) :=
  ((printed_separated h).cons (by decide) (by decide)).append (.ascii (by decide) (by decide))

end

theorem printed_writeMember (key : String) {o : Octets} (h : Printed o) :
    Printed (writeMember key o) :=
  (printed_writeString key).append (h.cons (by decide) (by decide))

mutual

theorem Schema.printed_write : (s : Schema) → (v : s.Val) → Printed (s.write v)
  | .text, v => printed_writeString v
  | .flag, true => printed_word (by decide)
  | .flag, false => printed_word (by decide)
  | .number _, x => printed_writeNumber x
  | .int32, n => printed_int n.toInt
  | .nullable _, none => printed_word (by decide)
  | .nullable s, some v => s.printed_write v
  | .list s, vs => printed_writeItems (List.forall_mem_map.mpr fun v _ => s.printed_write v)
  | .table, t => printed_writeMembers
    (List.forall_mem_map.mpr fun e _ => printed_writeMember e.1 (printed_writeString e.2))
  | .record _ fs, vs => printed_writeMembers (fs.printed_members vs)

theorem Fields.printed_members : (fs : Fields) → (vs : fs.Vals) →
    ∀ o ∈ fs.writeMembers vs, Printed o
  | .nil, () => List.forall_mem_nil _
  | .cons name presence s fs, (v, vs) => by
    rw [Fields.writeMembers]
    split
    · exact fs.printed_members vs
    · exact List.forall_mem_cons.mpr
        ⟨printed_writeMember name (s.printed_write v), fs.printed_members vs⟩

end

end GatewayEnrichment.Json
