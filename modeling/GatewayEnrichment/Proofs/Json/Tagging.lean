import GatewayEnrichment.Json.Tagged
import GatewayEnrichment.Proofs.Json.Rereading

/-! Reading a tagged object back. The tag is found in front of the members of the record, and those
are kept as they are, since none of them has the key of the tag. -/

namespace GatewayEnrichment.Json

theorem readColon_cons (rest : Octets) : readColon (Mark.colon :: rest) = .ok ((), rest) :=
  readMark_cons (by decide) rest

namespace Family

variable {κ : Type} {family : Family κ}

theorem readTag_written {kind : κ} (h : family.ofTag (family.tag kind) = .ok kind) (rest : Octets) :
    family.readTag (writeString (family.tag kind) ++ rest) = .ok (kind, rest) := by
  rw [writeString_append, readTag, skipSpace_cons (by decide)]
  change (readString _).bind _ = _
  rw [readString_written]
  change (fitting (family.ofTag _)).bind _ = _
  rw [h]
  rfl

theorem takes_tag {kind : κ} (h : family.ofTag (family.tag kind) = .ok kind) :
    TakesMember family.readMember (writeMember family.key (writeString (family.tag kind)))
      (none, []) (some kind, []) := by
  refine ⟨_, _, rfl, fun rest _ => ?_⟩
  rw [readMember, if_pos rfl]
  dsimp only
  rw [readColon_cons]
  change (family.readTag _).bind _ = _
  rw [readTag_written h]
  rfl

theorem lead_beside {tag : Option κ} {os : List Octets} {ms : List (String × Value)}
    (h : List.Forall₂ (SpellsMember (maxLevels - 1)) os ms) (fresh : ∀ m ∈ ms, m.1 ≠ family.key)
    (seen : List (String × Value)) :
    Lead (TakesMember family.readMember) os (tag, seen) (tag, ms.reverse ++ seen) := by
  induction h generalizing seen with
  | nil => rfl
  | @cons o m os ms ho _ ih =>
    obtain ⟨t, rfl, spelled⟩ := ho
    obtain ⟨other, fresh⟩ := List.forall_mem_cons.mp fresh
    rw [List.reverse_cons, List.append_assoc]
    refine ⟨(tag, m :: seen), ⟨m.1, t, rfl, fun rest hr => ?_⟩, ih fresh (m :: seen)⟩
    rw [readMember, if_neg other, readColon_cons]
    change (readValue (maxLevels - 1) (t ++ rest)).bind _ = _
    rw [spelled rest hr]
    rfl

theorem read_written {kind : κ} (h : family.ofTag (family.tag kind) = .ok kind) {fs : Fields}
    (sound : fs.Sound) (depth : fs.depth ≤ maxLevels - 1) (fresh : family.key ∉ fs.names)
    (vs : fs.Vals) (rest : Octets) :
    family.read (writeMembers (writeMember family.key (writeString (family.tag kind)) ::
      fs.writeMembers vs) ++ rest) = .ok (⟨kind, .object (fs.members vs)⟩, rest) := by
  have others : ∀ m ∈ fs.members vs, m.1 ≠ family.key := fun m hm he =>
    fresh (he ▸ fs.name_mem_names vs m hm)
  have lead : Lead (TakesMember family.readMember)
      (writeMember family.key (writeString (family.tag kind)) :: fs.writeMembers vs) (none, [])
      (some kind, (fs.members vs).reverse ++ []) :=
    ⟨_, takes_tag h, lead_beside (fs.spells_members sound depth vs) others []⟩
  have opened : ∀ os, family.read (writeMembers os ++ rest) =
      family.readObject (separated os ++ Mark.closeObject :: rest) := by
    intro os
    simp only [writeMembers, List.cons_append, List.append_assoc]
    rfl
  rw [opened, readObject, walkMembers_separated lead]
  simp only [bind, Except.bind, closeMembers,
    readMark_cons (show isSpace Mark.closeObject = false by decide), List.append_nil,
    List.reverse_reverse]
  rfl

end Family
end GatewayEnrichment.Json
