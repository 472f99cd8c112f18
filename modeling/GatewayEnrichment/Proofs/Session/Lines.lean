import GatewayEnrichment.Session
import GatewayEnrichment.Proofs.Json.Printing
import GatewayEnrichment.Proofs.Text.Trimming

/-! An input as its lines. It is cut behind each line end, and what is left over belongs to what comes
in next, so the lines do not depend on the pieces in which an input arrives; joined they are the
input again, and without one of them it is the input of the others. An event is written without a
line end in it, so what is written for events is cut into those events, each a line that is read as
its text by itself is. -/

namespace GatewayEnrichment

open Json

namespace Line

def Ended (o : Octets) : Prop := ∃ body, o = body ++ [lineEnd] ∧ lineEnd ∉ body

def all (o : Octets) : List Octets :=
  match split o with
  | (lines, []) => lines
  | (lines, rest) => lines ++ [rest]

theorem split_cons (c : UInt8) (o : Octets) : split (c :: o) =
    if c = lineEnd then ([c] :: (split o).1, (split o).2)
    else
      match (split o).1 with
      | [] => ([], c :: (split o).2)
      | line :: lines => ((c :: line) :: lines, (split o).2) := rfl

theorem split_of_notMem {o : Octets} (h : lineEnd ∉ o) : split o = ([], o) := by
  induction o with
  | nil => rfl
  | cons c o ih =>
    obtain ⟨hc, ho⟩ := List.ne_and_not_mem_of_not_mem_cons h
    rw [split_cons, if_neg (Ne.symm hc), ih ho]

theorem split_ended_append {line : Octets} (h : Ended line) (o : Octets) :
    split (line ++ o) = (line :: (split o).1, (split o).2) := by
  obtain ⟨body, rfl, hbody⟩ := h
  induction body with
  | nil => rfl
  | cons c body ih =>
    obtain ⟨hc, hbody⟩ := List.ne_and_not_mem_of_not_mem_cons hbody
    rw [List.cons_append, List.cons_append, split_cons, if_neg (Ne.symm hc), ih hbody]

theorem split_flatten_append {lines : List Octets} (h : ∀ line ∈ lines, Ended line) {rest : Octets}
    (hr : lineEnd ∉ rest) : split (lines.flatten ++ rest) = (lines, rest) := by
  induction lines with
  | nil => exact split_of_notMem hr
  | cons line lines ih =>
    obtain ⟨hline, hlines⟩ := List.forall_mem_cons.mp h
    rw [List.flatten_cons, List.append_assoc, split_ended_append hline, ih hlines]

theorem split_spec (o : Octets) : (split o).1.flatten ++ (split o).2 = o ∧
    (∀ line ∈ (split o).1, Ended line) ∧ lineEnd ∉ (split o).2 := by
  induction o with
  | nil => exact ⟨rfl, List.forall_mem_nil _, List.not_mem_nil⟩
  | cons c o ih =>
    obtain ⟨whole, ended, rest⟩ := ih
    rw [split_cons]
    split
    · next hc =>
      subst hc
      have alone : Ended [lineEnd] := ⟨[], rfl, List.not_mem_nil⟩
      exact ⟨congrArg (lineEnd :: ·) whole, List.forall_mem_cons.mpr ⟨alone, ended⟩, rest⟩
    · next hc =>
      split
      · next none =>
        rw [none] at whole
        exact ⟨congrArg (c :: ·) whole, List.forall_mem_nil _,
          List.not_mem_cons_of_ne_of_not_mem (Ne.symm hc) rest⟩
      · next line lines some =>
        rw [some] at whole ended
        obtain ⟨⟨body, rfl, hbody⟩, others⟩ := List.forall_mem_cons.mp ended
        exact ⟨congrArg (c :: ·) whole, List.forall_mem_cons.mpr
          ⟨⟨c :: body, rfl, List.not_mem_cons_of_ne_of_not_mem (Ne.symm hc) hbody⟩, others⟩, rest⟩

theorem split_append (a b : Octets) : split (a ++ b) =
    ((split a).1 ++ (split ((split a).2 ++ b)).1, (split ((split a).2 ++ b)).2) := by
  obtain ⟨ha, endedA, -⟩ := split_spec a
  obtain ⟨hb, endedB, rest⟩ := split_spec ((split a).2 ++ b)
  have whole : a ++ b = ((split a).1 ++ (split ((split a).2 ++ b)).1).flatten ++
      (split ((split a).2 ++ b)).2 := by
    rw [List.flatten_append, List.append_assoc, hb, ← List.append_assoc, ha]
  rw [whole]
  exact split_flatten_append (List.forall_mem_append.mpr ⟨endedA, endedB⟩) rest

theorem all_append (a b : Octets) : all (a ++ b) = (split a).1 ++ all ((split a).2 ++ b) := by
  rw [all, split_append]
  cases hb : split ((split a).2 ++ b) with
  | mk lines rest =>
    cases rest <;> simp [all, hb]

theorem all_of_ended {lines : List Octets} (h : ∀ line ∈ lines, Ended line) :
    all lines.flatten = lines := by
  rw [all, ← List.append_nil lines.flatten, split_flatten_append h List.not_mem_nil]

theorem all_of_ended_append {lines : List Octets} (h : ∀ line ∈ lines, Ended line) {rest : Octets}
    (hr : lineEnd ∉ rest) (ne : rest ≠ []) : all (lines ++ [rest]).flatten = lines ++ [rest] := by
  rw [List.flatten_append, List.flatten_singleton, all, split_flatten_append h hr]
  cases rest with
  | nil => exact absurd rfl ne
  | cons c rest => rfl

/-- The input is these lines one behind the other. Each of them has its end, but the last one may
have none. -/
structure Cuts (o : Octets) (lines : List Octets) : Prop where
  whole : lines.flatten = o
  ended : (∀ line ∈ lines, Ended line) ∨ ∃ before rest, lines = before ++ [rest] ∧
    (∀ line ∈ before, Ended line) ∧ lineEnd ∉ rest ∧ rest ≠ []

theorem cuts_all (o : Octets) : Cuts o (all o) := by
  obtain ⟨whole, ended, noEnd⟩ := split_spec o
  rw [all]
  generalize split o = cut at whole ended noEnd
  obtain ⟨lines, rest⟩ := cut
  cases rest with
  | nil => exact ⟨(List.append_nil _).symm.trans whole, .inl ended⟩
  | cons c rest =>
    refine ⟨?_, .inr ⟨lines, c :: rest, rfl, ended, noEnd, List.cons_ne_nil c rest⟩⟩
    rw [List.flatten_append, List.flatten_singleton]
    exact whole

theorem all_delete {o line : Octets} {before after : List Octets}
    (h : all o = before ++ line :: after) :
    all (before.flatten ++ after.flatten) = before ++ after := by
  rw [← List.flatten_append]
  have kept : ∀ l ∈ before ++ after, l ∈ all o := by
    intro l hl
    rw [h]
    exact List.mem_append.mpr ((List.mem_append.mp hl).imp_right (List.mem_cons_of_mem line))
  rcases (cuts_all o).ended with ended | ⟨lines, rest, cut, ended, noEnd, ne⟩
  · exact all_of_ended fun l hl => ended l (kept l hl)
  · rw [h] at cut
    rcases List.eq_nil_or_concat' after with rfl | ⟨others, last, rfl⟩
    · -- the line without an end is deleted
      obtain ⟨rfl, -⟩ := List.append_inj' cut rfl
      rw [List.append_nil]
      exact all_of_ended ended
    · have parts : (before ++ line :: others) ++ [last] = lines ++ [rest] := by
        rw [← cut, List.append_assoc, List.cons_append]
      obtain ⟨rfl, hlast⟩ := List.append_inj' parts rfl
      obtain rfl : last = rest := List.singleton_inj.mp hlast
      rw [← List.append_assoc]
      refine all_of_ended_append (fun l hl => ended l ?_) noEnd ne
      exact List.mem_append.mpr ((List.mem_append.mp hl).imp_right (List.mem_cons_of_mem line))

end Line

theorem trimChars_braced (cs : List Char) :
    trimChars ('\x7b' :: cs ++ ['\x7d', '\n']) = '\x7b' :: cs ++ ['\x7d'] := by
  have ending : Blanks ['\n'] := by
    rintro c hc
    rw [List.mem_singleton.mp hc]
    decide
  have text : '\x7b' :: cs ++ ['\x7d', '\n'] = [] ++ ('\x7b' :: cs ++ ['\x7d']) ++ ['\n'] := by simp
  rw [text]
  refine trimChars_append (by simp [Blanks]) ending (by simp) (by simp; decide) ?_
  rw [List.getLast_append_singleton]
  decide

namespace Line

theorem ofOctets_octets (s : String) : ofOctets (octets s) = .ok (ofText s) := by
  rw [ofOctets, Octets.text?_octets]

theorem ofOctets_writeMembers {os : List Octets} (h : ∀ o ∈ os, Printed o) :
    ofOctets (writeMembers os ++ [lineEnd]) = .ok (match Event.parse (writeMembers os) with
      | .ok e => .event e
      | .error _ => .malformed) := by
  obtain ⟨cs, chars, -⟩ := printed_separated h
  have text : writeMembers os = octets (String.ofList ('\x7b' :: cs ++ ['\x7d'])) := by
    rw [writeMembers, chars, octets_ofList, List.flatMap_append, List.flatMap_cons]
    rfl
  have line : writeMembers os ++ [lineEnd] =
      octets (String.ofList ('\x7b' :: cs ++ ['\x7d', '\n'])) := by
    rw [writeMembers, chars, octets_ofList, List.flatMap_append, List.flatMap_cons,
      List.append_assoc]
    rfl
  have trimmed : trimmed (String.ofList ('\x7b' :: cs ++ ['\x7d', '\n'])) =
      String.ofList ('\x7b' :: cs ++ ['\x7d']) := by
    rw [GatewayEnrichment.trimmed, String.toList_ofList, trimChars_braced]
  have shown : String.ofList ('\x7b' :: cs ++ ['\x7d']) ≠ "" := by
    simp [String.ofList_eq_empty_iff]
  rw [line, ofOctets_octets, ofText, trimmed, text]
  exact congrArg Except.ok (if_neg shown)

end Line

namespace Event

theorem exists_write_eq (e : Event) : ∃ os, e.write = writeMembers os ∧ ∀ o ∈ os, Printed o := by
  have members : ∀ (kind : Kind) (fs : Fields) (vs : fs.Vals),
      ∀ o ∈ writeMember family.key (writeString kind.tag) :: fs.writeMembers vs, Printed o :=
    fun kind fs vs => List.forall_mem_cons.mpr
      ⟨printed_writeMember _ (printed_writeString _), fs.printed_members vs⟩
  cases e with
  | connect m => exact ⟨_, rfl, members .connect _ (Encoded.toVal m)⟩
  | disconnect m => exact ⟨_, rfl, members .disconnect _ (Encoded.toVal m)⟩
  | uplink m => exact ⟨_, rfl, members .uplink _ (Encoded.toVal m)⟩
  | status m => exact ⟨_, rfl, members .status _ (Encoded.toVal m)⟩

theorem lineEnd_notMem_write (e : Event) : lineEnd ∉ e.write := by
  obtain ⟨os, written, printed⟩ := e.exists_write_eq
  intro h
  rw [written] at h
  exact absurd ((printed_writeMembers printed).le_of_mem h) (by decide)

theorem ofOctets_write (e : Event) : Line.ofOctets (e.write ++ [lineEnd]) =
    .ok (match parse e.write with
      | .ok e => .event e
      | .error _ => .malformed) := by
  obtain ⟨os, written, printed⟩ := e.exists_write_eq
  rw [written]
  exact Line.ofOctets_writeMembers printed

end Event
end GatewayEnrichment
