import GatewayEnrichment.Proofs.Message.Keeping
import GatewayEnrichment.Proofs.Prefixes
import GatewayEnrichment.Proofs.Session.Turns

/-! Lines that hold no event. One that is a text might as well not be there: nothing but the number
of skipped lines tells that it was. One that is no UTF-8 takes everything behind it along. -/

namespace GatewayEnrichment.Reading

def handled? (r : Reading) : Turn → Option Event
  | .line o _ =>
    match r.fault, Line.ofOctets o with
    | none, .ok (.event e) => some e
    | _, _ => none
  | .background _ => none

def handled (r : Reading) (turns : List Turn) : List Event :=
  along turn (fun r t => (r.handled? t).toList) r turns

theorem handled_append (r : Reading) (as bs : List Turn) :
    r.handled (as ++ bs) = r.handled as ++ (r.run as).handled bs := along_append _ _ _ _ _

theorem run_line (r : Reading) (before after : List Turn) (o : Octets) (now : Nat) :
    r.run (before ++ .line o now :: after) = ((r.run before).readLine o now).run after :=
  r.run_append before _

def Alike (r r' : Reading) : Prop :=
  r'.cache = r.cache ∧ r'.written = r.written ∧ r'.fault = r.fault

theorem Alike.turn {r r' : Reading} (h : r.Alike r') (t : Turn) :
    (r.turn t).Alike (r'.turn t) ∧ r'.handled? t = r.handled? t := by
  obtain ⟨cache, written, skipped, fault⟩ := r
  obtain ⟨cache', written', skipped', fault'⟩ := r'
  obtain ⟨rfl, rfl, rfl⟩ := h
  cases t with
  | background a => exact ⟨⟨rfl, rfl, rfl⟩, rfl⟩
  | line o now =>
    refine ⟨?_, rfl⟩
    cases fault' with
    | some f => exact ⟨rfl, rfl, rfl⟩
    | none =>
      simp only [Reading.turn, readLine]
      cases Line.ofOctets o with
      | error f => exact ⟨rfl, rfl, rfl⟩
      | ok line => cases line <;> exact ⟨rfl, rfl, rfl⟩

theorem Alike.run {r r' : Reading} (h : r.Alike r') (turns : List Turn) :
    (r.run turns).Alike (r'.run turns) ∧ r'.handled turns = r.handled turns := by
  induction turns generalizing r r' with
  | nil => exact ⟨h, rfl⟩
  | cons t turns ih =>
    obtain ⟨ht, same⟩ := h.turn t
    obtain ⟨rest, events⟩ := ih ht
    exact ⟨rest, congrArg₂ (fun e es => e.toList ++ es) same events⟩

theorem run_of_fault {r : Reading} {f : Utf8.Fault} (h : r.fault = some f) (turns : List Turn) :
    (r.run turns).fault = some f ∧ r.handled turns = [] := by
  induction turns generalizing r with
  | nil => exact ⟨h, rfl⟩
  | cons t turns ih =>
    have step : (r.turn t).fault = some f ∧ r.handled? t = none := by
      cases t with
      | background a => exact ⟨h, rfl⟩
      | line o now =>
        rw [turn, readLine, handled?, h]
        exact ⟨h, rfl⟩
    obtain ⟨fault, rest⟩ := ih step.1
    exact ⟨fault, congrArg₂ (fun e es => e.toList ++ es) step.2 rest⟩

theorem written_run {turns : List Turn} {r : Reading} (h : r.handled turns = []) :
    (r.run turns).written = r.written := by
  induction turns generalizing r with
  | nil => rfl
  | cons t turns ih =>
    obtain ⟨first, rest⟩ := List.append_eq_nil_iff.mp h
    have step : (r.turn t).written = r.written := by
      cases t with
      | background a => rfl
      | line o now =>
        rw [turn, readLine]
        cases hf : r.fault with
        | some f => rfl
        | none =>
          cases hl : Line.ofOctets o with
          | error f => rfl
          | ok line =>
            cases line with
            | blank | malformed => rfl
            | event e => simp [handled?, hf, hl] at first
    exact (ih rest).trans step

/-- Nothing on the outside tells whether the line was there: not what is written, not the events
that are handled, and not whether the stream is read to its end. -/
structure Unnoticed (r : Reading) (before : List Turn) (o : Octets) (now : Nat)
    (after : List Turn) : Prop where
  stdout : (r.run (before ++ .line o now :: after)).stdout = (r.run (before ++ after)).stdout
  handled : r.handled (before ++ .line o now :: after) = r.handled (before ++ after)
  success : (r.run (before ++ .line o now :: after)).fault = none ↔
    (r.run (before ++ after)).fault = none

section

variable {o : Octets} (unreadable : ∀ e, Line.ofOctets o ≠ .ok (.event e))

include unreadable

theorem handled?_unreadable (r : Reading) (now : Nat) : r.handled? (.line o now) = none := by
  rw [handled?]
  split
  · next e _ hl => exact absurd hl (unreadable e)
  · rfl

theorem alike_readLine (text : o.text? ≠ none) (r : Reading) (now : Nat) :
    r.Alike (r.readLine o now) := by
  rw [readLine]
  cases hf : r.fault with
  | some f => exact ⟨rfl, rfl, rfl⟩
  | none =>
    cases hl : Line.ofOctets o with
    | error f =>
      obtain ⟨s, hs⟩ := Option.ne_none_iff_exists'.mp text
      rw [Line.ofOctets, hs] at hl
      cases hl
    | ok line =>
      cases line with
      | blank => exact ⟨rfl, rfl, rfl⟩
      | malformed => exact ⟨rfl, rfl, hf.symm⟩
      | event e => exact absurd hl (unreadable e)

theorem handled_unreadable (r : Reading) (before after : List Turn) (now : Nat) :
    r.handled (before ++ .line o now :: after) =
      r.handled before ++ ((r.run before).readLine o now).handled after := by
  have none : (r.run before).handled? (.line o now) = none := handled?_unreadable unreadable _ now
  rw [handled_append, handled, handled, along, none]
  rfl

theorem unnoticed_of_text (text : o.text? ≠ none) (r : Reading) (before after : List Turn)
    (now : Nat) : r.Unnoticed before o now after := by
  obtain ⟨⟨-, written, fault⟩, handled⟩ :=
    (alike_readLine unreadable text (r.run before) now).run after
  refine ⟨?_, ?_, ?_⟩
  · rw [run_line, run_append, stdout, stdout, written]
  · rw [handled_unreadable unreadable, handled_append, handled]
  · rw [run_line, run_append, fault]

theorem unnoticed_of_fault {r : Reading} {before : List Turn} {f : Utf8.Fault}
    (h : (r.run before).fault = some f) (after : List Turn) (now : Nat) :
    r.Unnoticed before o now after := by
  have kept : (r.run before).readLine o now = r.run before := by
    rw [readLine, h]
  refine ⟨?_, ?_, ?_⟩
  · rw [run_line, kept, run_append]
  · rw [handled_unreadable unreadable, kept, handled_append]
  · rw [run_line, kept, run_append]

end

theorem run_of_not_text {o : Octets} (text : o.text? = none) {r : Reading} (opened : r.fault = none)
    (now : Nat) (after : List Turn) :
    ((r.readLine o now).run after).fault ≠ none ∧ (r.readLine o now).handled after = [] ∧
      ((r.readLine o now).run after).written = r.written := by
  have ended : r.readLine o now =
      { r with fault := some ((Utf8.firstFault o).getD (.incomplete o.length)) } := by
    rw [readLine, opened, Line.ofOctets, text]
  obtain ⟨fault, handled⟩ := run_of_fault (congrArg Reading.fault ended) after
  refine ⟨?_, handled, ?_⟩
  · rw [fault]
    rintro ⟨⟩
  · rw [written_run handled, ended]

theorem unnoticed_iff_of_not_text {o : Octets} (text : o.text? = none) {r : Reading}
    {before : List Turn} (opened : (r.run before).fault = none) (after : List Turn) (now : Nat) :
    r.Unnoticed before o now after ↔
      (r.run (before ++ after)).fault ≠ none ∧ (r.run before).handled after = [] := by
  have unreadable : ∀ e, Line.ofOctets o ≠ .ok (.event e) := by
    intro e h
    rw [Line.ofOctets, text] at h
    cases h
  obtain ⟨broken, lost, written⟩ := run_of_not_text text opened now after
  constructor
  · intro unnoticed
    refine ⟨fun h => broken ?_, ?_⟩
    · rw [← run_line]
      exact unnoticed.success.mpr h
    · have same := unnoticed.handled
      rw [handled_unreadable unreadable, lost, List.append_nil, handled_append] at same
      exact List.self_eq_append_right.mp same
  · rintro ⟨fault, quiet⟩
    refine ⟨?_, ?_, ?_⟩
    · rw [run_line, run_append, stdout, stdout, written, written_run quiet]
    · rw [handled_unreadable unreadable, lost, handled_append, quiet]
    · rw [run_line]
      exact iff_of_false broken fault

/-- Deleting a line that holds no event goes unnoticed exactly when the line is a text, or when the
other lines end the stream as well and no event behind the line is handled anyway. -/
theorem deletion_unnoticed_iff {stdin o : Octets} {before after : List Turn} {now : Nat}
    (reads : Turn.lines (before ++ .line o now :: after) = Line.all stdin)
    (unreadable : ∀ e, Line.ofOctets o ≠ .ok (.event e)) (r : Reading) :
    let a := (Turn.lines before).flatten
    let b := (Turn.lines after).flatten
    stdin = a ++ o ++ b ∧ Turn.lines (before ++ after) = Line.all (a ++ b) ∧
      (r.Unnoticed before o now after ↔ o.text? ≠ none ∨
        (r.run (before ++ after)).fault ≠ none ∧ (r.run before).handled after = []) := by
  intro a b
  have lines : Line.all stdin = Turn.lines before ++ o :: Turn.lines after := by
    rw [← reads, Turn.lines_append]
    rfl
  refine ⟨?_, ?_, ?_⟩
  · rw [← (Line.cuts_all stdin).whole, lines, List.flatten_append, List.flatten_cons,
      List.append_assoc]
  · rw [Turn.lines_append, Line.all_delete lines]
  · by_cases text : o.text? = none
    · cases opened : (r.run before).fault with
      | none => simp only [unnoticed_iff_of_not_text text opened, text, ne_eq, not_true_eq_false,
          false_or]
      | some f =>
        obtain ⟨fault, quiet⟩ := run_of_fault opened after
        refine iff_of_true (unnoticed_of_fault unreadable opened after now) (.inr ⟨?_, quiet⟩)
        rw [run_append, fault]
        rintro ⟨⟩
    · exact iff_of_true (unnoticed_of_text unreadable text r before after now) (.inl text)

theorem truncated_object_unnoticed :
    let o := octets "\x7b\"type\":\"uplink\"\r\n"
    let line := octets "[\"uplink\",\"gw1\"]"
    Turn.lines [.background .refill, .line o 1, .line line 2] = Line.all (o ++ line) ∧
      (∀ e, Line.ofOctets o ≠ .ok (.event e)) ∧
      Unnoticed { cache := Cache.start 1 none } [.background .refill] o 1 [.line line 2] := by
  intro o line
  have reads : Turn.lines ([.background .refill] ++ .line o 1 :: [.line line 2]) =
      Line.all (o ++ line) := by
    decide +kernel
  have malformed : Line.ofOctets o = .ok .malformed :=
    (Line.ofOctets_octets _).trans (congrArg Except.ok (by decide +kernel))
  have unreadable : ∀ e, Line.ofOctets o ≠ .ok (.event e) := by
    rw [malformed]
    rintro e ⟨⟩
  have text : o.text? ≠ none := by
    rw [Octets.text?_octets]
    rintro ⟨⟩
  obtain ⟨-, -, unnoticed⟩ :=
    deletion_unnoticed_iff reads unreadable { cache := Cache.start 1 none }
  exact ⟨reads, unreadable, unnoticed.mpr (.inl text)⟩

theorem uplink_lost_behind_not_text :
    let o : Octets := [0xFF, lineEnd]
    let line := octets "[\"uplink\",\"gw1\"]\n"
    let r : Reading := { cache := Cache.start 1 none }
    Turn.lines [.line o 0, .line line 0] = Line.all (o ++ line) ∧
      (∀ e, Line.ofOctets o ≠ .ok (.event e)) ∧ r.handled [.line o 0, .line line 0] = [] ∧
      r.handled [.line line 0] = [.uplink { gatewayId := "gw1" }] ∧
      ¬ r.Unnoticed [] o 0 [.line line 0] := by
  intro o line r
  have text : o.text? = none := by
    decide +kernel
  have unreadable : ∀ e, Line.ofOctets o ≠ .ok (.event e) := by
    rw [Line.ofOctets, text]
    rintro e ⟨⟩
  have uplink : Line.ofOctets line = .ok (.event (.uplink { gatewayId := "gw1" })) :=
    (Line.ofOctets_octets _).trans (congrArg Except.ok (by decide +kernel))
  have lost : r.handled ([] ++ .line o 0 :: [.line line 0]) = [] := by
    rw [handled_unreadable unreadable]
    exact (run_of_not_text text rfl 0 [.line line 0]).2.1
  have seen : r.handled ([] ++ [.line line 0]) = [.uplink { gatewayId := "gw1" }] := by
    simp [handled, along, handled?, uplink, r]
  refine ⟨by decide +kernel, unreadable, lost, seen, fun unnoticed => ?_⟩
  have same := unnoticed.handled
  rw [lost, seen] at same
  cases same

end GatewayEnrichment.Reading
