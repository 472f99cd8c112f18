import Mathlib.Data.List.ReduceOption
import GatewayEnrichment.Proofs.Session.Encodings
import GatewayEnrichment.Proofs.Session.Turns

/-! What a session writes for the lines that it reads, whatever the fetches do behind it. A line of
text that is an uplink or a status between its blanks is answered by one line, in which stands an
event that keeps what the message says; any other line of text is answered by nothing. No answer has
a line end in it, so the output can be cut into the answers again. -/

namespace GatewayEnrichment

def Event.AnsweredBy (e : Event) (o : Octets) : Prop := ∃ e', e.Keeps e' ∧ e'.WrittenAs o

namespace Line

/-- What a line of text is answered by: a message by an event, and a line that is blank, that is no
event or that only tells of a connection by nothing. -/
inductive Answered : Octets → Option Octets → Prop where
  | blank {o : Octets} {s : String} (text : o.text? = some s) (blank : trimmed s = "") :
      Answered o none
  | malformed {o : Octets} {s : String} {flaw : Json.Flaw} (text : o.text? = some s)
      (refused : Event.parse (octets (trimmed s)) = .error flaw) : Answered o none
  | connection {o : Octets} {s : String} {e : Event} (text : o.text? = some s)
      (read : Event.parse (octets (trimmed s)) = .ok e) (silent : e.isMessage = false) :
      Answered o none
  | message {o : Octets} {s : String} {e : Event} {answer : Octets} (text : o.text? = some s)
      (read : Event.parse (octets (trimmed s)) = .ok e) (message : e.isMessage = true)
      (answered : e.AnsweredBy answer) : Answered o (some answer)

def message? (o : Octets) : Option Event :=
  o.text?.bind fun s => (Event.parse (octets (trimmed s))).toOption.filter Event.isMessage

theorem parse_blank : Event.parse (octets "") = .error .truncated := rfl

theorem answered_rel :
    Relator.LiftFun Answered (Option.Rel Event.AnsweredBy) message? id := by
  intro o answer h
  cases h with
  | blank text blank =>
    rw [message?, text, Option.bind_some, blank, parse_blank]
    exact .none
  | malformed text refused =>
    rw [message?, text, Option.bind_some, refused]
    exact .none
  | connection text read silent =>
    rw [message?, text, Option.bind_some, read]
    simp only [Except.toOption, Option.filter_some, silent]
    exact .none
  | message text read message answered =>
    rw [message?, text, Option.bind_some, read]
    simp only [Except.toOption, Option.filter_some, message]
    exact .some answered

end Line

theorem ended_of_answeredBy {messages : List Event} {answers : List Octets}
    (h : List.Forall₂ Event.AnsweredBy messages answers) :
    ∀ line ∈ answers.map (· ++ [lineEnd]), Line.Ended line := by
  induction h with
  | nil => exact List.forall_mem_nil _
  | cons answered _ ih =>
    obtain ⟨e, -, written⟩ := answered
    exact List.forall_mem_cons.mpr ⟨⟨_, rfl, written.oneLine⟩, ih⟩

namespace Reading

/-- The answers to the lines, as they stand on the output. -/
structure Answers (r : Reading) (lines : List Octets) (answers : List (Option Octets)) : Prop where
  fault : r.fault = none
  answered : List.Forall₂ Line.Answered lines answers
  stdout : r.stdout = answers.flatMap fun answer => answer.elim [] (· ++ [lineEnd])
  cut : Line.split r.stdout = (answers.reduceOption.map (· ++ [lineEnd]), [])
  kept : List.Forall₂ Event.AnsweredBy (lines.filterMap Line.message?) answers.reduceOption

theorem readLine_answered {r : Reading} (opened : r.fault = none) {o : Octets}
    (text : o.text? ≠ none) (now : Nat) : ∃ answer, (r.readLine o now).fault = none ∧
      Line.Answered o answer ∧ (r.readLine o now).written = answer.toList ++ r.written := by
  obtain ⟨s, hs⟩ := Option.ne_none_iff_exists'.mp text
  have read : Line.ofOctets o = .ok (Line.ofText s) := by
    rw [Line.ofOctets, hs]
  by_cases blank : trimmed s = ""
  · have line : Line.ofText s = .blank := if_pos blank
    rw [readLine, opened, read, line]
    exact ⟨none, opened, .blank hs blank, rfl⟩
  · have shown : Line.ofText s = _ := if_neg blank
    cases parsed : Event.parse (octets (trimmed s)) with
    | error flaw =>
      rw [parsed] at shown
      rw [readLine, opened, read, shown]
      exact ⟨none, rfl, .malformed hs parsed, rfl⟩
    | ok e =>
      rw [parsed] at shown
      have handled : r.readLine o now = r.handle e now := by
        rw [readLine, opened, read, shown]
      have fault : (r.handle e now).fault = none := opened
      have written : (r.handle e now).written =
          ((r.cache.handle e now).1.map Event.write).toList ++ r.written := rfl
      rw [handled]
      cases message : e.isMessage with
      | false =>
        rw [Cache.handle_of_not_isMessage message] at written
        exact ⟨none, fault, .connection hs parsed message, written⟩
      | true =>
        obtain ⟨e', answer, keeps, -⟩ := Cache.exists_handle_of_isMessage message r.cache now
        rw [answer] at written
        exact ⟨some e'.write, fault, .message hs parsed message ⟨e', keeps, e'.writtenAs_write⟩,
          written⟩

theorem run_answered {turns : List Turn} (text : ∀ o ∈ Turn.lines turns, o.text? ≠ none)
    {r : Reading} (opened : r.fault = none) :
    ∃ answers : List (Option Octets), (r.run turns).fault = none ∧
      List.Forall₂ Line.Answered (Turn.lines turns) answers ∧
      (r.run turns).written = answers.reduceOption.reverse ++ r.written := by
  induction turns generalizing r with
  | nil => exact ⟨[], opened, .nil, rfl⟩
  | cons turn turns ih =>
    cases turn with
    | background a => exact ih text (r := r.turn (.background a)) opened
    | line o now =>
      obtain ⟨ho, text⟩ := List.forall_mem_cons.mp text
      obtain ⟨answer, opened, answered, written⟩ := readLine_answered opened ho now
      obtain ⟨answers, closed, rest, whole⟩ := ih text opened
      refine ⟨answer :: answers, closed, .cons answered rest, whole.trans ?_⟩
      rw [written]
      cases answer with
      | none => rfl
      | some o =>
        rw [List.reduceOption_cons_of_some, List.reverse_cons, List.append_assoc]
        rfl

theorem flatMap_reduceOption (answers : List (Option Octets)) :
    answers.reduceOption.flatMap (· ++ [lineEnd]) =
      answers.flatMap fun answer => answer.elim [] (· ++ [lineEnd]) := by
  induction answers with
  | nil => rfl
  | cons answer answers ih =>
    cases answer with
    | none => exact ih
    | some o =>
      rw [List.reduceOption_cons_of_some, List.flatMap_cons, List.flatMap_cons, ih]
      rfl

theorem exists_answers {turns : List Turn} (text : ∀ o ∈ Turn.lines turns, o.text? ≠ none)
    {r : Reading} (opened : r.fault = none) (fresh : r.written = []) :
    ∃ answers, (r.run turns).Answers (Turn.lines turns) answers := by
  obtain ⟨answers, closed, answered, written⟩ := run_answered text opened
  have kept : List.Forall₂ Event.AnsweredBy ((Turn.lines turns).filterMap Line.message?)
      answers.reduceOption := List.rel_filterMap Line.answered_rel answered
  have output : (r.run turns).stdout = answers.reduceOption.flatMap (· ++ [lineEnd]) := by
    rw [stdout, written, fresh, List.append_nil, List.reverse_reverse]
  refine ⟨answers, closed, answered, output.trans (flatMap_reduceOption answers), ?_, kept⟩
  rw [output, List.flatMap_def, ← List.append_nil (List.flatten _)]
  exact Line.split_flatten_append (ended_of_answeredBy kept) List.not_mem_nil

end Reading

namespace Session

/-- Every input of lines that are texts is answered line by line, in whatever order the cache and
the lines take turns, and also by a session that reads it in pieces. -/
theorem input_answered {stdin : Octets} (text : ∀ o ∈ Line.all stdin, o.text? ≠ none) :
    Line.Cuts stdin (Line.all stdin) ∧
    (∀ (c : Cache) (turns : List Turn), Turn.lines turns = Line.all stdin →
      ∃ answers, (Reading.run { cache := c } turns).Answers (Line.all stdin) answers) ∧
    ∀ (schedule : Schedule) (pieces : List (Nat × Octets)) (ms : Nat),
      pieces.flatMap (·.2) = stdin →
      ∃ answers, (readAll { schedule := schedule } pieces ms).reading.Answers (Line.all stdin)
        answers := by
  have answered : ∀ (c : Cache) (turns : List Turn), Turn.lines turns = Line.all stdin →
      ∃ answers, (Reading.run { cache := c } turns).Answers (Line.all stdin) answers := by
    intro c turns lines
    rw [← lines] at text ⊢
    exact Reading.exists_answers text rfl rfl
  refine ⟨Line.cuts_all stdin, answered, ?_⟩
  rintro schedule pieces ms rfl
  obtain ⟨turns, lines, run⟩ := takes_readAll { schedule := schedule } pieces ms List.not_mem_nil
  rw [run]
  exact answered schedule.cache turns lines

/-- A blank line, a connect, a status, a line that is no event and an uplink without a line end. The
gateway has been looked up by the time that the messages come. -/
theorem mixed_input_answered :
    let record : GatewayRecord := {
      id := "gw1", frequencyPlan := "EU_863_870"
      antennaLocation := some ⟨.ofDecimal .double false ⟨5237, -2⟩,
        .ofDecimal .double false ⟨49, -1⟩, .zero⟩ }
    let s : Session := { schedule := {
      cache := Cache.start 1 none, source := .memory (.ofRecords [record]) } }
    let stdin := octets (" \r\n\x7b\"type\":\"connect\",\"gateway_id\":\"gw1\"\x7d\n" ++
      "\x7b\"type\":\"status\",\"gateway_id\":\"gw1\",\"platform\":\"p\"\x7d\r\n" ++
      "no event\n[\"uplink\",\"gw1\",null,[],\"AQID\"]")
    let r := (s.readAll [(0, stdin.take 20), (5, stdin.drop 20)] 2).reading
    (∀ o ∈ Line.all stdin, o.text? ≠ none) ∧
    r.stdout = octets ("\x7b\"type\":\"status\",\"gateway_id\":\"gw1\"," ++
      "\"gps\":\x7b\"latitude\":52.37,\"longitude\":4.9,\"altitude\":0\x7d," ++
      "\"frequency_plan\":\"EU_863_870\",\"platform\":\"p\",\"description\":\"\"\x7d\n" ++
      "\x7b\"type\":\"uplink\",\"gateway_id\":\"gw1\"," ++
      "\"gps\":\x7b\"latitude\":52.37,\"longitude\":4.9,\"altitude\":0\x7d," ++
      "\"trace\":[\x7b\"event\":\"injecting gateway location\"\x7d],\"payload\":\"AQID\"\x7d\n") ∧
    ∃ answers, r.Answers (Line.all stdin) answers := by
  intro record s stdin r
  have lines : Line.all stdin = [octets " \r\n",
      octets "\x7b\"type\":\"connect\",\"gateway_id\":\"gw1\"\x7d\n",
      octets "\x7b\"type\":\"status\",\"gateway_id\":\"gw1\",\"platform\":\"p\"\x7d\r\n",
      octets "no event\n", octets "[\"uplink\",\"gw1\",null,[],\"AQID\"]"] := by
    decide +kernel
  have text : ∀ o ∈ Line.all stdin, o.text? ≠ none := by
    rw [lines]
    simp [Octets.text?_octets]
  refine ⟨text, ?_, (input_answered text).2.2 _ _ _ (by simp)⟩
  decide +kernel

end Session
end GatewayEnrichment
