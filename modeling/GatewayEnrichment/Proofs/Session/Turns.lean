import GatewayEnrichment.Proofs.Session.Lines

/-! Reading a stream while fetches go on behind it. Lines are taken one after the other, and between
them, and at any time, the cache may do whatever it does by itself: which fetch goes on and when is
left open. A session that reads its stream in pieces, with some time before each of them, is one
way to take these turns. -/

namespace GatewayEnrichment

inductive Turn where
  | line (o : Octets) (now : Nat)
  | background (a : Cache.Action)

namespace Turn

def line? : Turn → Option Octets
  | .line o _ => some o
  | .background _ => none

def lines (turns : List Turn) : List Octets := turns.filterMap line?

theorem lines_append (as bs : List Turn) : lines (as ++ bs) = lines as ++ lines bs :=
  List.filterMap_append

theorem lines_background (as : List Cache.Action) : lines (as.map .background) = [] := by
  rw [lines, List.filterMap_map]
  exact List.filterMap_none as

end Turn

/-- A session without its clock: the cache, what was written with the latest line first, how many
lines were skipped, and what has ended the stream. -/
structure Reading where
  cache : Cache
  written : List Octets := []
  skipped : Nat := 0
  fault : Option Utf8.Fault := none

namespace Reading

def handle (r : Reading) (e : Event) (now : Nat) : Reading :=
  let (answer, cache) := r.cache.handle e now
  { r with cache := cache, written := (answer.map Event.write).toList ++ r.written }

def readLine (r : Reading) (o : Octets) (now : Nat) : Reading :=
  match r.fault with
  | some _ => r
  | none =>
    match Line.ofOctets o with
    | .error fault => { r with fault := some fault }
    | .ok .blank => r
    | .ok .malformed => { r with skipped := r.skipped + 1 }
    | .ok (.event e) => r.handle e now

def turn (r : Reading) : Turn → Reading
  | .line o now => r.readLine o now
  | .background a => { r with cache := r.cache.step a }

def run (r : Reading) (turns : List Turn) : Reading := turns.foldl turn r

theorem run_append (r : Reading) (as bs : List Turn) : r.run (as ++ bs) = (r.run as).run bs :=
  List.foldl_append

theorem run_background (r : Reading) (as : List Cache.Action) :
    r.run (as.map .background) = { r with cache := r.cache.run as } := by
  induction as generalizing r with
  | nil => rfl
  | cons a as ih => exact ih (r.turn (.background a))

def stdout (r : Reading) : Octets := r.written.reverse.flatMap (· ++ [lineEnd])

end Reading

/-! Time only moves fetches on. -/

namespace Schedule

def Leads (s s' : Schedule) : Prop := ∃ as, s'.cache = s.cache.run as

theorem Leads.refl (s : Schedule) : s.Leads s := ⟨[], rfl⟩

theorem Leads.of_step {s s' : Schedule} (a : Cache.Action) (h : s'.cache = s.cache.step a) :
    s.Leads s' := ⟨[a], h⟩

theorem Leads.trans {s s' s'' : Schedule} (h : s.Leads s') (h' : s'.Leads s'') : s.Leads s'' := by
  obtain ⟨as, hs⟩ := h
  obtain ⟨bs, hs'⟩ := h'
  refine ⟨as ++ bs, ?_⟩
  rw [hs', hs]
  exact List.foldl_append.symm

theorem leads_foldl {α : Type} {f : Schedule → α → Schedule} (h : ∀ s a, Leads s (f s a))
    (as : List α) (s : Schedule) : s.Leads (as.foldl f s) := by
  induction as generalizing s with
  | nil => exact .refl s
  | cons a as ih => exact (h s a).trans (ih (f s a))

theorem leads_repeat {f : Schedule → Schedule} (h : ∀ s, Leads s (f s)) (n : Nat) (s : Schedule) :
    s.Leads (n.repeat f s) := by
  induction n with
  | zero => exact .refl s
  | succ n ih => exact ih.trans (h _)

theorem leads_abortCondemned (s : Schedule) : s.Leads s.abortCondemned := by
  refine (Leads.refl { s with condemned := [] }).trans (leads_foldl (fun s t => ?_) _ _)
  split
  · exact .of_step (.cancel t) rfl
  · exact .refl s

theorem leads_completeDue (s : Schedule) (t : Ticket) : s.Leads (s.completeDue t) := by
  rw [completeDue]
  split
  · next id _ _ _ =>
    split
    · exact .of_step (.complete t (s.source.answer id) s.now) rfl
    · exact .refl s
  · exact .refl s

theorem leads_advanceFetch (s : Schedule) (t : Ticket) : s.Leads (s.advanceFetch t) := by
  have polled : s.Leads { s with cache := s.cache.poll t s.now } := .of_step (.poll t s.now) rfl
  exact polled.trans (leads_completeDue _ t)

theorem leads_settle (s : Schedule) : s.Leads s.settle :=
  s.leads_abortCondemned.trans (leads_foldl leads_advanceFetch _ _)

theorem leads_tick (s : Schedule) : s.Leads s.tick := by
  have refilled : ∀ s : Schedule, s.Leads s.refill.2.settle := fun s =>
    Leads.trans (.of_step .refill rfl) s.refill.2.leads_settle
  rw [tick]
  split
  · exact .refl s
  · next ticker _ =>
    have served : s.Leads { s with ticker := some (ticker.serve s.now).2 } := ⟨[], rfl⟩
    exact served.trans (leads_repeat refilled _ _)

theorem leads_run (s : Schedule) (ms : Nat) : s.Leads (s.run ms) := by
  refine leads_repeat (fun s => ?_) ms s
  have later : s.Leads { s with now := s.now + 1 } := ⟨[], rfl⟩
  exact later.trans ((leads_settle _).trans (leads_tick _))

end Schedule

namespace Session

def reading (s : Session) : Reading where
  cache := s.schedule.cache
  written := s.written
  skipped := s.skipped
  fault := s.fault

def wait (s : Session) (ms : Nat) : Session := { s with schedule := s.schedule.run ms }

def readAll (s : Session) (pieces : List (Nat × Octets)) (ms : Nat) : Session :=
  ((pieces.foldl (fun s piece => (s.wait piece.1).feed piece.2) s).wait ms).close

def Takes (s s' : Session) (lines : List Octets) : Prop :=
  ∃ turns, Turn.lines turns = lines ∧ s'.reading = s.reading.run turns

theorem Takes.trans {s s' s'' : Session} {as bs : List Octets} (h : s.Takes s' as)
    (h' : s'.Takes s'' bs) : s.Takes s'' (as ++ bs) := by
  obtain ⟨turns, rfl, hs⟩ := h
  obtain ⟨turns', rfl, hs'⟩ := h'
  exact ⟨turns ++ turns', Turn.lines_append turns turns', by rw [hs', hs, Reading.run_append]⟩

theorem takes_of_leads {s : Session} {schedule : Schedule} (h : s.schedule.Leads schedule) :
    s.Takes { s with schedule := schedule } [] := by
  obtain ⟨as, hs⟩ := h
  refine ⟨as.map .background, Turn.lines_background as, ?_⟩
  rw [Reading.run_background, ← show _ = s.reading.cache.run as from hs]
  rfl

theorem takes_wait (s : Session) (ms : Nat) : s.Takes (s.wait ms) [] :=
  takes_of_leads (s.schedule.leads_run ms)

theorem takes_line {s s' : Session} {o : Octets}
    (h : s'.reading = s.reading.readLine o s.schedule.now) : s.Takes s' [o] :=
  ⟨[.line o s.schedule.now], rfl, h⟩

theorem takes_handle {s : Session} {o : Octets} {e : Event} (opened : s.fault = none)
    (hl : Line.ofOctets o = .ok (.event e)) : s.Takes (s.handle e) [o] := by
  -- the event is handled in the turn of its line, and the fetches go on in turns of their own
  let handled : Session := { s with
    schedule := (s.schedule.handle e).2
    written := ((s.schedule.handle e).1.map Event.write).toList ++ s.written }
  have turn : handled.reading = s.reading.readLine o s.schedule.now := by
    rw [Reading.readLine, show s.reading.fault = none from opened, hl]
    rfl
  exact (takes_line turn).trans (takes_of_leads (s := handled) (Schedule.leads_settle _))

theorem takes_readLine (s : Session) (o : Octets) : s.Takes (s.readLine o) [o] := by
  cases hf : s.fault with
  | some fault =>
    have turn : s.reading.readLine o s.schedule.now = s.reading := by
      rw [Reading.readLine, show s.reading.fault = some fault from hf]
    rw [readLine, hf]
    exact takes_line turn.symm
  | none =>
    have opened : s.reading.fault = none := hf
    cases hl : Line.ofOctets o with
    | error fault =>
      rw [readLine, hf, hl]
      exact takes_line (by rw [Reading.readLine, opened, hl]; rfl)
    | ok line =>
      rw [readLine, hf, hl]
      cases line with
      | blank => exact takes_line (by rw [Reading.readLine, opened, hl])
      | malformed => exact takes_line (by rw [Reading.readLine, opened, hl]; rfl)
      | event e => exact takes_handle hf hl

theorem pending_readLine (s : Session) (o : Octets) : (s.readLine o).pending = s.pending := by
  rw [readLine]
  split
  · rfl
  · split <;> rfl

theorem takes_lines (lines : List Octets) (s : Session) :
    s.Takes (lines.foldl readLine s) lines ∧ (lines.foldl readLine s).pending = s.pending := by
  induction lines generalizing s with
  | nil => exact ⟨⟨[], rfl, rfl⟩, rfl⟩
  | cons o lines ih =>
    obtain ⟨taken, pending⟩ := ih (s.readLine o)
    exact ⟨(s.takes_readLine o).trans taken, pending.trans (s.pending_readLine o)⟩

theorem takes_feed (s : Session) (o : Octets) :
    s.Takes (s.feed o) (Line.split (s.pending ++ o)).1 ∧
      (s.feed o).pending = (Line.split (s.pending ++ o)).2 := by
  obtain ⟨⟨turns, lines, run⟩, pending⟩ := takes_lines (Line.split (s.pending ++ o)).1
    { s with pending := (Line.split (s.pending ++ o)).2 }
  exact ⟨⟨turns, lines, run⟩, pending⟩

theorem takes_close (s : Session) (h : lineEnd ∉ s.pending) :
    s.Takes s.close (Line.all s.pending) := by
  have whole : Line.split s.pending = ([], s.pending) := Line.split_of_notMem h
  rw [Line.all, whole, close]
  cases hp : s.pending with
  | nil => exact ⟨[], rfl, rfl⟩
  | cons c rest =>
    obtain ⟨turns, lines, run⟩ := takes_readLine { s with pending := [] } (c :: rest)
    exact ⟨turns, lines, run⟩

/-- However the stream comes in, a session reads its lines, and the last one also if it has no
end. -/
theorem takes_readAll (s : Session) (pieces : List (Nat × Octets)) (ms : Nat)
    (h : lineEnd ∉ s.pending) :
    s.Takes (s.readAll pieces ms) (Line.all (s.pending ++ pieces.flatMap (·.2))) := by
  induction pieces generalizing s with
  | nil =>
    rw [List.flatMap_nil, List.append_nil]
    exact (s.takes_wait ms).trans (takes_close (s.wait ms) h)
  | cons piece pieces ih =>
    obtain ⟨fed, pending⟩ := takes_feed (s.wait piece.1) piece.2
    have rest : lineEnd ∉ ((s.wait piece.1).feed piece.2).pending := by
      rw [pending]
      exact (Line.split_spec _).2.2
    have cut : Line.all (s.pending ++ (piece :: pieces).flatMap (·.2)) =
        [] ++ ((Line.split (s.pending ++ piece.2)).1 ++
          Line.all (((s.wait piece.1).feed piece.2).pending ++ pieces.flatMap (·.2))) := by
      rw [pending, List.flatMap_cons, ← List.append_assoc, Line.all_append]
      rfl
    rw [cut]
    exact (s.takes_wait piece.1).trans (fed.trans (ih _ rest))

end Session
end GatewayEnrichment
