import GatewayEnrichment.Proofs.Cache.Moves
import GatewayEnrichment.Proofs.Prefixes

/-! What a message owes to the fetches of its gateway. Of all that happens in a run, an enriched
message depends on the answers that the directory has given for its gateway since that was last
forgotten: on the last record among them, and on the failure if the last of them is one. -/

namespace GatewayEnrichment

abbrev Answer := Except DirectoryFailure GatewayRecord

def lastRecord (answers : List Answer) : Option GatewayRecord := answers.findSome? (·.toOption)

def lastFailure : List Answer → Option DirectoryFailure
  | .error failure :: _ => some failure
  | _ => none

def failureNote (g : String) (failure : DirectoryFailure) : TraceEvent :=
  ⟨"unable to get gateway info",
    Table.empty.insert "error" ("lookup of gateway " ++ g ++ " failed: " ++ failure.message)⟩

def injectionNote : TraceEvent := ⟨"injecting gateway location", .empty⟩

def Uplink.filled (m : Uplink) (record : Option GatewayRecord)
    (failure : Option DirectoryFailure) : Uplink :=
  let injected := if m.gps = none then record.bind (·.antennaLocation) else none
  { m with
    gps := m.gps.or (injected.map AntennaLocation.narrowed)
    trace := m.trace ++ (failure.map (failureNote m.gatewayId)).toList ++
      (injected.map fun _ => injectionNote).toList }

def Status.filled (m : Status) : Option GatewayRecord → Status
  | none => m
  | some r =>
    { m with
      gps := m.gps.or (r.antennaLocation.map AntennaLocation.narrowed)
      frequencyPlan := if m.frequencyPlan = "" then r.frequencyPlan else m.frequencyPlan
      platform := if m.platform = "" then r.attributes.platform else m.platform
      description :=
        if m.description = "" then r.attributes.description.getD "" else m.description }

def Event.filled (e : Event) (record : Option GatewayRecord) (failure : Option DirectoryFailure) :
    Option Event :=
  match e with
  | .uplink m => some (.uplink (m.filled record failure))
  | .status m => some (.status (m.filled record))
  | .connect _ | .disconnect _ => none

def Event.isMessage : Event → Bool
  | .uplink _ | .status _ => true
  | .connect _ | .disconnect _ => false

theorem Uplink.filled_none (m : Uplink) : m.filled none none = m := by
  obtain ⟨g, gps, trace, payload⟩ := m
  cases gps <;> simp [filled]

theorem Event.filled_none {e : Event} (h : e.isMessage = true) : e.filled none none = some e := by
  cases e with
  | connect m | disconnect m => cases h
  | uplink m => exact congrArg (some ∘ Event.uplink) m.filled_none
  | status m => rfl

theorem Uplink.enriched_eq_filled (m : Uplink) (record : Option GatewayRecord)
    (failure : Option DirectoryFailure) (needsRefresh : Bool) :
    m.enriched ⟨record.getD .empty, failure.map (⟨m.gatewayId, ·⟩), needsRefresh⟩ =
      m.filled record failure := by
  have location : (record.getD .empty).antennaLocation = record.bind (·.antennaLocation) := by
    cases record <;> rfl
  obtain ⟨g, gps, trace, payload⟩ := m
  have note : ∀ f, trace.addEventWith "unable to get gateway info" "error"
      (LookupFailure.message ⟨g, f⟩) = trace ++ [failureNote g f] := fun _ => rfl
  simp only [enriched, filled, location]
  cases gps with
  | some gps => cases failure <;> simp [note]
  | none =>
    cases record.bind (·.antennaLocation) <;> cases failure <;>
      simp [note, Trace.addEvent, injectionNote]

theorem Status.enriched_eq_filled (m : Status) (record : Option GatewayRecord)
    (failure : Option LookupFailure) (needsRefresh : Bool) :
    m.enriched ⟨record.getD .empty, failure, needsRefresh⟩ = m.filled record := by
  cases record with
  | some r => rfl
  | none =>
    have kept : ∀ s, orElse s "" = s := fun s => ite_eq_right_iff.mpr Eq.symm
    simp [enriched, filled, GatewayRecord.empty, Attributes.platform, kept]

inductive Sight where
  | forgotten
  | landed (answer : Answer)
  | message (e : Event)

def Event.sight? : Event → Option Sight
  | .connect _ => none
  | .disconnect _ => some .forgotten
  | .uplink m => some (.message (.uplink m))
  | .status m => some (.message (.status m))

namespace Sight

def learn (answers : List Answer) : Sight → List Answer
  | .forgotten => []
  | .landed answer => answer :: answers
  | .message _ => answers

def filled? (answers : List Answer) : Sight → Option Event
  | .message e => e.filled (lastRecord answers) (lastFailure answers)
  | _ => none

def learned (sights : List Sight) : List Answer := sights.foldl learn []

theorem learned_append (as bs : List Sight) :
    learned (as ++ bs) = bs.foldl learn (learned as) := List.foldl_append

def filled (sights : List Sight) : List Event :=
  along learn (fun answers s => (s.filled? answers).toList) [] sights

theorem filled_append (sights : List Sight) (s : Option Sight) :
    filled (sights ++ s.toList) = filled sights ++ (s.bind (filled? (learned sights))).toList := by
  rw [filled, along_append, filled]
  cases s with
  | none => rfl
  | some s => exact congrArg _ (List.append_nil _)

end Sight

namespace Cache

def sight? (c : Cache) (g : String) : Move → Option Sight
  | .event e _ => if e.gatewayId = g then e.sight? else none
  | .remove id => if id = g then some .forgotten else none
  | .complete t answer now =>
    match c.landing? (.complete t answer now) with
    | some f => if f.gatewayId = g then some (.landed answer) else none
    | none => none
  | _ => none

def enriched? (c : Cache) (g : String) : Move → Option Event
  | .event e now => if e.gatewayId = g then (c.handle e now).1 else none
  | _ => none

def sights (c : Cache) (g : String) (moves : List Move) : List Sight :=
  along move (fun c m => (c.sight? g m).toList) c moves

def enriched (c : Cache) (g : String) (moves : List Move) : List Event :=
  along move (fun c m => (c.enriched? g m).toList) c moves

theorem sights_concat (c : Cache) (g : String) (moves : List Move) (m : Move) :
    c.sights g (moves ++ [m]) = c.sights g moves ++ ((c.after moves).sight? g m).toList :=
  along_concat _ _ _ _ _

theorem enriched_concat (c : Cache) (g : String) (moves : List Move) (m : Move) :
    c.enriched g (moves ++ [m]) = c.enriched g moves ++ ((c.after moves).enriched? g m).toList :=
  along_concat _ _ _ _ _

/-! The outcomes that the history of a gateway keeps are the answers that were seen. -/

section

variable (past : Store.History) (g id : String) (now : Nat) (r : Store.Reply)

theorem writes_cons_get : Store.History.writes (⟨.get id now, r⟩ :: past) g = past.writes g := by
  rw [Store.History.writes_cons, if_neg (by rintro ⟨⟩)]
  rfl

theorem writes_cons_remove :
    Store.History.writes (⟨.remove id, r⟩ :: past) g = if id = g then [] else past.writes g := by
  rw [Store.History.writes_cons]
  by_cases h : id = g <;> simp [h, Store.Call.write?]

theorem writes_cons_storing (outcome : Except LookupFailure GatewayRecord) :
    Store.History.writes (⟨storing id outcome now, r⟩ :: past) g =
      if id = g then (now, outcome) :: past.writes g else past.writes g := by
  rw [Store.History.writes_cons]
  have hw : (storing id outcome now).write? g = if id = g then some (now, outcome) else none := by
    cases outcome <;> simp [storing, Store.Call.write?, eq_comm]
  have hr : storing id outcome now ≠ .remove g := by
    cases outcome <;> rintro ⟨⟩
  rw [if_neg hr, hw]
  split <;> rfl

end

theorem history_singleton (c : Cache) (m : Move) :
    c.history [m] = (c.storeCall? m.action).toList.map fun call => ⟨call, c.store.reply call⟩ := by
  rw [history, calls, calls, List.append_nil]
  cases c.storeCall? m.action <;> rfl

theorem writes_move (c : Cache) (past : Store.History) (g : String) (m : Move)
    {answers : List Answer} (h : (past.writes g).map (·.2) = answers.map (outcome g)) :
    (Store.History.writes (c.history [m] ++ past) g).map (·.2) =
      ((c.sight? g m).toList.foldl Sight.learn answers).map (outcome g) := by
  have read : ∀ id now r, (Store.History.writes (⟨.get id now, r⟩ :: past) g).map (·.2) =
      answers.map (outcome g) := by
    intro id now r
    rw [writes_cons_get, h]
  have remove : ∀ id r, (Store.History.writes (⟨.remove id, r⟩ :: past) g).map (·.2) =
      ((if id = g then some Sight.forgotten else none).toList.foldl Sight.learn answers).map
        (outcome g) := by
    intro id r
    rw [writes_cons_remove]
    split
    · rfl
    · exact h
  rw [history_singleton]
  cases m with
  | event e now =>
    cases e with
    | connect m =>
      rw [sight?]
      split <;> exact h
    | disconnect m => exact remove m.gatewayId _
    | uplink m | status m =>
      -- a message is seen, and nothing is learned from it
      refine (read m.gatewayId now _).trans (congrArg (List.map (outcome g)) ?_)
      rw [sight?]
      split <;> rfl
  | remove id => exact remove id _
  | read id now => exact read id now _
  | complete t answer now =>
    rw [Move.action, storeCall?, sight?]
    cases c.landing? (.complete t answer now) with
    | none => exact h
    | some f =>
      rw [Option.map_some, Option.toList_some, List.map_singleton, List.singleton_append,
        writes_cons_storing]
      dsimp only
      split
      · next hf =>
        subst hf
        exact congrArg (List.cons _) h
      · exact h
  | fetch | poll | cancel | refill => exact h

section

variable {past : Store.History} {g : String} {answers : List Answer}
  (h : (past.writes g).map (·.2) = answers.map (outcome g))

include h

theorem record_eq_lastRecord : past.record g = (lastRecord answers).getD .empty := by
  have outcome_toOption : ∀ a : Answer, (outcome g a).toOption = a.toOption := fun a => by
    cases a <;> rfl
  have found : (past.writes g).findSome? (·.2.toOption) = lastRecord answers := by
    calc (past.writes g).findSome? (·.2.toOption)
        = ((past.writes g).map (·.2)).findSome? (·.toOption) := by
          rw [List.findSome?_map]
          rfl
      _ = answers.findSome? fun a => (outcome g a).toOption := by
          rw [h, List.findSome?_map]
          rfl
      _ = lastRecord answers := by simp only [outcome_toOption, lastRecord]
  rw [Store.History.record, found]

theorem failure_eq_lastFailure : past.failure g = (lastFailure answers).map (⟨g, ·⟩) := by
  rw [Store.History.failure]
  cases answers with
  | nil => rw [List.map_eq_nil_iff.mp h]; rfl
  | cons a answers =>
    obtain ⟨⟨now, o⟩, writes, hw, ho, -⟩ := List.map_eq_cons_iff.mp h
    rw [hw]
    cases ho
    cases a <;> rfl

end

section

variable (burst : Nat) (expiry : Option Nat) (moves : List Move) (g : String)

theorem writes_history :
    (((start burst expiry).history moves).writes g).map (·.2) =
      (Sight.learned ((start burst expiry).sights g moves)).map (outcome g) := by
  induction moves using List.reverseRecOn with
  | nil => rfl
  | append_singleton moves m ih =>
    rw [history_append, writes_move _ _ _ _ ih, sights_concat, Sight.learned_append]

theorem read_eq_last (now : Nat) :
    let c := (start burst expiry).after moves
    let answers := Sight.learned ((start burst expiry).sights g moves)
    (c.read g now).1 = ⟨(lastRecord answers).getD .empty, (lastFailure answers).map (⟨g, ·⟩),
      (c.read g now).1.needsRefresh⟩ := by
  intro c answers
  let past := (start burst expiry).history moves
  have writes : (past.writes g).map (·.2) = answers.map (outcome g) :=
    writes_history burst expiry moves g
  have info : (c.read g now).1 = past.info g expiry now :=
    (follows_history burst expiry moves).info_eq g now
  have parts : past.info g expiry now =
      ⟨past.record g, past.failure g, (past.info g expiry now).needsRefresh⟩ := by
    rw [Store.History.info]
    split
    · next hn => simp [Store.History.record, Store.History.failure, hn]
    · rfl
  rw [info, parts, record_eq_lastRecord writes, failure_eq_lastFailure writes]

theorem handle_eq_filled (e : Event) (now : Nat) :
    let answers := Sight.learned ((start burst expiry).sights e.gatewayId moves)
    (((start burst expiry).after moves).handle e now).1 =
      e.filled (lastRecord answers) (lastFailure answers) := by
  intro answers
  let c := (start burst expiry).after moves
  cases e with
  | connect m | disconnect m => rfl
  | uplink m =>
    have out : (c.handle (.uplink m) now).1 =
        some (.uplink (m.enriched (c.read m.gatewayId now).1)) := rfl
    have read : (c.read m.gatewayId now).1 = _ := read_eq_last burst expiry moves m.gatewayId now
    rw [out, read, Uplink.enriched_eq_filled]
    rfl
  | status m =>
    have out : (c.handle (.status m) now).1 =
        some (.status (m.enriched (c.read m.gatewayId now).1)) := rfl
    have read : (c.read m.gatewayId now).1 = _ := read_eq_last burst expiry moves m.gatewayId now
    rw [out, read, Status.enriched_eq_filled]
    rfl

theorem enriched?_eq_filled? (m : Move) :
    ((start burst expiry).after moves).enriched? g m =
      (((start burst expiry).after moves).sight? g m).bind
        (Sight.filled? (Sight.learned ((start burst expiry).sights g moves))) := by
  cases m with
  | event e now =>
    rw [enriched?, sight?]
    split
    · next he =>
      subst he
      rw [handle_eq_filled]
      cases e <;> rfl
    · rfl
  | remove id =>
    rw [sight?]
    split <;> rfl
  | complete t answer now =>
    rw [sight?]
    split
    · split <;> rfl
    · rfl
  | fetch | read | poll | cancel | refill => rfl

theorem enriched_eq_filled :
    (start burst expiry).enriched g moves = Sight.filled ((start burst expiry).sights g moves) := by
  induction moves using List.reverseRecOn with
  | nil => rfl
  | append_singleton moves m ih =>
    rw [enriched_concat, sights_concat, ih, Sight.filled_append, enriched?_eq_filled?]

end

/-- What comes out for the messages of a gateway is what a record and a failure make of them. -/
def Completes (c : Cache) (g : String) (record : Option GatewayRecord)
    (failure : Option DirectoryFailure) : Prop :=
  ∀ (e : Event) (now : Nat), e.gatewayId = g → (c.handle e now).1 = e.filled record failure

structure EnrichedFrom (c : Cache) (g : String) (answers : List Answer) : Prop where
  completes : c.Completes g (lastRecord answers) (lastFailure answers)
  unanswered : answers = [] →
    ∀ e now, e.gatewayId = g → e.isMessage = true → (c.handle e now).1 = some e
  succeeded : ∀ record past, answers = .ok record :: past → c.Completes g (some record) none
  failed : ∀ failure past, answers = .error failure :: past →
    c.Completes g (lastRecord past) (some failure)
  -- also a read that starts a refresh returns what was known before
  read : ∀ now, (c.read g now).1 = ⟨(lastRecord answers).getD .empty,
    (lastFailure answers).map (⟨g, ·⟩), (c.read g now).1.needsRefresh⟩

structure EnrichedAlong (first : Cache) (g : String) (moves : List Move) : Prop where
  filled : first.enriched g moves = Sight.filled (first.sights g moves)
  alike : ∀ burst expiry moves', (start burst expiry).sights g moves' = first.sights g moves →
    (start burst expiry).enriched g moves' = first.enriched g moves

section

variable (burst : Nat) (expiry : Option Nat) (moves : List Move) (g : String)

theorem enrichedFrom_learned :
    let first := start burst expiry
    EnrichedFrom (first.after moves) g (Sight.learned (first.sights g moves)) := by
  intro first
  let answers := Sight.learned (first.sights g moves)
  have completes : (first.after moves).Completes g (lastRecord answers) (lastFailure answers) := by
    rintro e now rfl
    exact handle_eq_filled burst expiry moves e now
  refine ⟨completes, ?_, ?_, ?_, read_eq_last burst expiry moves g⟩
  · intro none_yet e now he hm
    have answered := completes e now he
    rw [show answers = [] from none_yet] at answered
    exact answered.trans (Event.filled_none hm)
  · intro record past ha
    rw [show answers = .ok record :: past from ha] at completes
    exact completes
  · intro failure past ha
    rw [show answers = .error failure :: past from ha] at completes
    exact completes

theorem enrichedAlong_start : EnrichedAlong (start burst expiry) g moves where
  filled := enriched_eq_filled burst expiry moves g
  alike burst' expiry' moves' same := by
    rw [enriched_eq_filled, enriched_eq_filled, same]

end

/-- The messages of a gateway depend on what its own fetches have brought since it was last
forgotten, and on nothing else: not on the permits, the expiry or any other gateway. -/
theorem enriched_by_own_fetches (burst : Nat) (expiry : Option Nat) (moves : List Move)
    (g : String) :
    let first := start burst expiry
    EnrichedFrom (first.after moves) g (Sight.learned (first.sights g moves)) ∧
      EnrichedAlong first g moves :=
  ⟨enrichedFrom_learned burst expiry moves g, enrichedAlong_start burst expiry moves g⟩

theorem enriched_beside_other_gateway :
    (start 2 (some 5)).enriched "gw1"
        [.event (.connect ⟨"gw2"⟩) 0, .event (.connect ⟨"gw1"⟩) 0, .poll 1 0, .poll 0 0,
          .complete 1 (.ok { frequencyPlan := "EU" }) 1, .complete 0 (.error .notFound) 2,
          .event (.status { gatewayId := "gw1" }) 9, .poll 2 9,
          .event (.disconnect ⟨"gw2"⟩) 9] =
      (start 1 none).enriched "gw1"
        [.fetch "gw1", .poll 0 0, .complete 0 (.ok { frequencyPlan := "EU" }) 1,
          .event (.status { gatewayId := "gw1" }) 2] :=
  (enriched_by_own_fetches 1 none
    [.fetch "gw1", .poll 0 0, .complete 0 (.ok { frequencyPlan := "EU" }) 1,
      .event (.status { gatewayId := "gw1" }) 2] "gw1").2.alike 2 (some 5)
    [.event (.connect ⟨"gw2"⟩) 0, .event (.connect ⟨"gw1"⟩) 0, .poll 1 0, .poll 0 0,
      .complete 1 (.ok { frequencyPlan := "EU" }) 1, .complete 0 (.error .notFound) 2,
      .event (.status { gatewayId := "gw1" }) 9, .poll 2 9,
      .event (.disconnect ⟨"gw2"⟩) 9] rfl

end Cache
end GatewayEnrichment
