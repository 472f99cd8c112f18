import GatewayEnrichment.Enrichment
import GatewayEnrichment.Proofs.Store.History

/-! What can happen to a cache, one move after the other: events of the pipeline, fetches that a
caller asks for, reads, removals, and the progress of the fetches that are under way. The order of
the moves and their instants are free, but a refresh is issued by a read and by nothing else. The
calls that the moves make to the store are a run of the store. -/

namespace GatewayEnrichment.Cache

inductive Move where
  | event (e : Event) (now : Nat)
  | fetch (id : String)
  | read (id : String) (now : Nat)
  | remove (id : String)
  | poll (t : Ticket) (now : Nat)
  | complete (t : Ticket) (answer : Except DirectoryFailure GatewayRecord) (now : Nat)
  | cancel (t : Ticket)
  | refill

def Move.action : Move → Action
  | .event (.connect m) _ => .issue .connect m.gatewayId
  | .event (.disconnect m) _ => .remove m.gatewayId
  | .event (.uplink m) now => .read m.gatewayId now
  | .event (.status m) now => .read m.gatewayId now
  | .fetch id => .issue .explicit id
  | .read id now => .read id now
  | .remove id => .remove id
  | .poll t now => .poll t now
  | .complete t answer now => .complete t answer now
  | .cancel t => .cancel t
  | .refill => .refill

def start (burst : Nat) (expiry : Option Nat) : Cache where
  store := .withExpiry expiry
  limiter := .full burst

theorem ofBurst_eq_start {burst : Nat} (h : burst ≤ Limiter.maxPermits) (expiry : Option Nat) :
    ofBurst burst expiry = .ok (start burst expiry) := by
  rw [ofBurst, Limiter.ofBurst, if_neg (Nat.not_lt.mpr h)]
  rfl

def move (c : Cache) : Move → Cache
  | .event e now => (c.handle e now).2
  | m => c.step m.action

theorem move_eq_step (c : Cache) (m : Move) : c.move m = c.step m.action := by
  cases m with
  | event e now => cases e <;> rfl
  | _ => rfl

def after (c : Cache) (moves : List Move) : Cache := moves.foldl move c

theorem after_append (c : Cache) (as bs : List Move) :
    c.after (as ++ bs) = (c.after as).after bs := List.foldl_append

theorem after_concat (c : Cache) (as : List Move) (m : Move) :
    c.after (as ++ [m]) = (c.after as).move m := after_append c as [m]

/-! A step issues a fetch, or moves one on, or drops one. Fetches are issued on request or by a read
of a stale gateway; they come in at the end of the list and leave it from anywhere. -/

def issued? (c : Cache) : Action → Option Fetch
  | .issue purpose id => some ⟨c.issued, id, purpose, .issued⟩
  | .read id now =>
    if (c.store.get id now).1.needsRefresh then some ⟨c.issued, id, .refresh, .issued⟩ else none
  | _ => none

def landing? (c : Cache) : Action → Option Fetch
  | .complete t _ _ =>
    match c.fetch? t with
    | some ⟨t, id, purpose, .looking since⟩ => some ⟨t, id, purpose, .looking since⟩
    | _ => none
  | _ => none

theorem complete_eq (c : Cache) (t : Ticket) (answer : Except DirectoryFailure GatewayRecord)
    (now : Nat) :
    c.complete t answer now = match c.landing? (.complete t answer now) with
      | some f =>
        { c.drop t with store := c.store.setOutcome f.gatewayId (outcome f.gatewayId answer) now }
      | none => c := by
  rw [complete, landing?]
  rcases c.fetch? t with _ | ⟨t, id, purpose, stage⟩
  · rfl
  · cases stage <;> rfl

theorem fetches_step (c : Cache) (a : Action) :
    (c.step a).fetches = c.fetches ++ (c.issued? a).toList ∨
      c.issued? a = none ∧ ∃ t, (∃ stage, (c.step a).fetches = (c.setStage t stage).fetches) ∨
        (c.step a).fetches = (c.drop t).fetches := by
  cases a with
  | issue purpose id => exact .inl rfl
  | poll t now =>
    simp only [step, poll, issued?]
    split
    · refine .inr ⟨trivial, t, .inl ?_⟩
      split
      · exact ⟨_, rfl⟩
      · exact ⟨_, rfl⟩
    · split
      · exact .inr ⟨trivial, t, .inl ⟨_, rfl⟩⟩
      · exact .inl (List.append_nil _).symm
    · exact .inl (List.append_nil _).symm
  | complete t answer now =>
    simp only [step, complete, issued?]
    split
    · exact .inr ⟨trivial, t, .inr rfl⟩
    · exact .inl (List.append_nil _).symm
  | cancel t =>
    simp only [step, cancel, issued?]
    split
    · exact .inr ⟨trivial, t, .inr rfl⟩
    · exact .inr ⟨trivial, t, .inr rfl⟩
    · exact .inl (List.append_nil _).symm
  | refill => exact .inl (List.append_nil _).symm
  | read id now =>
    simp only [step, read, issued?]
    split
    · exact .inl rfl
    · exact .inl (List.append_nil _).symm
  | remove id => exact .inl (List.append_nil _).symm

theorem action_of_issued {c : Cache} {a : Action} {f : Fetch} (h : c.issued? a = some f) :
    (∃ purpose, a = .issue purpose f.gatewayId) ∨
      ∃ now, a = .read f.gatewayId now ∧ (c.store.get f.gatewayId now).1.needsRefresh = true := by
  cases a with
  | issue purpose id =>
    cases h
    exact .inl ⟨purpose, rfl⟩
  | read id now =>
    rw [issued?] at h
    split at h
    · next hr =>
      cases h
      exact .inr ⟨now, rfl, hr⟩
    · cases h
  | _ => cases h

theorem fetches_step_of_issued {c : Cache} {a : Action} {f : Fetch} (h : c.issued? a = some f) :
    (c.step a).fetches = c.fetches ++ [f] := by
  rcases c.fetches_step a with hs | ⟨hn, -⟩
  · rw [hs, h, Option.toList_some]
  · rw [h] at hn
    cases hn

theorem mem_fetches_step {c : Cache} {a : Action} {f : Fetch} (h : f ∈ (c.step a).fetches) :
    c.issued? a = some f ∨
      ∃ g ∈ c.fetches, g.ticket = f.ticket ∧ g.gatewayId = f.gatewayId := by
  rcases c.fetches_step a with hs | ⟨-, t, ⟨stage, hs⟩ | hs⟩
  · rw [hs, List.mem_append, Option.mem_toList] at h
    exact h.symm.imp_right fun hf => ⟨f, hf, rfl, rfl⟩
  · rw [hs, setStage, List.mem_map] at h
    obtain ⟨g, hg, rfl⟩ := h
    refine .inr ⟨g, hg, ?_⟩
    split <;> exact ⟨rfl, rfl⟩
  · rw [hs, drop, List.mem_filter] at h
    exact .inr ⟨f, h.1, rfl, rfl⟩

theorem mem_fetches_of_landing {c : Cache} {a : Action} {f : Fetch} (h : c.landing? a = some f) :
    f ∈ c.fetches := by
  cases a with
  | complete t answer now =>
    simp only [landing?] at h
    split at h
    · next hf =>
      cases h
      exact List.mem_of_find?_eq_some hf
    · cases h
  | _ => cases h

def storing (id : String) (outcome : Except LookupFailure GatewayRecord) (now : Nat) : Store.Call :=
  match outcome with
  | .ok record => .setSuccess id record now
  | .error failure => .setFailure id failure now

def storeCall? (c : Cache) (a : Action) : Option Store.Call :=
  match a with
  | .complete _ answer now =>
    (c.landing? a).map fun f => storing f.gatewayId (outcome f.gatewayId answer) now
  | .read id now => some (.get id now)
  | .remove id => some (.remove id)
  | _ => none

theorem serve_storing (s : Store) (id : String) (outcome : Except LookupFailure GatewayRecord)
    (now : Nat) : s.serve (storing id outcome now) = s.setOutcome id outcome now := by
  cases outcome <;> rfl

theorem store_step (c : Cache) (a : Action) :
    (c.step a).store = c.store.after (c.storeCall? a).toList := by
  cases a with
  | poll t now =>
    simp only [step, poll]
    split
    · split <;> rfl
    · split <;> rfl
    · rfl
  | complete t answer now =>
    rw [step, complete_eq, storeCall?]
    cases c.landing? (.complete t answer now) with
    | none => rfl
    | some f => exact (serve_storing c.store _ _ now).symm
  | cancel t =>
    simp only [step, cancel]
    split <;> rfl
  | read id now =>
    simp only [step, read]
    split <;> rfl
  | issue | refill | remove => rfl

def calls (c : Cache) : List Move → List Store.Call
  | [] => []
  | m :: moves => (c.storeCall? m.action).toList ++ (c.move m).calls moves

theorem calls_append (c : Cache) (as bs : List Move) :
    c.calls (as ++ bs) = c.calls as ++ (c.after as).calls bs := by
  induction as generalizing c with
  | nil => rfl
  | cons m as ih =>
    rw [List.cons_append, calls, ih, calls, List.append_assoc]
    rfl

theorem store_after (c : Cache) (moves : List Move) :
    (c.after moves).store = c.store.after (c.calls moves) := by
  induction moves generalizing c with
  | nil => rfl
  | cons m moves ih =>
    rw [calls, Store.after_append, ← store_step, ← move_eq_step]
    exact ih (c.move m)

def history (c : Cache) (moves : List Move) : Store.History := c.store.history (c.calls moves)

theorem history_append (c : Cache) (as bs : List Move) :
    c.history (as ++ bs) = (c.after as).history bs ++ c.history as := by
  rw [history, calls_append, Store.history_append, ← store_after]
  rfl

theorem follows_history (burst : Nat) (expiry : Option Nat) (moves : List Move) :
    Store.Follows ((start burst expiry).after moves).store expiry
      ((start burst expiry).history moves) := by
  rw [store_after]
  exact Store.follows_history expiry _

end GatewayEnrichment.Cache
