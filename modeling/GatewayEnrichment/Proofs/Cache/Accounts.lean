import GatewayEnrichment.Proofs.Cache.Permits
import GatewayEnrichment.Proofs.Store.Counts

/-! What a run of a cache amounts to in numbers. The statistics count the reads by what they found,
the reads that asked for a refresh, and the fetches that have landed by their outcome. Every fetch
that was asked for or that a read has caused is found again: it waits, is in its lookup, has landed
or was cancelled. One that has landed has made one lookup, with a permit of its own, and has stored
the outcome that it returns; one that was cancelled has stored nothing. -/

namespace GatewayEnrichment.Cache

def Move.isRequest : Move → Bool
  | .event (.connect _) _ => true
  | .fetch _ => true
  | _ => false

def Move.isRead (m : Move) : Bool :=
  match m.action with
  | .read _ _ => true
  | _ => false

def reply? (c : Cache) : Action → Option Info
  | .read id now => some (c.read id now).1
  | _ => none

def returned? (c : Cache) : Action → Option (Fetch × Except LookupFailure GatewayRecord)
  | .complete t answer now =>
    (c.landing? (.complete t answer now)).map fun f => (f, outcome f.gatewayId answer)
  | _ => none

def replies (c : Cache) (moves : List Move) : List Info :=
  along move (fun c m => (c.reply? m.action).toList) c moves

def returned (c : Cache) (moves : List Move) :
    List (Fetch × Except LookupFailure GatewayRecord) :=
  along move (fun c m => (c.returned? m.action).toList) c moves

theorem map_fst_returned (c : Cache) (moves : List Move) :
    (c.returned moves).map (·.1) = c.landings moves := by
  induction moves generalizing c with
  | nil => rfl
  | cons m moves ih =>
    have hm : (c.returned? m.action).toList.map (·.1) = (c.landing? m.action).toList := by
      generalize m.action = a
      cases a with
      | complete t answer now =>
        rw [returned?]
        cases c.landing? (.complete t answer now) <;> rfl
      | _ => rfl
    rw [returned, along, List.map_append, hm, landings]
    exact congrArg _ (ih (c.move m))

theorem map_ticket_returned (c : Cache) (moves : List Move) :
    (c.returned moves).map (·.1.ticket) = (c.landings moves).map (·.ticket) := by
  rw [← map_fst_returned, List.map_map]
  rfl

/-! The statistics are the counts of the calls to the store, and these are the reads and the
outcomes of the run. -/

theorem infos_calls (c : Cache) (moves : List Move) :
    c.store.infos (c.calls moves) = c.replies moves := by
  induction moves generalizing c with
  | nil => rfl
  | cons m moves ih =>
    have hm : c.store.infos (c.storeCall? m.action).toList = (c.reply? m.action).toList := by
      generalize m.action = a
      cases a with
      | complete t answer now =>
        rw [storeCall?]
        cases c.landing? (.complete t answer now) with
        | none => rfl
        | some f => 
          cases answer <;> rfl
      | _ => rfl
    rw [calls, Store.infos_append, hm, ← store_step, ← move_eq_step, replies, along]
    exact congrArg _ (ih (c.move m))

theorem written_calls (c : Cache) (moves : List Move) :
    Store.written (c.calls moves) = (c.returned moves).map fun r => (r.1.gatewayId, r.2) := by
  induction moves generalizing c with
  | nil => rfl
  | cons m moves ih =>
    have hm : Store.written (c.storeCall? m.action).toList =
        (c.returned? m.action).toList.map fun r => (r.1.gatewayId, r.2) := by
      generalize m.action = a
      cases a with
      | complete t answer now =>
        rw [storeCall?, returned?]
        cases c.landing? (.complete t answer now) with
        | none => rfl
        | some f => cases answer <;> rfl
      | _ => rfl
    rw [calls, Store.written, List.filterMap_append, returned, along, List.map_append, ← hm]
    exact congrArg _ (ih (c.move m))

theorem counted_after (burst : Nat) (expiry : Option Nat) (moves : List Move) :
    let first := start burst expiry
    Store.Counted (first.after moves).store (first.replies moves)
      ((first.returned moves).map fun r => (r.1.gatewayId, r.2)) := by
  intro first
  rw [store_after, ← infos_calls, ← written_calls]
  exact Store.counted_after expiry (first.calls moves)

theorem issued_read (c : Cache) (id : String) (now : Nat) :
    (c.read id now).2.issued =
      c.issued + (c.reply? (.read id now)).toList.countP (·.needsRefresh) := by
  have hr : (c.read id now).1 = (c.store.get id now).1 := rfl
  rw [reply?, Option.toList_some, List.countP_singleton, hr, read_eq]
  cases (c.store.get id now).1.needsRefresh <;> rfl

theorem issued_move (c : Cache) (m : Move) :
    (c.move m).issued =
      c.issued + [m].countP Move.isRequest +
        (c.reply? m.action).toList.countP (·.needsRefresh) := by
  rw [move_eq_step]
  cases m with
  | event e now =>
    cases e with
    | connect m | disconnect m => rfl
    | uplink m | status m => exact c.issued_read m.gatewayId now
  | fetch id | remove id | refill => rfl
  | read id now => exact c.issued_read id now
  | poll t now =>
    simp only [Move.action, step, poll]
    split
    · split <;> rfl
    · split <;> rfl
    · rfl
  | complete t answer now =>
    simp only [Move.action, step, complete]
    split <;> rfl
  | cancel t =>
    simp only [Move.action, step, cancel]
    split <;> rfl

theorem length_replies (c : Cache) (moves : List Move) :
    (c.replies moves).length = moves.countP Move.isRead := by
  induction moves generalizing c with
  | nil => rfl
  | cons m moves ih =>
    have hm : (c.reply? m.action).toList.length = [m].countP Move.isRead := by
      rw [List.countP_singleton, Move.isRead]
      cases m.action <;> rfl
    rw [← List.singleton_append, List.countP_append, ← hm, ← ih (c.move m)]
    exact List.length_append

theorem issued_after (burst : Nat) (expiry : Option Nat) (moves : List Move) :
    let first := start burst expiry
    (first.after moves).issued =
      moves.countP Move.isRequest + (first.replies moves).countP (·.needsRefresh) := by
  intro first
  induction moves using List.reverseRecOn with
  | nil => rfl
  | append_singleton moves m ih =>
    have hr : first.replies (moves ++ [m]) =
        first.replies moves ++ ((first.after moves).reply? m.action).toList :=
      along_concat _ _ _ _ _
    rw [after_concat, issued_move, ih, List.countP_append, hr, List.countP_append]
    omega

theorem totalEntries_eq (c : Cache) :
    ∃ known : List String, known.Nodup ∧ (∀ g, g ∈ known ↔ c.store.contains g = true) ∧
      c.statistics.totalEntries = known.length :=
  ⟨c.store.entries.pairs.map (·.1), c.store.entries.distinct, c.store.entries.mem_keys,
    (List.length_map _).symm⟩

theorem fates_after (burst : Nat) (expiry : Option Nat) (moves : List Move) :
    let first := start burst expiry
    let c := first.after moves
    (c.awaiting ++ c.inLookup ++ (first.returned moves).map (·.1.ticket) ++
      (first.cancellations moves).map (·.ticket)).Perm (List.range c.issued) := by
  intro first c
  have hf : FetchesCounted c (first.lookedUp moves) (first.landings moves)
      (first.cancellations moves) := fetchesCounted burst expiry moves
  rw [map_ticket_returned]
  exact ((c.awaiting_append_inLookup_perm.append_right _).append_right _).trans hf.fates

section

variable (c : Cache) (looked : List Ticket)
  (returned : List (Fetch × Except LookupFailure GatewayRecord)) (cancelled : List Fetch)

structure FetchesPlaced (requests : Nat) : Prop where
  total : requests + c.statistics.refreshes =
    c.awaiting.length + c.inLookup.length + returned.length + cancelled.length
  once : (c.awaiting ++ c.inLookup ++ returned.map (·.1.ticket) ++ cancelled.map (·.ticket)).Perm
    (List.range c.issued)

/-- Each lookup has used a permit of its own, and each fetch has made at most one lookup. -/
structure LookupsPermitted (burst : Nat) (acquires : List Limiter.Move) : Prop where
  counted : c.lookups = looked.length
  once : looked.Nodup
  acquired : looked = (Limiter.Acquires.full burst).completions acquires
  permits : burst + ((Limiter.Acquires.full burst).answers acquires).count true =
    c.available + c.limiter.handed.length + c.lookups
  placed : looked.Perm (c.inLookup ++ returned.map (·.1.ticket) ++
    (cancelled.filter (·.stage.isLooking)).map (·.ticket))

structure OutcomesStored (expiry : Option Nat) (calls : List Store.Call) : Prop where
  store : c.store = (Store.withExpiry expiry).after calls
  written : Store.written calls = returned.map fun r => (r.1.gatewayId, r.2)
  successes : c.statistics.fetchSuccesses = returned.countP (·.2.isOk)
  failures : c.statistics.fetchFailures = returned.countP (!·.2.isOk)
  total : c.statistics.fetchSuccesses + c.statistics.fetchFailures = returned.length

structure ReadsCounted (reads : Nat) (replies : List Info) : Prop where
  total : c.statistics.hits + c.statistics.misses = reads
  refreshes : c.statistics.refreshes = replies.countP (·.needsRefresh)
  entries : ∃ known : List String, known.Nodup ∧ (∀ g, g ∈ known ↔ c.store.contains g = true) ∧
    c.statistics.totalEntries = known.length

end

section

variable (burst : Nat) (expiry : Option Nat) (moves : List Move)

theorem fetchesPlaced_after :
    let first := start burst expiry
    FetchesPlaced (first.after moves) (first.returned moves) (first.cancellations moves)
      (moves.countP Move.isRequest) := by
  intro first
  have refreshes := (counted_after burst expiry moves).refreshes
  have issued : (first.after moves).issued =
      moves.countP Move.isRequest + (first.after moves).statistics.refreshes :=
    (issued_after burst expiry moves).trans (congrArg _ refreshes.symm)
  have once := fates_after burst expiry moves
  have length_eq := once.length_eq
  simp only [List.length_append, List.length_map, List.length_range] at length_eq
  exact ⟨by rw [← issued, ← length_eq], once⟩

theorem lookupsPermitted_after :
    let first := start burst expiry
    LookupsPermitted (first.after moves) (first.lookedUp moves) (first.returned moves)
      (first.cancellations moves) burst (first.acquireMoves moves) := by
  intro first
  let full := Limiter.Acquires.full burst
  let acquires := first.acquireMoves moves
  have fetches : FetchesCounted (first.after moves) (first.lookedUp moves) (first.landings moves)
      (first.cancellations moves) := fetchesCounted burst expiry moves
  obtain ⟨tracked, acquired⟩ : Tracks (first.after moves) (full.after acquires) ∧
      first.lookedUp moves = full.completions acquires := tracks burst expiry moves
  have permits : (full.after acquires).limiter.permits + (full.completions acquires).length =
      burst + (full.answers acquires).count true := Limiter.permits_after full acquires
  have inTurn : (full.after acquires).InTurn (full.grants acquires) (full.completions acquires) :=
    Limiter.InTurn.after burst acquires
  rw [tracked.limiter, ← acquired, ← fetches.counted] at permits
  have placed := fetches.lookups
  rw [← map_ticket_returned] at placed
  exact ⟨fetches.counted, acquired ▸ inTurn.usedOnce, acquired, permits.symm, placed⟩

theorem outcomesStored_after :
    let first := start burst expiry
    OutcomesStored (first.after moves) (first.returned moves) expiry (first.calls moves) := by
  intro first
  have counted : (first.after moves).store.Counted (first.replies moves)
      ((first.returned moves).map fun r => (r.1.gatewayId, r.2)) := counted_after burst expiry moves
  have successes : (first.after moves).statistics.fetchSuccesses =
      (first.returned moves).countP (·.2.isOk) := counted.successes.trans List.countP_map
  have failures : (first.after moves).statistics.fetchFailures =
      (first.returned moves).countP (!·.2.isOk) := counted.failures.trans List.countP_map
  refine ⟨store_after first moves, first.written_calls moves, successes, failures, ?_⟩
  rw [successes, failures, List.length_eq_countP_add_countP (·.2.isOk)]
  simp

theorem readsCounted_after :
    let first := start burst expiry
    ReadsCounted (first.after moves) (moves.countP Move.isRead) (first.replies moves) := by
  intro first
  have counted := counted_after burst expiry moves
  exact ⟨counted.reads.trans (first.length_replies moves), counted.refreshes,
    (first.after moves).totalEntries_eq⟩

end

/-- Everything that happens in a run is accounted for exactly once. The counts are natural numbers
here, so this is about the runs in which none of them wraps around. -/
theorem fetches_and_reads_accounted (burst : Nat) (expiry : Option Nat) (moves : List Move) :
    let first := start burst expiry
    let c := first.after moves
    let returned := first.returned moves
    let cancelled := first.cancellations moves
    c.FetchesPlaced returned cancelled (moves.countP Move.isRequest) ∧
      c.LookupsPermitted (first.lookedUp moves) returned cancelled burst
        (first.acquireMoves moves) ∧
      c.OutcomesStored returned expiry (first.calls moves) ∧
      c.ReadsCounted (moves.countP Move.isRead) (first.replies moves) :=
  ⟨fetchesPlaced_after burst expiry moves, lookupsPermitted_after burst expiry moves,
    outcomesStored_after burst expiry moves, readsCounted_after burst expiry moves⟩

end GatewayEnrichment.Cache
