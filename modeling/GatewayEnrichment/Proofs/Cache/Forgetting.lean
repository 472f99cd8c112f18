import GatewayEnrichment.Proofs.Cache.Moves

/-! Forgetting a gateway. A disconnect removes what is known of a gateway but does not stop the
fetches of it that are under way, and the outcome of such a fetch makes the gateway known again.
Until one of them ends with an answer, the gateway stays forgotten. -/

namespace GatewayEnrichment.Cache

def Move.requests (g : String) : Move → Bool
  | .event (.connect m) _ => m.gatewayId = g
  | .fetch id => id = g
  | _ => false

theorem Move.requests_of_issue {m : Move} {purpose : Purpose} {id : String}
    (h : m.action = .issue purpose id) : m.requests id = true := by
  cases m with
  | event e now =>
    cases e with
    | connect => cases h; exact decide_eq_true rfl
    | disconnect | uplink | status => cases h
  | fetch => cases h; exact decide_eq_true rfl
  | _ => cases h

structure IsForgotten (c : Cache) (g : String) : Prop where
  read : ∀ now, (c.read g now).1 = {}
  entries : (c.remove g).2.statistics.totalEntries = c.statistics.totalEntries

def inFlight (c : Cache) (g : String) : List Ticket :=
  (c.fetches.filter (·.gatewayId = g)).map (·.ticket)

def landings (c : Cache) : List Move → List Fetch
  | [] => []
  | m :: moves => (c.landing? m.action).toList ++ (c.move m).landings moves

variable {c : Cache} {g : String}

theorem isForgotten_iff : c.IsForgotten g ↔ c.store.entries.get? g = none := by
  constructor
  · intro h
    exact (ByGateway.size_erase_eq_iff _ _).mp h.entries
  · intro h
    refine ⟨fun now => ?_, (ByGateway.size_erase_eq_iff _ _).mpr h⟩
    have hg : (c.store.get g now).1 = {} := by rw [Store.get, h]
    exact hg

/-- Nothing is known of the gateway, and its fetches are among the given ones. -/
structure Gone (c : Cache) (g : String) (late : List Ticket) : Prop where
  entry : c.store.entries.get? g = none
  fetches : ∀ f ∈ c.fetches, f.gatewayId = g → f.ticket ∈ late

namespace Gone

variable {late : List Ticket} {m : Move}

theorem gatewayId_ne_of_issued (h : c.Gone g late) (hm : m.requests g = false) {f : Fetch}
    (hf : c.issued? m.action = some f) : f.gatewayId ≠ g := by
  rintro rfl
  -- only a read of a known gateway could issue a fetch unasked
  rcases action_of_issued hf with ⟨purpose, ha⟩ | ⟨now, -, hr⟩
  · rw [Move.requests_of_issue ha] at hm
    cases hm
  · rw [Store.get, h.entry] at hr
    cases hr

theorem entry_move (h : c.Gone g late) (hl : ∀ f, c.landing? m.action = some f → f.ticket ∉ late) :
    (c.move m).store.entries.get? g = none := by
  rw [move_eq_step, store_step]
  generalize m.action = a at hl ⊢
  cases a with
  | complete t answer now =>
    rw [storeCall?]
    cases hf : c.landing? (.complete t answer now) with
    | none => exact h.entry
    | some f =>
      -- every fetch of the gateway is a late one, and late ones do not land
      have hne : g ≠ f.gatewayId := by
        intro he
        exact hl f hf (h.fetches f (mem_fetches_of_landing hf) he.symm)
      have hs := Store.get?_setOutcome_of_ne c.store hne (outcome f.gatewayId answer) now
      rw [← serve_storing, h.entry] at hs
      exact hs
  | read id now =>
    have hs := Store.get?_get c.store id g now
    rw [h.entry] at hs
    refine hs.trans (ite_eq_right_iff.mpr fun hid => ?_)
    rw [← hid.1, h.entry]
    rfl
  | remove id =>
    have hs := Store.get?_remove c.store id g
    rw [h.entry, ite_self] at hs
    exact hs
  | issue | poll | cancel | refill => exact h.entry

theorem move (h : c.Gone g late) (hm : m.requests g = false)
    (hl : ∀ f, c.landing? m.action = some f → f.ticket ∉ late) : (c.move m).Gone g late := by
  refine ⟨h.entry_move hl, ?_⟩
  intro f hf hg
  rw [move_eq_step] at hf
  rcases mem_fetches_step hf with hi | ⟨f', hf', ht, hid⟩
  · exact absurd hg (h.gatewayId_ne_of_issued hm hi)
  · rw [← ht]
    exact h.fetches f' hf' (hid.trans hg)

theorem after (h : c.Gone g late) {moves : List Move} (hm : ∀ m ∈ moves, m.requests g = false)
    (hl : ∀ f ∈ c.landings moves, f.ticket ∉ late) : (c.after moves).Gone g late := by
  induction moves generalizing c with
  | nil => exact h
  | cons m moves ih =>
    simp only [landings, List.mem_append, Option.mem_toList] at hl
    have hs : (c.move m).Gone g late := h.move (hm m List.mem_cons_self) fun f hf => hl f (.inl hf)
    have hm' : ∀ m' ∈ moves, m'.requests g = false := fun m' h' => hm m' (List.mem_cons_of_mem m h')
    exact ih hs hm' fun f hf => hl f (.inr hf)

end Gone

theorem gone_of_disconnect (c : Cache) (g : String) (now : Nat) :
    (c.move (.event (.disconnect ⟨g⟩) now)).Gone g (c.inFlight g) := by
  refine ⟨(Store.get?_remove c.store g g).trans (if_pos rfl), ?_⟩
  intro f hf hg
  exact List.mem_map.mpr ⟨f, List.mem_filter.mpr ⟨hf, decide_eq_true hg⟩, rfl⟩

/-- What the fetches of a gateway under way at its disconnect bring decides whether it stays
forgotten, as long as no further fetch of it is asked for. -/
theorem forgotten_until_landing (burst : Nat) (expiry : Option Nat) (before : List Move)
    (now : Nat) (moves : List Move) (g : String) (quiet : ∀ m ∈ moves, m.requests g = false) :
    let c := (start burst expiry).after (before ++ [.event (.disconnect ⟨g⟩) now])
    ((∀ f ∈ c.landings moves, f.ticket ∉ c.inFlight g) → (c.after moves).IsForgotten g) ∧
      ((c.after moves).IsForgotten g ↔ (c.history moves).writes g = []) := by
  intro c
  have hc : c = ((start burst expiry).after before).move (.event (.disconnect ⟨g⟩) now) :=
    after_concat _ _ _
  constructor
  · intro hl
    have hg : c.Gone g (c.inFlight g) := by
      rw [hc]
      exact gone_of_disconnect _ g now
    exact isForgotten_iff.mpr (hg.after quiet hl).entry
  · have hf :=
      (follows_history burst expiry (before ++ [.event (.disconnect ⟨g⟩) now] ++ moves)).entry g
    rw [isForgotten_iff, ← after_append, hf, Store.History.entry_eq_none_iff, history_append,
      history_append]
    exact iff_of_eq (congrArg (· = []) (Store.History.writes_append_remove _ _ g _))

theorem forgotten_after_cancelled_fetch :
    (((start 1 none).after
        ([.event (.connect ⟨"gw1"⟩) 0, .poll 0 0] ++ [.event (.disconnect ⟨"gw1"⟩) 1])).after
      [.event (.uplink { gatewayId := "gw1" }) 2, .fetch "gw2", .cancel 0, .refill,
        .poll 1 3]).IsForgotten "gw1" :=
  (forgotten_until_landing 1 none [.event (.connect ⟨"gw1"⟩) 0, .poll 0 0] 1
    [.event (.uplink { gatewayId := "gw1" }) 2, .fetch "gw2", .cancel 0, .refill, .poll 1 3]
    "gw1" (by decide)).1 (by decide)

/-- A fetch that ends after the disconnect brings the gateway back. -/
theorem known_again_after_disconnect :
    (∀ m ∈ [Move.complete 0 (.ok { id := "gw1" }) 2], m.requests "gw1" = false) ∧
      ¬ (((start 1 none).after
          ([.event (.connect ⟨"gw1"⟩) 0, .poll 0 0] ++ [.event (.disconnect ⟨"gw1"⟩) 1])).after
        [.complete 0 (.ok { id := "gw1" }) 2]).IsForgotten "gw1" := by
  rw [isForgotten_iff]
  decide

end GatewayEnrichment.Cache
