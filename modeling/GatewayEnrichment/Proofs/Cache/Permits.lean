import GatewayEnrichment.Proofs.Cache.Fetches
import GatewayEnrichment.Proofs.Limiter.Grants

/-! What the fetches of a cache do at its limiter. Each fetch is one acquire, under the same ticket,
and its lookup starts when that acquire completes. So whatever holds of every run of acquires holds
of the limiter of a cache, and the lookups that have started are the acquires that have
completed. -/

namespace GatewayEnrichment.Cache

/-- The move that an action makes at the limiter. A fetch that is cancelled before it has asked for
a permit or after it has used one makes none. -/
def acquireMove? (c : Cache) : Action → Option Limiter.Move
  | .poll t _ =>
    match c.fetch? t with
    | some f => if f.stage.isLooking then none else some (.poll t)
    | none => none
  | .cancel t =>
    match c.fetch? t with
    | some f => if f.stage = .queued then some (.drop t) else none
    | none => none
  | .refill => some .refill
  | _ => none

def acquireMoves (c : Cache) (moves : List Move) : List Limiter.Move :=
  along move (fun c m => (c.acquireMove? m.action).toList) c moves

/-- The acquires are those of the fetches: none before its fetch was polled, and none dropped while
its fetch goes on. -/
structure Tracks (c : Cache) (a : Limiter.Acquires) : Prop where
  limiter : a.limiter = c.limiter
  unpolled : ∀ f ∈ c.fetches, f.stage = .issued → f.ticket ∉ a.polled
  polled : ∀ f ∈ c.fetches, f.stage = .queued → f.ticket ∈ a.polled
  live : ∀ f ∈ c.fetches, f.ticket ∉ a.dropped
  known : ∀ t, t ∈ a.polled ∨ t ∈ a.dropped → t < c.issued

def Mirrored (c : Cache) (a : Limiter.Acquires) (x : Action) : Prop :=
  Tracks (c.step x) (a.after (c.acquireMove? x).toList) ∧
    c.started x = a.completions (c.acquireMove? x).toList

theorem mem_fetches_setStage {c : Cache} {t : Ticket} {stage : Stage} {f : Fetch}
    (hf : f ∈ (c.setStage t stage).fetches) :
    (∃ g ∈ c.fetches, g.ticket = f.ticket) ∧
      (f.ticket = t ∧ f.stage = stage ∨ f.ticket ≠ t ∧ f ∈ c.fetches) := by
  obtain ⟨g, hg, rfl⟩ := List.mem_map.mp hf
  by_cases hgt : g.ticket = t
  · rw [if_pos hgt]
    exact ⟨⟨g, hg, rfl⟩, .inl ⟨hgt, rfl⟩⟩
  · rw [if_neg hgt]
    exact ⟨⟨g, hg, rfl⟩, .inr ⟨hgt, hg⟩⟩

namespace Tracks

theorem start (burst : Nat) (expiry : Option Nat) :
    Tracks (start burst expiry) (.full burst) where
  limiter := rfl
  unpolled _ hf := absurd hf List.not_mem_nil
  polled _ hf := absurd hf List.not_mem_nil
  live _ hf := absurd hf List.not_mem_nil
  known _ ht := absurd ht (by simp [Limiter.Acquires.full])

variable {c c' : Cache} {a a' : Limiter.Acquires} (h : Tracks c a)

include h

theorem fewer (hl : c'.limiter = c.limiter) (hf : c'.fetches ⊆ c.fetches)
    (hi : c'.issued = c.issued) : Tracks c' a where
  limiter := h.limiter.trans hl.symm
  unpolled f hm := h.unpolled f (hf hm)
  polled f hm := h.polled f (hf hm)
  live f hm := h.live f (hf hm)
  known t ht := hi ▸ h.known t ht

theorem issue {f : Fetch} (ht : f.ticket = c.issued) (hs : f.stage = .issued)
    (hl : c'.limiter = c.limiter) (hf : c'.fetches = c.fetches ++ [f])
    (hi : c'.issued = c.issued + 1) : Tracks c' a := by
  have fresh : ∀ t, t ∈ a.polled ∨ t ∈ a.dropped → t ≠ f.ticket := by
    intro t hk he
    exact absurd (he.trans ht) (Nat.ne_of_lt (h.known t hk))
  have old_or_new : ∀ g ∈ c'.fetches, g ∈ c.fetches ∨ g = f := by
    intro g hg
    rw [hf] at hg
    exact (List.mem_append.mp hg).imp_right List.mem_singleton.mp
  refine ⟨h.limiter.trans hl.symm, ?_, ?_, ?_, ?_⟩
  · rintro g hg hgs
    rcases old_or_new g hg with hg | rfl
    · exact h.unpolled g hg hgs
    · exact fun hp => fresh _ (.inl hp) rfl
  · rintro g hg hgs
    rcases old_or_new g hg with hg | rfl
    · exact h.polled g hg hgs
    · rw [hs] at hgs
      cases hgs
  · rintro g hg
    rcases old_or_new g hg with hg | rfl
    · exact h.live g hg
    · exact fun hd => fresh _ (.inr hd) rfl
  · intro t hk
    rw [hi]
    exact Nat.lt_succ_of_lt (h.known t hk)

theorem advance {t : Ticket} (stage : Stage) (ht : t ∈ c.tickets) (hs : stage ≠ .issued)
    (hc : ∀ t', t' ∈ a'.polled ↔ t' = t ∨ t' ∈ a.polled) (hd : a'.dropped = a.dropped)
    (hl : a'.limiter = c'.limiter) (hf : c'.fetches = (c.setStage t stage).fetches)
    (hi : c'.issued = c.issued) (hlt : t < c.issued) : Tracks c' a' := by
  refine ⟨hl, ?_, ?_, ?_, ?_⟩
  · intro f hm hfs
    rw [hf] at hm
    rcases (mem_fetches_setStage hm).2 with ⟨-, hst⟩ | ⟨hne, hm⟩
    · exact absurd (hst.symm.trans hfs) hs
    · rw [hc]
      exact not_or.mpr ⟨hne, h.unpolled f hm hfs⟩
  · intro f hm hfs
    rw [hf] at hm
    rw [hc]
    rcases (mem_fetches_setStage hm).2 with ⟨he, -⟩ | ⟨-, hm⟩
    · exact .inl he
    · exact .inr (h.polled f hm hfs)
  · intro f hm
    rw [hf] at hm
    obtain ⟨g, hg, he⟩ := (mem_fetches_setStage hm).1
    rw [hd, ← he]
    exact h.live g hg
  · intro t' ht'
    rw [hi]
    rw [hc, hd, or_assoc] at ht'
    rcases ht' with rfl | ht'
    · exact hlt
    · exact h.known t' ht'

omit h in
theorem mirrored_iff_move {x : Action} {m : Limiter.Move} (hm : c.acquireMove? x = some m) :
    c.Mirrored a x ↔ Tracks (c.step x) (a.move m) ∧ c.started x = (a.completed? m).toList := by
  have hc : a.completions [m] = (a.completed? m).toList := List.append_nil _
  rw [Mirrored, hm, Option.toList_some, hc]
  rfl

theorem rests {x : Action} (hm : c.acquireMove? x = none) (hs : c.step x = c) :
    c.Mirrored a x := by
  have hn : c.started x = [] := started_eq_nil (by rw [hs]; exact List.Subset.refl _)
  rw [Mirrored, hm, hs, hn]
  exact ⟨h, rfl⟩

section

variable {looked : List Ticket} {landed cancelled : List Fetch}
  (hc : FetchesCounted c looked landed cancelled)

include hc

theorem looks {f : Fetch} {now : Nat} (hm : f ∈ c.fetches) (hs : f.stage.isLooking = false)
    (hmove : c.acquireMove? (.poll f.ticket now) = some (.poll f.ticket))
    (ha : a.move (.poll f.ticket) = a')
    (hpoll : c.poll f.ticket now = { c with limiter := a'.limiter }.startLookup f.ticket now)
    (hpolled : ∀ t, t ∈ a'.polled ↔ t = f.ticket ∨ t ∈ a.polled)
    (hdropped : a'.dropped = a.dropped)
    (hcompleted : (a.completed? (.poll f.ticket)).toList = [f.ticket]) :
    c.Mirrored a (.poll f.ticket now) := by
  have ht : f.ticket ∈ c.tickets := List.mem_map_of_mem hm
  have hn : f.ticket ∉ c.inLookup := by simp [ticket_mem_inLookup hc.nodup_tickets hm, hs]
  have hf : (c.step (.poll f.ticket now)).fetches =
      (c.setStage f.ticket (.looking now)).fetches := by
    rw [Cache.step, hpoll]
    rfl
  rw [mirrored_iff_move hmove, ha, hcompleted, started_of_lookUp now hc.nodup_tickets ht hn hf,
    Cache.step, hpoll]
  exact
    ⟨h.advance (.looking now) ht (by rintro ⟨⟩) hpolled hdropped rfl rfl rfl (hc.ticket_lt ht), rfl⟩

theorem poll (t : Ticket) (now : Nat) : c.Mirrored a (.poll t now) := by
  cases hf : c.fetch? t with
  | none => exact h.rests (by rw [acquireMove?, hf]) (poll_of_none hf now)
  | some f =>
    obtain ⟨hm, rfl⟩ := fetch?_eq_some hf
    have ht : f.ticket ∈ c.tickets := List.mem_map_of_mem hm
    have hd : f.ticket ∉ a.dropped := h.live f hm
    cases hs : f.stage with
    | issued =>
      have hk : f.stage.isLooking = false := by rw [hs]; rfl
      have hp : f.ticket ∉ a.polled := h.unpolled f hm hs
      have hmove : c.acquireMove? (.poll f.ticket now) = some (.poll f.ticket) := by
        simp [acquireMove?, hf, hk]
      have ha := Limiter.Acquires.move_poll_first hd hp
      have hcompleted := Limiter.Acquires.completed_poll_first hd hp
      have hpoll := poll_of_issued hf now hs
      have hpolled : ∀ t, t ∈ a.polled ++ [f.ticket] ↔ t = f.ticket ∨ t ∈ a.polled := by
        simp [or_comm]
      rw [← h.limiter] at hpoll
      cases hr : (a.limiter.request f.ticket).1 with
      | true =>
        rw [hr, if_pos rfl] at hpoll hcompleted
        exact h.looks hc hm hk hmove ha hpoll hpolled rfl hcompleted
      | false =>
        rw [hr, if_neg Bool.false_ne_true] at hpoll hcompleted
        have hn : f.ticket ∉ c.inLookup := by simp [ticket_mem_inLookup hc.nodup_tickets hm, hk]
        have hq := inLookup_setStage_queued_perm hc.nodup_tickets hn
        have hnone : c.started (.poll f.ticket now) = [] :=
          started_eq_nil (by rw [Cache.step, hpoll]; exact hq.subset)
        rw [mirrored_iff_move hmove, ha, hcompleted, hnone, Cache.step, hpoll]
        exact ⟨h.advance .queued ht (by rintro ⟨⟩) hpolled rfl rfl rfl rfl (hc.ticket_lt ht), rfl⟩
    | queued =>
      have hk : f.stage.isLooking = false := by rw [hs]; rfl
      have hp : f.ticket ∈ a.polled := h.polled f hm hs
      have hmove : c.acquireMove? (.poll f.ticket now) = some (.poll f.ticket) := by
        simp [acquireMove?, hf, hk]
      have ha := Limiter.Acquires.move_poll_again hd hp
      have hcompleted := Limiter.Acquires.completed_poll_again hd hp
      have hpoll := poll_of_queued hf now hs
      have hpolled : ∀ t, t ∈ a.polled ↔ t = f.ticket ∨ t ∈ a.polled := by
        intro t
        exact ⟨.inr, fun ht => ht.elim (fun he => he ▸ hp) id⟩
      rw [← h.limiter] at hpoll
      cases hr : (a.limiter.collect f.ticket).1 with
      | true =>
        rw [hr, if_pos rfl] at hpoll hcompleted
        exact h.looks hc hm hk hmove ha hpoll hpolled rfl hcompleted
      | false =>
        rw [hr, if_neg Bool.false_ne_true] at hpoll hcompleted
        have hnone : c.started (.poll f.ticket now) = [] :=
          started_eq_nil (by rw [Cache.step, hpoll]; exact List.Subset.refl _)
        rw [mirrored_iff_move hmove, ha, hcompleted, hnone, Cache.step, hpoll,
          Limiter.collect_of_not_ready hr]
        exact ⟨h, rfl⟩
    | looking since =>
      have hk : f.stage.isLooking := by rw [hs]; rfl
      exact h.rests (by simp [acquireMove?, hf, hk]) (poll_of_isLooking hf now hk)

end

theorem cancel (t : Ticket) :
    Tracks (c.step (.cancel t)) (a.after (c.acquireMove? (.cancel t)).toList) := by
  rw [acquireMove?, Cache.step]
  cases hf : c.fetch? t with
  | none =>
    rw [cancel_of_none hf]
    exact h
  | some f =>
    have hl := h.limiter
    have hc := cancel_eq hf
    have hs : (c.drop t).fetches ⊆ c.fetches := fun _ hg => List.mem_of_mem_filter hg
    obtain ⟨hm, rfl⟩ := fetch?_eq_some hf
    by_cases hq : f.stage = .queued
    · rw [if_pos hq] at hc
      have hd : Tracks (c.drop f.ticket) a := h.fewer rfl hs rfl
      simp only [hq, if_true, Option.toList_some, hc]
      refine ⟨congrArg (Limiter.withdraw · f.ticket) hl, hd.unpolled, hd.polled, ?_, ?_⟩
      · intro g hg hgd
        rcases List.mem_append.mp hgd with hgd | hgd
        · exact h.live g (hs hg) hgd
        · exact of_decide_eq_true (List.mem_filter.mp hg).2 (List.mem_singleton.mp hgd)
      · rintro t (ht | ht)
        · exact h.known t (.inl ht)
        · rcases List.mem_append.mp ht with ht | ht
          · exact h.known t (.inr ht)
          · rw [List.mem_singleton.mp ht]
            exact h.known f.ticket (.inl (h.polled f hm hq))
    · rw [if_neg hq] at hc
      simp only [hq, if_false, Option.toList_none, hc]
      exact h.fewer rfl hs rfl

theorem step {looked : List Ticket} {landed cancelled : List Fetch}
    (hc : FetchesCounted c looked landed cancelled) (x : Action) : c.Mirrored a x := by
  by_cases hp : ∃ t now, x = .poll t now
  · obtain ⟨t, now, rfl⟩ := hp
    exact h.poll hc t now
  · have hx : ∀ t now, x ≠ .poll t now := fun t now he => hp ⟨t, now, he⟩
    rw [Mirrored, started_of_ne_poll hx]
    cases x with
    | poll t now => exact absurd rfl (hx t now)
    | cancel t =>
      refine ⟨h.cancel t, ?_⟩
      rw [acquireMove?]
      split
      · split <;> rfl
      · rfl
    | issue purpose id =>
      exact ⟨h.issue (f := ⟨c.issued, id, purpose, .issued⟩) rfl rfl rfl rfl rfl, rfl⟩
    | complete t answer now =>
      refine ⟨?_, rfl⟩
      rw [Cache.step, complete_eq]
      split
      · exact h.fewer rfl (fun _ hg => List.mem_of_mem_filter hg) rfl
      · exact h
    | read id now =>
      refine ⟨?_, rfl⟩
      rw [Cache.step, read_eq]
      split
      · exact h.issue (f := ⟨c.issued, id, .refresh, .issued⟩) rfl rfl rfl rfl rfl
      · exact h.fewer rfl (List.Subset.refl _) rfl
    | refill =>
      have hl : a.limiter.tryRefill.2 = c.limiter.tryRefill.2 := congrArg (·.tryRefill.2) h.limiter
      exact ⟨⟨hl, h.unpolled, h.polled, h.live, h.known⟩, rfl⟩
    | remove id => exact ⟨h.fewer rfl (List.Subset.refl _) rfl, rfl⟩

end Tracks

/-- The limiter of a cache after a run is the limiter after the acquires of its fetches, and the
lookups that have started are the acquires that have completed. -/
theorem tracks (burst : Nat) (expiry : Option Nat) (moves : List Move) :
    let first := start burst expiry
    Tracks (first.after moves) ((Limiter.Acquires.full burst).after (first.acquireMoves moves)) ∧
      first.lookedUp moves =
        (Limiter.Acquires.full burst).completions (first.acquireMoves moves) := by
  intro first
  induction moves using List.reverseRecOn with
  | nil => exact ⟨.start burst expiry, rfl⟩
  | append_singleton moves m ih =>
    obtain ⟨ht, hl⟩ := ih
    have hs := ht.step (fetchesCounted burst expiry moves) m.action
    have hm : first.acquireMoves (moves ++ [m]) =
        first.acquireMoves moves ++ ((first.after moves).acquireMove? m.action).toList :=
      along_concat _ _ _ _ _
    have hk : first.lookedUp (moves ++ [m]) =
        first.lookedUp moves ++ (first.after moves).started m.action := along_concat _ _ _ _ _
    have ha : (Limiter.Acquires.full burst).after
          (first.acquireMoves moves ++ ((first.after moves).acquireMove? m.action).toList) =
        ((Limiter.Acquires.full burst).after (first.acquireMoves moves)).after
          ((first.after moves).acquireMove? m.action).toList := List.foldl_append
    rw [after_concat, move_eq_step, hm, hk, hs.2, hl, ha]
    exact ⟨hs.1, (along_append _ _ _ _ _).symm⟩

/-! A lookup needs a permit, and permits come from the start and from refills alone. -/

def Move.isRefill : Move → Bool
  | .refill => true
  | _ => false

theorem count_refill_acquireMoves (c : Cache) (moves : List Move) :
    (c.acquireMoves moves).count .refill = moves.countP Move.isRefill := by
  induction moves generalizing c with
  | nil => rfl
  | cons m moves ih =>
    have hm : (c.acquireMove? m.action).toList.count .refill = [m].countP Move.isRefill := by
      cases m with
      | event e now => cases e <;> rfl
      | poll t now =>
        rw [Move.action, acquireMove?]
        split
        · split <;> rfl
        · rfl
      | cancel t =>
        rw [Move.action, acquireMove?]
        split
        · split <;> rfl
        · rfl
      | _ => rfl
    rw [acquireMoves, along, ← List.singleton_append, List.count_append, List.countP_append, hm]
    exact congrArg _ (ih (c.move m))

theorem lookups_le_refills (burst : Nat) (expiry : Option Nat) (moves : List Move) :
    ((start burst expiry).after moves).lookups ≤ burst + moves.countP Move.isRefill := by
  let full := Limiter.Acquires.full burst
  let acquires := (start burst expiry).acquireMoves moves
  have looked : ((start burst expiry).after moves).lookups =
      (full.completions acquires).length := by
    rw [(fetchesCounted burst expiry moves).counted, (tracks burst expiry moves).2]
  have permits : (full.after acquires).limiter.permits + (full.completions acquires).length =
      burst + (full.answers acquires).count true := Limiter.permits_after full acquires
  have added : (full.answers acquires).count true ≤ moves.countP Move.isRefill := by
    rw [← count_refill_acquireMoves (start burst expiry)]
    exact Limiter.count_answers_le full acquires
  omega

end GatewayEnrichment.Cache
