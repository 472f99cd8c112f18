import GatewayEnrichment.Proofs.Limiter.Acquires
import GatewayEnrichment.Proofs.Prefixes

/-! How full the pool of a limiter gets. A refill looks at the pool alone and leaves out the permits
that were handed over and not yet used. Such a permit comes back when its acquire is dropped, also
into a pool that is full by then, and in no other way does the pool exceed the burst. -/

namespace GatewayEnrichment.Limiter

/-- The permit that an acquire gives up finds the pool full and nobody waiting. -/
structure Spills (l : Limiter) (t : Ticket) : Prop where
  handed : t ∈ l.handed
  unclaimed : l.waiting = []
  full : l.burst ≤ l.available

variable {l : Limiter} {t : Ticket}

theorem available_tryRefill_le (h : l.available ≤ l.burst) :
    l.tryRefill.2.available ≤ l.burst := by
  rw [tryRefill]
  split
  · exact h
  · next hf =>
    have hp : l.available < l.burst := Nat.lt_of_not_le hf
    rw [available_putBack]
    split <;> omega

theorem available_withdraw_le_iff (h : l.available ≤ l.burst) :
    (l.withdraw t).available ≤ l.burst ↔ ¬ l.Spills t := by
  rw [available_withdraw]
  constructor
  · intro hw hs
    rw [if_pos ⟨hs.handed, hs.unclaimed⟩] at hw
    have hf : l.burst ≤ l.available := hs.full
    omega
  · intro hs
    split
    · next hw =>
      have hf : ¬ l.burst ≤ l.available := fun hf => hs ⟨hw.1, hw.2, hf⟩
      omega
    · exact h

theorem available_move_le_iff {a : Acquires} {m : Move}
    (h : a.limiter.available ≤ a.limiter.burst) :
    (a.move m).limiter.available ≤ a.limiter.burst ↔
      ∀ t, m = .drop t → ¬ a.limiter.Spills t := by
  cases m with
  | poll t =>
    refine iff_of_true ?_ (fun _ ht => by cases ht)
    rw [Acquires.move]
    split
    · exact h
    · split
      · exact Nat.le_trans (Nat.le_of_eq (available_collect _ t)) h
      · exact Nat.le_trans (available_request_le _ t) h
  | drop t =>
    refine (available_withdraw_le_iff h).trans ⟨?_, fun hs => hs t rfl⟩
    intro hs t' ht
    cases ht
    exact hs
  | refill => exact iff_of_true (available_tryRefill_le h) (fun _ ht => by cases ht)

/-- The pool stays within the burst all along a run if and only if no acquire is dropped while it
holds a permit that would spill. -/
theorem available_le_burst_iff (burst : Nat) (moves : List Move) :
    (∀ past, past <+: moves → ((Acquires.full burst).after past).limiter.available ≤ burst) ↔
      ∀ past t, past ++ [.drop t] <+: moves →
        ¬ ((Acquires.full burst).after past).limiter.Spills t := by
  have hstep : ∀ past m, ((Acquires.full burst).after past).limiter.available ≤ burst →
      (((Acquires.full burst).after (past ++ [m])).limiter.available ≤ burst ↔
        ∀ t, m = .drop t → ¬ ((Acquires.full burst).after past).limiter.Spills t) := by
    intro past m h
    have hb : ((Acquires.full burst).after past).limiter.burst = burst := burst_after _ past
    have hm := available_move_le_iff (m := m) (Nat.le_trans h (Nat.le_of_eq hb.symm))
    rwa [hb, ← Acquires.after_concat] at hm
  refine (forall_prefix_iff (Nat.le_refl burst) hstep moves).trans ⟨?_, ?_⟩
  · intro h past t ht
    exact h past _ ht t rfl
  · rintro h past m hm t rfl
    exact h past t hm

-- Two refills find the pool empty while an acquire has not picked its permit up, and then that
-- acquire is dropped.
example :
    ((Acquires.full 1).after [.poll 0, .poll 1, .refill, .refill, .drop 1]).limiter.available =
      2 := by
  decide

end GatewayEnrichment.Limiter
