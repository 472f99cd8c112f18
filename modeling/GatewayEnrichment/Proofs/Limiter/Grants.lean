import GatewayEnrichment.Proofs.Limiter.Acquires
import GatewayEnrichment.Proofs.Prefixes
import Mathlib.Data.List.Nodup

/-! Where the permits of a limiter go. A permit that was there at the start or that a refill has
added is in the pool, or was handed to an acquire that has not used it yet, or was used by an
acquire that has completed. The acquires get their permits in the order in which they were first
polled; one that is dropped while it waits is passed over, and a permit that it held goes to the
next in the queue. -/

namespace GatewayEnrichment.Limiter

namespace Acquires

variable (a : Acquires)

def completed? : Move → Option Ticket
  | .poll t =>
    let ready := if t ∈ a.polled then (a.limiter.collect t).1 else (a.limiter.request t).1
    if t ∉ a.dropped ∧ ready then some t else none
  | _ => none

def answer? : Move → Option Bool
  | .refill => some a.limiter.tryRefill.1
  | _ => none

/-- The acquires that have a permit through a move and did not have one before: one that completes
without having been handed a permit, and those in the queue that hold one after the move. -/
def granted (m : Move) : List Ticket :=
  (a.completed? m).toList.filter (· ∉ a.limiter.handed) ++
    a.limiter.waiting.filter (· ∈ (a.move m).limiter.handed)

def completions (moves : List Move) : List Ticket :=
  along move (fun a m => (a.completed? m).toList) a moves

def answers (moves : List Move) : List Bool :=
  along move (fun a m => (a.answer? m).toList) a moves

def grants (moves : List Move) : List Ticket := along move granted a moves

/-! An acquire that has not been polled yet asks for a permit, and one that has looks whether it was
handed one. -/

section

variable {a} {t : Ticket} (hd : t ∉ a.dropped)

include hd

theorem move_poll_first (hp : t ∉ a.polled) :
    a.move (.poll t) =
      { a with limiter := (a.limiter.request t).2, polled := a.polled ++ [t] } := by
  rw [move, if_neg hd, if_neg hp]

theorem completed_poll_first (hp : t ∉ a.polled) :
    (a.completed? (.poll t)).toList = if (a.limiter.request t).1 then [t] else [] := by
  cases hr : (a.limiter.request t).1 <;> simp [completed?, hd, hp, hr]

theorem move_poll_again (hp : t ∈ a.polled) :
    a.move (.poll t) = { a with limiter := (a.limiter.collect t).2 } := by
  rw [move, if_neg hd, if_pos hp]

theorem completed_poll_again (hp : t ∈ a.polled) :
    (a.completed? (.poll t)).toList = if (a.limiter.collect t).1 then [t] else [] := by
  cases hr : (a.limiter.collect t).1 <;> simp [completed?, hd, hp, hr]

end

end Acquires

/-! No operation makes a permit or loses one, except that a refill adds the permit that it says it
has added, and an acquire that is ready has used one. -/

def permits (l : Limiter) : Nat := l.available + l.handed.length

variable (l : Limiter) (t : Ticket)

theorem permits_request : (l.request t).2.permits + (l.request t).1.toNat = l.permits := by
  unfold request permits available
  split
  · rfl
  · next n hn =>
    rw [hn]
    exact Nat.add_right_comm n _ 1

theorem permits_collect : (l.collect t).2.permits + (l.collect t).1.toNat = l.permits := by
  unfold collect permits available
  split
  · next h =>
    have hl : 0 < l.handed.length := List.length_pos_of_mem h
    simp only [List.length_erase_of_mem h, Bool.toNat_true]
    omega
  · rfl

variable {l t} in
theorem collect_of_not_ready (h : (l.collect t).1 = false) : (l.collect t).2 = l := by
  unfold collect at h ⊢
  split
  · next ht => simp [ht] at h
  · rfl

theorem permits_putBack : l.putBack.permits = l.permits + 1 := by
  unfold putBack permits available
  split
  · exact Nat.add_right_comm l.pool 1 _
  · simp only [List.length_append, List.length_singleton]
    rfl

theorem permits_tryRefill : l.tryRefill.2.permits = l.permits + l.tryRefill.1.toNat := by
  unfold tryRefill
  split
  · rfl
  · exact permits_putBack l

theorem permits_withdraw : (l.withdraw t).permits = l.permits := by
  unfold withdraw
  split
  · next h =>
    have hl : 0 < l.handed.length := List.length_pos_of_mem h
    rw [permits_putBack, permits, permits]
    simp only [List.length_erase_of_mem h, available]
    omega
  · rfl

theorem permits_move (a : Acquires) (m : Move) :
    (a.move m).limiter.permits + (a.completed? m).toList.length =
      a.limiter.permits + (a.answer? m).toList.count true := by
  cases m with
  | poll t =>
    by_cases hd : t ∈ a.dropped
    · simp [Acquires.move, Acquires.completed?, Acquires.answer?, hd]
    · by_cases hp : t ∈ a.polled
      · have hs := permits_collect a.limiter t
        cases hr : (a.limiter.collect t).1 <;>
          simp_all [Acquires.move, Acquires.completed?, Acquires.answer?]
      · have hs := permits_request a.limiter t
        cases hr : (a.limiter.request t).1 <;>
          simp_all [Acquires.move, Acquires.completed?, Acquires.answer?]
  | drop t => exact permits_withdraw a.limiter t
  | refill =>
    have hs := permits_tryRefill a.limiter
    cases hr : a.limiter.tryRefill.1 <;>
      simp_all [Acquires.move, Acquires.completed?, Acquires.answer?]

theorem permits_after (a : Acquires) (moves : List Move) :
    (a.after moves).limiter.permits + (a.completions moves).length =
      a.limiter.permits + (a.answers moves).count true := by
  induction moves generalizing a with
  | nil => rfl
  | cons m moves ih =>
    have hm := permits_move a m
    have hs := ih (a.move m)
    simp only [Acquires.completions, Acquires.answers, along, List.length_append,
      List.count_append] at hs ⊢
    have ha : a.after (m :: moves) = (a.move m).after moves := rfl
    rw [ha]
    omega

theorem count_answers_le (a : Acquires) (moves : List Move) :
    (a.answers moves).count true ≤ moves.count .refill := by
  induction moves generalizing a with
  | nil => exact Nat.le_refl 0
  | cons m moves ih =>
    have hm : (a.answer? m).toList.count true ≤ [m].count .refill := by
      cases m with
      | refill => exact List.count_le_length
      | poll t | drop t => exact Nat.zero_le _
    rw [Acquires.answers, along, List.count_append, ← List.singleton_append, List.count_append]
    exact Nat.add_le_add hm (ih (a.move m))

/-! The acquires that have been given a permit and after them those that wait are all that were ever
polled, in the order of their first polls, except those that were dropped while they waited. -/

structure InTurn (l : Limiter) (polled dropped granted completed : List Ticket) : Prop where
  unclaimed : l.waiting ≠ [] → l.available = 0
  turn : granted ++ l.waiting = polled.filter fun t => t ∈ granted ∨ t ∉ dropped
  held : l.handed = granted.filter fun t => t ∉ completed ∧ t ∉ dropped
  used : completed ⊆ granted
  usedOnce : completed.Nodup
  polledOnce : polled.Nodup

/-- The permits of the acquires are given out in turn. -/
abbrev Acquires.InTurn (a : Acquires) (granted completed : List Ticket) : Prop :=
  Limiter.InTurn a.limiter a.polled a.dropped granted completed

namespace InTurn

variable {l t} {polled dropped granted completed : List Ticket}

theorem full (burst : Nat) : InTurn (.full burst) [] [] [] [] where
  unclaimed h := absurd rfl h
  turn := rfl
  held := rfl
  used := List.Subset.refl []
  usedOnce := List.nodup_nil
  polledOnce := List.nodup_nil

section

variable (h : InTurn l polled dropped granted completed)

include h

theorem nodup_turn : (granted ++ l.waiting).Nodup := by
  rw [h.turn]
  exact h.polledOnce.filter _

theorem mem_turn : t ∈ granted ++ l.waiting ↔ t ∈ polled ∧ (t ∈ granted ∨ t ∉ dropped) := by
  rw [h.turn, List.mem_filter, decide_eq_true_iff]

theorem polled_of_granted (ht : t ∈ granted) : t ∈ polled :=
  (h.mem_turn.mp (List.mem_append_left _ ht)).1

theorem not_granted_of_waiting (ht : t ∈ l.waiting) : t ∉ granted := fun hg =>
  (List.nodup_append.mp h.nodup_turn).2.2 t hg t ht rfl

theorem not_dropped_of_waiting (ht : t ∈ l.waiting) : t ∉ dropped :=
  (h.mem_turn.mp (List.mem_append_right _ ht)).2.resolve_left (h.not_granted_of_waiting ht)

theorem mem_handed : t ∈ l.handed ↔ t ∈ granted ∧ t ∉ completed ∧ t ∉ dropped := by
  rw [h.held, List.mem_filter, decide_eq_true_iff]

theorem not_handed_of_waiting (ht : t ∈ l.waiting) : t ∉ l.handed := fun hh =>
  h.not_granted_of_waiting ht (h.mem_handed.mp hh).1

theorem nodup_handed : l.handed.Nodup := by
  rw [h.held]
  exact (List.nodup_append.mp h.nodup_turn).1.filter _

theorem putBack :
    InTurn l.putBack polled dropped (granted ++ l.waiting.head?.toList) completed := by
  cases hw : l.waiting with
  | nil =>
    simp only [Limiter.putBack, hw, List.head?_nil, Option.toList_none, List.append_nil]
    exact ⟨fun hn => absurd rfl hn, hw ▸ h.turn, h.held, h.used, h.usedOnce, h.polledOnce⟩
  | cons w ws =>
    have hmem : w ∈ l.waiting := hw ▸ List.mem_cons_self
    have hg : w ∉ granted := h.not_granted_of_waiting hmem
    have hd : w ∉ dropped := h.not_dropped_of_waiting hmem
    have hc : w ∉ completed := fun hc => hg (h.used hc)
    simp only [Limiter.putBack, hw, List.head?_cons, Option.toList_some]
    refine ⟨fun _ => h.unclaimed (hw ▸ List.cons_ne_nil w ws), ?_, ?_, ?_, h.usedOnce, h.polledOnce⟩
    · have ht := h.turn
      rw [hw] at ht
      rw [List.append_assoc, List.singleton_append, ht]
      apply List.filter_congr
      intro t _
      by_cases htw : t = w <;> simp [htw, hd]
    · rw [List.filter_append, ← h.held]
      simp [hc, hd]
    · exact fun t ht => List.mem_append_left _ (h.used ht)

theorem erase_handed {completed' dropped' : List Ticket}
    (hs : ∀ t', t' ∉ completed' ∧ t' ∉ dropped' ↔ t' ≠ t ∧ t' ∉ completed ∧ t' ∉ dropped) :
    l.handed.erase t = granted.filter fun t' => t' ∉ completed' ∧ t' ∉ dropped' := by
  rw [h.nodup_handed.erase_eq_filter, h.held, List.filter_filter]
  apply List.filter_congr
  intro t' _
  rw [Bool.eq_iff_iff]
  simp [hs t']

theorem collect (ht : t ∈ l.handed) :
    InTurn { l with handed := l.handed.erase t } polled dropped granted (completed ++ [t]) where
  unclaimed := h.unclaimed
  turn := h.turn
  held := h.erase_handed fun t' => by
    rw [List.mem_append, List.mem_singleton, not_or]
    tauto
  used := by
    have hg : t ∈ granted := (h.mem_handed.mp ht).1
    exact List.append_subset.mpr ⟨h.used, List.cons_subset.mpr ⟨hg, List.nil_subset _⟩⟩
  usedOnce := by simpa using h.usedOnce.concat (h.mem_handed.mp ht).2.1
  polledOnce := h.polledOnce

theorem giveUp (ht : t ∈ l.handed) :
    InTurn { l with handed := l.handed.erase t } polled (dropped ++ [t]) granted completed where
  unclaimed := h.unclaimed
  turn := by
    have hg : t ∈ granted := (h.mem_handed.mp ht).1
    rw [h.turn]
    apply List.filter_congr
    intro t' _
    by_cases he : t' = t <;> simp [he, hg]
  held := h.erase_handed fun t' => by
    rw [List.mem_append, List.mem_singleton, not_or]
    tauto
  used := h.used
  usedOnce := h.usedOnce
  polledOnce := h.polledOnce

theorem leave (ht : t ∉ l.handed) :
    InTurn { l with waiting := l.waiting.erase t } polled (dropped ++ [t]) granted completed where
  unclaimed hn := h.unclaimed fun hw => hn (by rw [hw]; rfl)
  turn := by
    let stays (t' : Ticket) : Bool := t' ∈ granted ∨ t' ≠ t
    have hg : granted = granted.filter stays :=
      (List.filter_eq_self.mpr fun t' ht' => decide_eq_true (.inl ht')).symm
    have hw : l.waiting.erase t = l.waiting.filter stays := by
      rw [(List.nodup_append.mp h.nodup_turn).2.1.erase_eq_filter]
      apply List.filter_congr
      intro t' ht'
      have hn : t' ∉ granted := h.not_granted_of_waiting ht'
      simp only [stays, hn, false_or]
      by_cases he : t' = t <;> simp [he]
    calc granted ++ l.waiting.erase t
        = granted.filter stays ++ l.waiting.filter stays := by rw [← hg, hw]
      _ = (polled.filter fun t' => t' ∈ granted ∨ t' ∉ dropped).filter stays := by
          rw [← List.filter_append, h.turn]
      _ = polled.filter fun t' => t' ∈ granted ∨ t' ∉ dropped ++ [t] := by
          rw [List.filter_filter]
          apply List.filter_congr
          intro t' _
          by_cases he : t' = t <;> simp +contextual [stays, he]
  held := by
    rw [h.held]
    apply List.filter_congr
    intro t' ht'
    by_cases he : t' = t
    · have hn : ¬ (t' ∉ completed ∧ t' ∉ dropped) := fun hn =>
        ht (he ▸ h.mem_handed.mpr ⟨ht', hn⟩)
      simp_all
    · simp [he]
  used := h.used
  usedOnce := h.usedOnce
  polledOnce := h.polledOnce

theorem request (hp : t ∉ polled) (hd : t ∉ dropped) :
    let ready := if (l.request t).1 then [t] else []
    InTurn (l.request t).2 (polled ++ [t]) dropped (granted ++ ready) (completed ++ ready) := by
  have hg : t ∉ granted := fun hg => hp (h.polled_of_granted hg)
  have hc : (completed ++ [t]).Nodup := by
    simpa using h.usedOnce.concat fun hc => hg (h.used hc)
  have hp' : (polled ++ [t]).Nodup := by simpa using h.polledOnce.concat hp
  cases hpool : l.pool with
  | zero =>
    simp only [Limiter.request, hpool, Bool.false_eq_true, if_false, List.append_nil]
    refine ⟨fun _ => rfl, ?_, h.held, h.used, h.usedOnce, hp'⟩
    rw [← List.append_assoc, h.turn, List.filter_append]
    simp [hd]
  | succ n =>
    have hw : l.waiting = [] := by
      by_contra hw
      have hz : l.pool = 0 := h.unclaimed hw
      omega
    simp only [Limiter.request, hpool, if_true]
    refine ⟨fun hn => absurd hw hn, ?_, ?_, ?_, hc, hp'⟩
    · have ht := h.turn
      rw [hw, List.append_nil] at ht ⊢
      rw [List.filter_append]
      conv_lhs => rw [ht]
      congr 1
      · apply List.filter_congr
        intro t' ht'
        simp [ne_of_mem_of_not_mem ht' hp]
      · simp
    · rw [h.held, List.filter_append]
      have hs : [t].filter (fun t' => t' ∉ completed ++ [t] ∧ t' ∉ dropped) = [] := by simp
      rw [hs, List.append_nil]
      apply List.filter_congr
      intro t' ht'
      simp [ne_of_mem_of_not_mem ht' hg]
    · exact List.append_subset.mpr
        ⟨List.subset_append_of_subset_left _ h.used, List.subset_append_right _ _⟩

theorem filter_handed_eq_nil {handed : List Ticket} (hs : handed ⊆ l.handed) :
    l.waiting.filter (· ∈ handed) = [] :=
  List.filter_eq_nil_iff.mpr fun _ ht hh => h.not_handed_of_waiting ht (hs (of_decide_eq_true hh))

theorem filter_handed_putBack :
    l.waiting.filter (· ∈ l.putBack.handed) = l.waiting.head?.toList := by
  cases hw : l.waiting with
  | nil => rfl
  | cons w ws =>
    have hn : (w :: ws).Nodup := hw ▸ (List.nodup_append.mp h.nodup_turn).2.1
    have hws : ws.filter (· ∈ l.handed ++ [w]) = [] := by
      refine List.filter_eq_nil_iff.mpr fun t ht hh => ?_
      rcases List.mem_append.mp (of_decide_eq_true hh) with hh | hh
      · exact h.not_handed_of_waiting (hw ▸ List.mem_cons_of_mem w ht) hh
      · exact (List.nodup_cons.mp hn).1 (List.mem_singleton.mp hh ▸ ht)
    have hp : l.putBack.handed = l.handed ++ [w] := by rw [Limiter.putBack, hw]
    rw [hp, List.filter_cons, hws]
    simp

end

section

variable {a : Acquires} (h : a.InTurn granted completed)

include h

theorem poll (t : Ticket) :
    (a.move (.poll t)).InTurn (granted ++ a.granted (.poll t))
      (completed ++ (a.completed? (.poll t)).toList) := by
  by_cases hd : t ∈ a.dropped
  · have hm : a.move (.poll t) = a := by rw [Acquires.move, if_pos hd]
    have hc : a.completed? (.poll t) = none := by
      rw [Acquires.completed?, if_neg fun hn => hn.1 hd]
    rw [Acquires.granted, hm, hc, h.filter_handed_eq_nil (List.Subset.refl _)]
    simpa using h
  · by_cases hp : t ∈ a.polled
    · have hm := Acquires.move_poll_again hd hp
      have hc := Acquires.completed_poll_again hd hp
      by_cases ht : t ∈ a.limiter.handed
      · have hl : a.limiter.collect t =
            (true, { a.limiter with handed := a.limiter.handed.erase t }) := if_pos ht
        rw [Acquires.granted, hm, hc, hl, h.filter_handed_eq_nil List.erase_subset]
        simpa [ht] using h.collect ht
      · have hl : a.limiter.collect t = (false, a.limiter) := if_neg ht
        rw [Acquires.granted, hm, hc, hl, h.filter_handed_eq_nil (List.Subset.refl _)]
        simpa using h
    · have hm := Acquires.move_poll_first hd hp
      have hc := Acquires.completed_poll_first hd hp
      have hh : (a.limiter.request t).2.handed = a.limiter.handed := by
        unfold Limiter.request
        split <;> rfl
      have ht : t ∉ a.limiter.handed := fun ht => hp (h.polled_of_granted (h.mem_handed.mp ht).1)
      have hg : a.granted (.poll t) = if (a.limiter.request t).1 then [t] else [] := by
        rw [Acquires.granted, hm, hc, hh, h.filter_handed_eq_nil (List.Subset.refl _)]
        split <;> simp [ht]
      rw [hm, hc, hg]
      exact h.request hp hd

theorem drop (t : Ticket) :
    (a.move (.drop t)).InTurn (granted ++ a.granted (.drop t))
      (completed ++ (a.completed? (.drop t)).toList) := by
  have hm : a.move (.drop t) =
      { a with limiter := a.limiter.withdraw t, dropped := a.dropped ++ [t] } := rfl
  have hc : a.completed? (.drop t) = none := rfl
  rw [Acquires.granted, hm, hc]
  by_cases ht : t ∈ a.limiter.handed
  · have hw : a.limiter.withdraw t =
        { a.limiter with handed := a.limiter.handed.erase t }.putBack := if_pos ht
    have hg := (h.giveUp ht).filter_handed_putBack
    have hs := (h.giveUp ht).putBack
    rw [hw, hg]
    simpa using hs
  · have hw : a.limiter.withdraw t =
        { a.limiter with waiting := a.limiter.waiting.erase t } := if_neg ht
    rw [hw, h.filter_handed_eq_nil (List.Subset.refl _)]
    simpa using h.leave ht

theorem refill :
    (a.move .refill).InTurn (granted ++ a.granted .refill)
      (completed ++ (a.completed? .refill).toList) := by
  have hm : a.move .refill = { a with limiter := a.limiter.tryRefill.2 } := rfl
  have hc : a.completed? .refill = none := rfl
  rw [Acquires.granted, hm, hc]
  by_cases hf : a.limiter.burst ≤ a.limiter.pool
  · have hr : a.limiter.tryRefill.2 = a.limiter := by rw [Limiter.tryRefill, if_pos hf]
    rw [hr, h.filter_handed_eq_nil (List.Subset.refl _)]
    simpa using h
  · have hr : a.limiter.tryRefill.2 = a.limiter.putBack := by rw [Limiter.tryRefill, if_neg hf]
    rw [hr, h.filter_handed_putBack]
    simpa using h.putBack

theorem move (m : Move) :
    (a.move m).InTurn (granted ++ a.granted m) (completed ++ (a.completed? m).toList) := by
  cases m with
  | poll t => exact h.poll t
  | drop t => exact h.drop t
  | refill => exact h.refill

end

theorem after (burst : Nat) (moves : List Move) :
    ((Acquires.full burst).after moves).InTurn ((Acquires.full burst).grants moves)
      ((Acquires.full burst).completions moves) := by
  induction moves using List.reverseRecOn with
  | nil => exact full burst
  | append_singleton moves m ih =>
    rw [Acquires.after_concat, Acquires.grants, Acquires.completions, along_concat, along_concat]
    exact ih.move m

end InTurn

/-- Every permit is accounted for, nobody waits while there is one to be had, and the acquires are
given theirs once and in the order of their first polls, but for those that gave up waiting. -/
theorem permits_conserved_in_turn (burst : Nat) (moves : List Move) :
    let a := (Acquires.full burst).after moves
    let granted := (Acquires.full burst).grants moves
    let completed := (Acquires.full burst).completions moves
    burst + ((Acquires.full burst).answers moves).count true =
        a.limiter.available + a.limiter.handed.length + completed.length ∧
      (a.limiter.waiting = [] ∨ a.limiter.available = 0) ∧
      granted.Nodup ∧ completed.Nodup ∧
      granted ++ a.limiter.waiting = a.polled.filter (fun t => t ∈ granted ∨ t ∉ a.dropped) ∧
      a.limiter.handed = granted.filter (fun t => t ∉ completed ∧ t ∉ a.dropped) := by
  intro a granted completed
  have h : a.InTurn granted completed := InTurn.after burst moves
  refine ⟨(permits_after (Acquires.full burst) moves).symm, ?_, ?_, h.usedOnce, h.turn, h.held⟩
  · exact or_iff_not_imp_left.mpr h.unclaimed
  · exact (List.nodup_append.mp h.nodup_turn).1

end GatewayEnrichment.Limiter
