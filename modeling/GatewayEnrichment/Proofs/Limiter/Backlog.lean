import GatewayEnrichment.Proofs.Limiter.Grants
import Mathlib.Data.List.Perm.Subperm

/-! A backlog at a limiter: acquires that are all there, of which none is dropped and to which none
is added. As long as one of them waits no refill is refused, and each goes to the first in the
queue. So the acquires that have been granted a permit are the first ones that came, as many as the
burst and the refills together. -/

namespace GatewayEnrichment.Limiter

def Move.isDrop : Move → Bool
  | .drop _ => true
  | _ => false

namespace Acquires

variable (a : Acquires) (moves : List Move)

theorem polled_prefix_move (m : Move) : a.polled <+: (a.move m).polled := by
  cases m with
  | poll t =>
    rw [move]
    split
    · exact List.prefix_refl _
    · split
      · exact List.prefix_refl _
      · exact List.prefix_append _ _
  | drop t | refill => exact List.prefix_refl _

theorem polled_prefix_after : a.polled <+: (a.after moves).polled := by
  induction moves generalizing a with
  | nil => exact List.prefix_refl _
  | cons m moves ih => exact (a.polled_prefix_move m).trans (ih (a.move m))

theorem dropped_move {m : Move} (kept : m.isDrop = false) : (a.move m).dropped = a.dropped := by
  cases m with
  | poll t =>
    rw [move]
    split
    · rfl
    · split <;> rfl
  | drop t => cases kept
  | refill => rfl

theorem dropped_after (kept : ∀ m ∈ moves, m.isDrop = false) :
    (a.after moves).dropped = a.dropped := by
  induction moves generalizing a with
  | nil => rfl
  | cons m moves ih =>
    have rest := ih (a.move m) fun m' hm => kept m' (List.mem_cons_of_mem m hm)
    exact rest.trans (a.dropped_move (kept m List.mem_cons_self))

theorem waiting_move {m : Move} (kept : m.isDrop = false)
    (closed : (a.move m).polled = a.polled) : (a.move m).limiter.waiting <:+ a.limiter.waiting := by
  cases m with
  | poll t =>
    rw [move] at closed ⊢
    split
    · exact List.suffix_refl _
    · next hd =>
      rw [if_neg hd] at closed
      split
      · change (a.limiter.collect t).2.waiting <:+ _
        rw [collect]
        split <;> exact List.suffix_refl _
      · next hp =>
        rw [if_neg hp] at closed
        exact absurd closed (by simp)
  | drop t => cases kept
  | refill =>
    change a.limiter.tryRefill.2.waiting <:+ _
    rw [tryRefill]
    split
    · exact List.suffix_refl _
    · rw [putBack]
      cases hw : a.limiter.waiting with
      | nil => exact List.suffix_refl _
      | cons t rest => exact List.suffix_cons t rest

end Acquires

section

variable {l : Limiter} {polled dropped granted completed : List Ticket}
  (h : InTurn l polled dropped granted completed)

include h

theorem InTurn.refills_of_waiting (pos : 0 < l.burst) (waits : l.waiting ≠ []) :
    l.tryRefill.1 = true := by
  have empty : l.pool = 0 := h.unclaimed waits
  rw [tryRefill, if_neg (by omega)]

theorem InTurn.length_granted (kept : dropped = []) :
    granted.length = l.handed.length + completed.length := by
  have nodup : granted.Nodup := (List.nodup_append.mp h.nodup_turn).1
  have used : (granted.filter (· ∈ completed)).Perm completed := by
    rw [List.perm_ext_iff_of_nodup (nodup.filter _) h.usedOnce]
    intro t
    rw [List.mem_filter, decide_eq_true_iff]
    exact ⟨And.right, fun ht => ⟨h.used ht, ht⟩⟩
  have held : l.handed = granted.filter (fun t => !decide (t ∈ completed)) := by
    rw [h.held, kept]
    apply List.filter_congr
    intro t _
    simp
  rw [held, ← used.length_eq, Nat.add_comm]
  exact List.length_eq_length_filter_add _

theorem InTurn.turn_of_kept (kept : dropped = []) : granted ++ l.waiting = polled := by
  rw [h.turn, kept]
  exact List.filter_eq_self.mpr fun _ _ => decide_eq_true (.inr List.not_mem_nil)

end

section

variable {burst : Nat} (pos : 0 < burst) {opening rest : List Move}
  (kept : ∀ m ∈ opening ++ rest, m.isDrop = false)
  (closed : ((Acquires.full burst).after (opening ++ rest)).polled =
    ((Acquires.full burst).after opening).polled)

include pos kept closed

theorem count_answers_of_waiting
    (waits : ((Acquires.full burst).after (opening ++ rest)).limiter.waiting ≠ []) :
    (((Acquires.full burst).after opening).answers rest).count true = rest.count .refill := by
  induction rest using List.reverseRecOn with
  | nil => rfl
  | append_singleton rest m ih =>
    let a := (Acquires.full burst).after (opening ++ rest)
    have last : (Acquires.full burst).after (opening ++ (rest ++ [m])) = a.move m := by
      rw [← List.append_assoc, Acquires.after_concat]
    have run : ((Acquires.full burst).after opening).after rest = a := List.foldl_append.symm
    have here : a.polled = ((Acquires.full burst).after opening).polled := by
      have before : ((Acquires.full burst).after opening).polled <+: a.polled := by
        rw [← run]
        exact Acquires.polled_prefix_after _ rest
      have behind : a.polled <+: ((Acquires.full burst).after opening).polled := by
        rw [← closed, last]
        exact a.polled_prefix_move m
      exact (before.eq_of_length_le behind.length_le).symm
    have stays : m.isDrop = false := kept m (by simp)
    rw [last] at waits closed
    have waited : a.limiter.waiting ≠ [] := fun none =>
      waits (List.eq_nil_of_suffix_nil (none ▸ a.waiting_move stays (closed.trans here.symm)))
    have answers : ((Acquires.full burst).after opening).answers (rest ++ [m]) =
        ((Acquires.full burst).after opening).answers rest ++ (a.answer? m).toList := by
      rw [Acquires.answers, along_concat, ← run]
      rfl
    have tried : (a.answer? m).toList.count true = [m].count .refill := by
      cases m with
      | poll t | drop t => rfl
      | refill =>
        have ready : a.limiter.tryRefill.1 = true :=
          (InTurn.after burst (opening ++ rest)).refills_of_waiting
            (by rw [burst_after]; exact pos) waited
        rw [Acquires.answer?, ready]
        rfl
    rw [answers, List.count_append, List.count_append, tried,
      ih (fun m' hm => kept m' (by rw [← List.append_assoc]; exact List.mem_append_left _ hm))
        here waited]

theorem grants_eq_take (early : opening.count .refill = 0) :
    (Acquires.full burst).grants (opening ++ rest) =
      ((Acquires.full burst).after opening).polled.take (burst + rest.count .refill) := by
  let a := (Acquires.full burst).after (opening ++ rest)
  let granted := (Acquires.full burst).grants (opening ++ rest)
  have inTurn : a.InTurn granted ((Acquires.full burst).completions (opening ++ rest)) :=
    InTurn.after burst (opening ++ rest)
  have nobody : a.dropped = [] := Acquires.dropped_after _ _ kept
  have turn : granted ++ a.limiter.waiting = ((Acquires.full burst).after opening).polled := by
    rw [← closed]
    exact inTurn.turn_of_kept nobody
  have added : ((Acquires.full burst).answers (opening ++ rest)).count true =
      (((Acquires.full burst).after opening).answers rest).count true := by
    have none : ((Acquires.full burst).answers opening).count true = 0 :=
      Nat.le_zero.mp (early ▸ count_answers_le _ opening)
    rw [Acquires.answers, along_append, List.count_append]
    exact (congrArg (· + _) none).trans (Nat.zero_add _)
  have permits : a.limiter.available + granted.length =
      burst + (((Acquires.full burst).after opening).answers rest).count true := by
    have all : a.limiter.available + a.limiter.handed.length +
        ((Acquires.full burst).completions (opening ++ rest)).length =
          burst + ((Acquires.full burst).answers (opening ++ rest)).count true :=
      permits_after (Acquires.full burst) (opening ++ rest)
    rw [inTurn.length_granted nobody, ← added, ← all, Nat.add_assoc]
  by_cases waits : a.limiter.waiting = []
  · have all : granted = ((Acquires.full burst).after opening).polled := by
      rw [← turn, waits, List.append_nil]
    have few := count_answers_le ((Acquires.full burst).after opening) rest
    exact all.trans (List.take_of_length_le (by rw [← all]; omega)).symm
  · have empty : a.limiter.available = 0 := inTurn.unclaimed waits
    have tried := count_answers_of_waiting pos kept closed waits
    have length : granted.length = burst + rest.count .refill := by omega
    exact List.prefix_iff_eq_take.mp ⟨_, turn⟩ |>.trans (by rw [length])

theorem completions_perm_take (early : opening.count .refill = 0)
    (collected : ((Acquires.full burst).after (opening ++ rest)).limiter.handed = []) :
    ((Acquires.full burst).completions (opening ++ rest)).Perm
      (((Acquires.full burst).after opening).polled.take (burst + rest.count .refill)) := by
  have inTurn : ((Acquires.full burst).after (opening ++ rest)).InTurn
      ((Acquires.full burst).grants (opening ++ rest))
      ((Acquires.full burst).completions (opening ++ rest)) := InTurn.after burst (opening ++ rest)
  have nobody : ((Acquires.full burst).after (opening ++ rest)).dropped = [] :=
    Acquires.dropped_after _ _ kept
  rw [← grants_eq_take pos kept closed early]
  refine (List.Nodup.subperm inTurn.usedOnce inTurn.used).perm_of_length_le ?_
  rw [inTurn.length_granted nobody, collected]
  exact Nat.le_of_eq (Nat.zero_add _)

end

end GatewayEnrichment.Limiter
