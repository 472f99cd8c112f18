import GatewayEnrichment.Limiter

/-! Acquires at one limiter. An acquire is named by its ticket: it asks for a permit when it is
polled first, uses up the permit that was handed over to it when it is polled again, and can be
dropped before, between and after. Refills come in between in any order. An acquire that is never
polled leaves no trace. -/

namespace GatewayEnrichment.Limiter

/-- The limiter, the acquires in the order in which they were first polled, and those that were
dropped. -/
structure Acquires where
  limiter : Limiter
  polled : List Ticket := []
  dropped : List Ticket := []
  deriving DecidableEq, Repr

inductive Move where
  | poll (t : Ticket)
  | drop (t : Ticket)
  | refill
  deriving DecidableEq, Repr

namespace Acquires

def full (burst : Nat) : Acquires where
  limiter := .full burst

def move (a : Acquires) : Move → Acquires
  | .poll t =>
    -- an acquire that was dropped is not polled any more
    if t ∈ a.dropped then a
    else if t ∈ a.polled then { a with limiter := (a.limiter.collect t).2 }
    else { a with limiter := (a.limiter.request t).2, polled := a.polled ++ [t] }
  | .drop t => { a with limiter := a.limiter.withdraw t, dropped := a.dropped ++ [t] }
  | .refill => { a with limiter := a.limiter.tryRefill.2 }

def after (a : Acquires) (moves : List Move) : Acquires := moves.foldl move a

theorem after_concat (a : Acquires) (moves : List Move) (m : Move) :
    a.after (moves ++ [m]) = (a.after moves).move m := List.foldl_append

end Acquires

variable (l : Limiter) (t : Ticket)

@[simp] theorem burst_request : (l.request t).2.burst = l.burst := by
  unfold request
  split <;> rfl

@[simp] theorem burst_collect : (l.collect t).2.burst = l.burst := by
  unfold collect
  split <;> rfl

@[simp] theorem burst_putBack : l.putBack.burst = l.burst := by
  unfold putBack
  split <;> rfl

@[simp] theorem burst_tryRefill : l.tryRefill.2.burst = l.burst := by
  unfold tryRefill
  split
  · rfl
  · exact burst_putBack l

@[simp] theorem burst_withdraw : (l.withdraw t).burst = l.burst := by
  unfold withdraw
  split
  · exact burst_putBack _
  · rfl

theorem burst_move (a : Acquires) (m : Move) : (a.move m).limiter.burst = a.limiter.burst := by
  cases m with
  | poll t =>
    rw [Acquires.move]
    split
    · rfl
    · split
      · exact burst_collect _ t
      · exact burst_request _ t
  | drop t => exact burst_withdraw _ t
  | refill => exact burst_tryRefill _

theorem burst_after (a : Acquires) (moves : List Move) :
    (a.after moves).limiter.burst = a.limiter.burst := by
  induction moves generalizing a with
  | nil => rfl
  | cons m moves ih => exact (ih (a.move m)).trans (burst_move a m)

theorem available_request_le : (l.request t).2.available ≤ l.available := by
  unfold request available
  split <;> simp_all

theorem available_collect : (l.collect t).2.available = l.available := by
  unfold collect
  split <;> rfl

theorem available_putBack :
    l.putBack.available = if l.waiting = [] then l.available + 1 else l.available := by
  rw [putBack]
  cases l.waiting <;> rfl

theorem available_withdraw :
    (l.withdraw t).available =
      if t ∈ l.handed ∧ l.waiting = [] then l.available + 1 else l.available := by
  rw [withdraw]
  by_cases h : t ∈ l.handed
  · rw [if_pos h, available_putBack]
    simp only [h, true_and]
    rfl
  · rw [if_neg h, if_neg fun hw => h hw.1]
    rfl

end GatewayEnrichment.Limiter
