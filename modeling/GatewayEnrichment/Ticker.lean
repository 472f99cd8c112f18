import GatewayEnrichment.Instant

/-! A timer that is due at equal intervals, counted in milliseconds or in the finer units of its
clock. When it is looked at too late it skips the instants it has missed and stays on the grid that
it started with; a delay of a few milliseconds does not count as late. -/

namespace GatewayEnrichment

structure Ticker where
  period : Nat
  due : Nat
  millisecond : Nat := 1
  period_pos : 0 < period
  deriving DecidableEq, Repr

namespace Ticker

/-- The delay in milliseconds that is not yet late. -/
def tolerance : Nat := 5

def start (interval now : Nat) (millisecond : Nat := 1) (unit : 0 < millisecond := by decide) :
    Ticker where
  period := max interval millisecond
  due := now + max interval millisecond
  millisecond := millisecond
  period_pos := Nat.lt_of_lt_of_le unit (Nat.le_max_right _ _)

def arm? (interval : Nat) (clock : Instant) : Option Ticker :=
  (clock.later? (max interval 1)).map fun _ => start interval 0

def served (t : Ticker) (now : Nat) : Ticker :=
  if now - t.due ≤ tolerance * t.millisecond then { t with due := t.due + t.period }
  else { t with due := now + t.period - (now - t.due) % t.period }

theorem due_lt_due_served (t : Ticker) {now : Nat} (h : t.due ≤ now) :
    t.due < (t.served now).due := by
  have hp := t.period_pos
  have hm := Nat.mod_lt (now - t.due) hp
  unfold served
  split <;> simp only <;> omega

def serveUpTo (now : Nat) : Nat → Ticker → Nat × Ticker
  | 0, t => (0, t)
  | rounds + 1, t =>
    if t.due ≤ now then
      let (n, t) := serveUpTo now rounds (t.served now)
      (n + 1, t)
    else (0, t)

def serve (t : Ticker) (now : Nat) : Nat × Ticker := serveUpTo now (now + 1 - t.due) t

end Ticker
end GatewayEnrichment
