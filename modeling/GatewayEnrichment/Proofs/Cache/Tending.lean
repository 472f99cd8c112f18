import GatewayEnrichment.Proofs.Cache.Pace
import Mathlib.Order.Bounds.Basic

/-! A cache whose timer is looked after by a task that may be kept from running. Whenever the task
runs it serves what is due, with a refill each, and after that the timer is due at the first instant
of its grid that lies ahead. Instants that were missed are skipped only if the first of them lies
further back than the timer tolerates; otherwise each of them is made up for. -/

namespace GatewayEnrichment

namespace Ticker

def rounds (t : Ticker) (now : Nat) : Nat :=
  if now < t.due then 0
  else if now - t.due ≤ tolerance * t.millisecond then (now - t.due) / t.period + 1
  else 1

def next (t : Ticker) (now : Nat) : Nat :=
  if now < t.due then t.due else t.due + ((now - t.due) / t.period + 1) * t.period

variable {t : Ticker} {now : Nat}

theorem served_eq_of_late (h : t.due ≤ now) (late : tolerance * t.millisecond < now - t.due) :
    t.served now = { t with due := t.due + ((now - t.due) / t.period + 1) * t.period } := by
  have whole : now - t.due = (now - t.due) / t.period * t.period + (now - t.due) % t.period :=
    (Nat.div_add_mod' _ _).symm
  have rest : (now - t.due) % t.period < t.period := Nat.mod_lt _ t.period_pos
  have due : now + t.period - (now - t.due) % t.period =
      t.due + ((now - t.due) / t.period + 1) * t.period := by
    rw [Nat.succ_mul]
    omega
  rw [served, if_neg (Nat.not_le.mpr late), due]

theorem lt_next (t : Ticker) (now : Nat) : now < t.next now := by
  rw [next]
  split
  · assumption
  · have whole := Nat.lt_div_mul_add t.period_pos (a := now - t.due)
    rw [Nat.succ_mul]
    omega

theorem rounds_served (h : t.due ≤ now) :
    (t.served now).rounds now + 1 = t.rounds now ∧ (t.served now).next now = t.next now := by
  have here : t.next now = t.due + ((now - t.due) / t.period + 1) * t.period :=
    if_neg (Nat.not_lt.mpr h)
  by_cases late : tolerance * t.millisecond < now - t.due
  · -- the timer goes ahead of the clock at once
    have ahead : now < t.due + ((now - t.due) / t.period + 1) * t.period := here ▸ t.lt_next now
    rw [served_eq_of_late h late, here, rounds, rounds, next, if_pos ahead, if_pos ahead,
      if_neg (Nat.not_lt.mpr h), if_neg (Nat.not_le.mpr late)]
    exact ⟨rfl, rfl⟩
  · have near : now - t.due ≤ tolerance * t.millisecond := Nat.not_lt.mp late
    have step : t.served now = { t with due := t.due + t.period } := if_pos near
    have all : t.rounds now = (now - t.due) / t.period + 1 := by
      rw [rounds, if_neg (Nat.not_lt.mpr h), if_pos near]
    rw [step, all, here]
    by_cases more : t.due + t.period ≤ now
    · have fewer : (now - t.due) / t.period = (now - (t.due + t.period)) / t.period + 1 := by
        rw [Nat.sub_add_eq]
        exact Nat.div_eq_sub_div t.period_pos (by omega)
      rw [rounds, next, if_neg (Nat.not_lt.mpr more), if_neg (Nat.not_lt.mpr more),
        if_pos (by dsimp only; omega), fewer]
      refine ⟨rfl, ?_⟩
      dsimp only
      rw [Nat.succ_mul ((now - (t.due + t.period)) / t.period + 1)]
      omega
    · have last : (now - t.due) / t.period = 0 := Nat.div_eq_of_lt (by omega)
      rw [rounds, next, if_pos (Nat.not_le.mp more), if_pos (Nat.not_le.mp more), last,
        Nat.zero_add, Nat.one_mul]
      exact ⟨rfl, rfl⟩

theorem serveUpTo_eq (now : Nat) (n : Nat) (t : Ticker) (enough : now + 1 - t.due ≤ n) :
    serveUpTo now n t = (t.rounds now, { t with due := t.next now }) := by
  induction n generalizing t with
  | zero =>
    have ahead : now < t.due := by omega
    rw [serveUpTo, rounds, next, if_pos ahead, if_pos ahead]
  | succ n ih =>
    rw [serveUpTo]
    split
    · next h =>
      have moved : t.due < (t.served now).due := t.due_lt_due_served h
      obtain ⟨count, due⟩ := rounds_served h
      have same : ∀ due, { t.served now with due := due } = { t with due := due } := by
        intro due
        rw [served]
        split <;> rfl
      rw [ih (t.served now) (by omega), count.symm, ← due]
      exact congrArg (Prod.mk _) (same _)
    · next h => rw [rounds, next, if_pos (Nat.not_le.mp h), if_pos (Nat.not_le.mp h)]

theorem serve_eq (t : Ticker) (now : Nat) :
    t.serve now = (t.rounds now, { t with due := t.next now }) :=
  serveUpTo_eq now _ t (Nat.le_refl _)

end Ticker

/-- A cache with its clock and its timer. The clock starts with the timer, and `ran` is when the
task that looks after the timer ran last. -/
structure Tended where
  cache : Cache
  ticker : Ticker
  now : Nat := 0
  ran : Nat := 0

namespace Tended

open Cache

def start (burst interval : Nat) (expiry : Option Nat) (millisecond : Nat)
    (unit : 0 < millisecond) : Tended where
  cache := .start burst expiry
  ticker := .start interval 0 millisecond unit

inductive Turn where
  | act (m : Cache.Move) (other : m.isRefill = false)
  | pass (time : Nat)
  | wake

def moves (s : Tended) : Turn → List Cache.Move
  | .act m _ => [m.stamped s.now]
  | .pass _ => []
  | .wake => List.replicate (s.ticker.serve s.now).1 .refill

def move (s : Tended) (t : Turn) : Tended :=
  let s' := { s with cache := s.cache.after (s.moves t) }
  match t with
  | .act _ _ => s'
  | .pass time => { s' with now := s.now + time }
  | .wake => { s' with ticker := (s.ticker.serve s.now).2, ran := s.now }

def after (s : Tended) (turns : List Turn) : Tended := turns.foldl move s

def attempts (s : Tended) (t : Turn) : Nat := (s.moves t).countP Cache.Move.isRefill

def missed (s : Tended) : Nat := s.now / s.ticker.period - s.ran / s.ticker.period

/-- How long ago the first instant of the grid was that the task has not seen. -/
def delay (s : Tended) : Nat := s.now - (s.ran / s.ticker.period + 1) * s.ticker.period

theorem after_append (s : Tended) (as bs : List Turn) :
    s.after (as ++ bs) = (s.after as).after bs := List.foldl_append

theorem after_concat (s : Tended) (turns : List Turn) (t : Turn) :
    s.after (turns ++ [t]) = (s.after turns).move t := after_append s turns [t]

theorem cache_move (s : Tended) (t : Turn) : (s.move t).cache = s.cache.after (s.moves t) := by
  cases t <;> rfl

theorem ticker_move (s : Tended) (t : Turn) :
    (s.move t).ticker = { s.ticker with due := (s.move t).ticker.due } := by
  cases t with
  | act m other | pass time => rfl
  | wake =>
    change (s.ticker.serve s.now).2 = { s.ticker with due := (s.ticker.serve s.now).2.due }
    rw [Ticker.serve_eq]

theorem period_move (s : Tended) (t : Turn) : (s.move t).ticker.period = s.ticker.period := by
  rw [ticker_move]

theorem millisecond_move (s : Tended) (t : Turn) :
    (s.move t).ticker.millisecond = s.ticker.millisecond := by
  rw [ticker_move]

theorem attempts_wake_eq_rounds (s : Tended) : s.attempts .wake = s.ticker.rounds s.now := by
  rw [attempts, moves, List.countP_replicate, Ticker.serve_eq]
  rfl

/-- The timer is due at the first instant of the grid that lies behind the last run of the task. -/
structure OnGrid (s : Tended) : Prop where
  due : s.ticker.due = (s.ran / s.ticker.period + 1) * s.ticker.period
  past : s.ran ≤ s.now

namespace OnGrid

variable {s : Tended} (h : s.OnGrid)

include h

theorem now_div_period :
    s.now / s.ticker.period =
      if s.now < s.ticker.due then s.ran / s.ticker.period
      else s.ran / s.ticker.period + 1 + (s.now - s.ticker.due) / s.ticker.period := by
  have pos := s.ticker.period_pos
  have due := h.due
  split
  · next ahead =>
    rw [due] at ahead
    exact Nat.le_antisymm (Nat.le_of_lt_succ ((Nat.div_lt_iff_lt_mul pos).mpr ahead))
      (Nat.div_le_div_right h.past)
  · next reached =>
    have parts : s.now =
        s.now - s.ticker.due + s.ticker.period * (s.ran / s.ticker.period + 1) := by
      rw [Nat.mul_comm, ← due]
      omega
    conv_lhs => rw [parts]
    rw [Nat.add_mul_div_left _ _ pos, Nat.add_comm]

theorem next_eq :
    s.ticker.next s.now = (s.now / s.ticker.period + 1) * s.ticker.period := by
  rw [h.now_div_period, Ticker.next]
  split
  · exact h.due
  · rw [Nat.add_assoc, Nat.add_mul (s.ran / s.ticker.period + 1), ← h.due]

theorem missed_eq :
    s.missed =
      if s.now < s.ticker.due then 0
      else (s.now - s.ticker.due) / s.ticker.period + 1 := by
  rw [missed, h.now_div_period]
  split
  · exact Nat.sub_self _
  · rw [Nat.add_assoc, Nat.add_sub_cancel_left, Nat.add_comm]

theorem attempts_wake :
    s.attempts .wake =
      if s.missed = 0 then 0
      else if s.delay ≤ Ticker.tolerance * s.ticker.millisecond then s.missed else 1 := by
  have delay : s.delay = s.now - s.ticker.due := by rw [Tended.delay, h.due]
  rw [attempts_wake_eq_rounds, Ticker.rounds, h.missed_eq, delay]
  by_cases ahead : s.now < s.ticker.due
  · rw [if_pos ahead, if_pos ahead, if_pos rfl]
  · rw [if_neg ahead, if_neg ahead, if_neg (Nat.succ_ne_zero _)]

theorem due_wake :
    (s.move .wake).ticker.due = (s.now / s.ticker.period + 1) * s.ticker.period := by
  change (s.ticker.serve s.now).2.due = _
  rw [Ticker.serve_eq]
  exact h.next_eq

theorem move (t : Turn) : (s.move t).OnGrid := by
  cases t with
  | act m other => exact ⟨h.due, h.past⟩
  | pass time => exact ⟨h.due, Nat.le_add_right_of_le h.past⟩
  | wake =>
    refine ⟨?_, Nat.le_refl s.now⟩
    rw [h.due_wake, s.period_move]
    rfl

end OnGrid

section

variable (burst interval : Nat) (expiry : Option Nat) {millisecond : Nat}
  (unit : 0 < millisecond) (turns : List Turn)

theorem onGrid_after : ((start burst interval expiry millisecond unit).after turns).OnGrid := by
  induction turns using List.reverseRecOn with
  | nil =>
    refine ⟨?_, Nat.le_refl 0⟩
    change 0 + max interval millisecond =
      (0 / max interval millisecond + 1) * max interval millisecond
    rw [Nat.zero_div, Nat.zero_add, Nat.zero_add, Nat.one_mul]
  | append_singleton turns t ih =>
    rw [after_concat]
    exact ih.move t

theorem period_after :
    ((start burst interval expiry millisecond unit).after turns).ticker.period =
      max interval millisecond :=
  foldl_unchanged (fun s : Tended => s.ticker.period) period_move _ turns

theorem millisecond_after :
    ((start burst interval expiry millisecond unit).after turns).ticker.millisecond = millisecond :=
  foldl_unchanged (fun s : Tended => s.ticker.millisecond) millisecond_move _ turns

end

/-! A cache that is tended runs as one whose timer may come as late as it likes, so it keeps the pace
of those. -/

theorem OnGrid.attempts_wake_le {s : Tended} (h : s.OnGrid) : s.attempts .wake ≤ s.missed := by
  rw [h.attempts_wake]
  split
  · exact Nat.zero_le _
  · split <;> omega

/-- The same cache at the same time, and no instant was served that the task has not seen. -/
structure Follows (s : Tended) (clocked : Clocked) : Prop where
  cache : clocked.cache = s.cache
  now : clocked.now = s.now
  period : clocked.period = s.ticker.period
  armed : clocked.armed = some 0
  place : clocked.place ≤ s.ran / s.ticker.period

theorem exists_after_eq_refills {clocked : Clocked} (armed : clocked.armed = some 0) {n : Nat}
    (past : (clocked.place + n) * clocked.period ≤ clocked.now) :
    ∃ turns, clocked.after turns = { clocked with
      cache := clocked.cache.after (List.replicate n .refill), place := clocked.place + n } := by
  induction n with
  | zero => exact ⟨[], rfl⟩
  | succ n ih =>
    have before : (clocked.place + n) * clocked.period ≤ (clocked.place + (n + 1)) * clocked.period :=
      Nat.mul_le_mul_right _ (Nat.le_succ _)
    obtain ⟨turns, reached⟩ := ih (before.trans past)
    have due : Clocked.isDue { clocked with
        cache := clocked.cache.after (List.replicate n .refill), place := clocked.place + n }
        (clocked.place + (n + 1)) = true := by
      rw [Clocked.isDue, armed]
      exact decide_eq_true ⟨Nat.lt_succ_self _, by rwa [Nat.zero_add]⟩
    refine ⟨turns ++ [.tick (clocked.place + (n + 1))], ?_⟩
    rw [Clocked.after_concat, reached, List.replicate_succ', Cache.after_concat]
    simp only [Clocked.move, Clocked.moves, due, if_true]
    rfl

theorem Follows.move {s : Tended} {clocked : Clocked} (h : s.Follows clocked) (grid : s.OnGrid)
    (t : Turn) : ∃ turns, (s.move t).Follows (clocked.after turns) := by
  cases t with
  | act m other =>
    refine ⟨[.act m other], ?_, h.now, h.period, h.armed, h.place⟩
    change clocked.cache.after [m.stamped clocked.now] = s.cache.after [m.stamped s.now]
    rw [h.cache, h.now]
  | pass time =>
    exact ⟨[.pass time], h.cache, congrArg (· + time) h.now, h.period, h.armed, h.place⟩
  | wake =>
    have places : clocked.place + s.attempts .wake ≤ s.now / s.ticker.period := by
      have missed := grid.attempts_wake_le
      have seen : s.ran / s.ticker.period ≤ s.now / s.ticker.period :=
        Nat.div_le_div_right grid.past
      have place := h.place
      rw [Tended.missed] at missed
      omega
    have past : (clocked.place + s.attempts .wake) * clocked.period ≤ clocked.now := by
      rw [h.period, h.now]
      exact (Nat.mul_le_mul_right _ places).trans (Nat.div_mul_le_self _ _)
    obtain ⟨turns, reached⟩ := exists_after_eq_refills h.armed past
    have refills : s.moves .wake = List.replicate (s.attempts .wake) .refill := by
      rw [attempts_wake_eq_rounds, moves, Ticker.serve_eq]
    refine ⟨turns, ?_⟩
    rw [reached]
    refine ⟨?_, h.now, h.period.trans (s.period_move .wake).symm, h.armed, ?_⟩
    · rw [cache_move, refills, ← h.cache]
    · rw [period_move]
      exact places

/-- However the task is kept from running, the timer is one that is served late. -/
theorem exists_follows (burst interval : Nat) (expiry : Option Nat) (turns : List Turn) :
    ∃ turns', ((start burst interval expiry GatewayEnrichment.millisecond (by decide)).after
      turns).Follows ((Clocked.start burst interval expiry).after turns') := by
  induction turns using List.reverseRecOn with
  | nil => exact ⟨[.arm], rfl, rfl, rfl, rfl, Nat.zero_le _⟩
  | append_singleton turns t ih =>
    obtain ⟨turns', follows⟩ := ih
    obtain ⟨more, follows⟩ := follows.move (onGrid_after burst interval expiry _ turns) t
    refine ⟨turns' ++ more, ?_⟩
    rw [after_concat, Clocked.after, List.foldl_append]
    exact follows

theorem lookups_le (burst interval : Nat) (expiry : Option Nat) (turns : List Turn) :
    let s := (start burst interval expiry GatewayEnrichment.millisecond (by decide)).after turns
    s.cache.lookups ≤ burst + s.now / max interval GatewayEnrichment.millisecond := by
  intro s
  obtain ⟨turns', follows⟩ := exists_follows burst interval expiry turns
  rw [← follows.cache, ← follows.now]
  exact Clocked.lookups_le burst interval expiry turns'

theorem permits_refills_le (c : Cache) (n : Nat) :
    (c.after (List.replicate n .refill)).limiter.permits ≤ c.limiter.permits + n := by
  induction n with
  | zero => exact Nat.le_refl _
  | succ n ih =>
    have added := Limiter.permits_tryRefill (c.after (List.replicate n .refill)).limiter
    rw [List.replicate_succ', Cache.after_concat]
    change (Limiter.tryRefill _).2.permits ≤ _
    have one := Bool.toNat_le (Limiter.tryRefill (c.after (List.replicate n .refill)).limiter).1
    omega

theorem permits_wake_le (s : Tended) :
    (s.move .wake).cache.limiter.permits ≤ s.cache.limiter.permits + s.attempts .wake := by
  rw [cache_move, attempts_wake_eq_rounds, moves, Ticker.serve_eq]
  exact permits_refills_le s.cache _

/-- The task tries one refill whenever it runs behind an instant of the grid, and so restores at
most one permit, if and only if it never finds several missed instants of which the first lies no
further back than five milliseconds. In any case the timer is due next at the first instant of the
grid ahead. -/
theorem one_attempt_per_wake_iff (burst interval : Nat) (expiry : Option Nat) {millisecond : Nat}
    (unit : 0 < millisecond) (turns : List Turn) :
    let first := start burst interval expiry millisecond unit
    (∀ past, past ++ [.wake] <+: turns →
      IsLeast {instant | (first.after past).now < instant ∧ max interval millisecond ∣ instant}
        (first.after (past ++ [.wake])).ticker.due) ∧
    ((∀ past, past ++ [.wake] <+: turns → 0 < (first.after past).missed →
        (first.after past).attempts .wake = 1 ∧
          (first.after (past ++ [.wake])).cache.limiter.permits ≤
            (first.after past).cache.limiter.permits + 1) ↔
      ∀ past, past ++ [.wake] <+: turns →
        ¬ (2 ≤ (first.after past).missed ∧ (first.after past).delay ≤ 5 * millisecond)) := by
  intro first
  have tries : ∀ past, (first.after past).attempts .wake =
      if (first.after past).missed = 0 then 0
      else if (first.after past).delay ≤ 5 * millisecond then (first.after past).missed
      else 1 := by
    intro past
    rw [(onGrid_after burst interval expiry unit past).attempts_wake,
      millisecond_after burst interval expiry unit past]
    rfl
  refine ⟨?_, ?_, ?_⟩
  · intro past _
    have pos : 0 < max interval millisecond := Nat.lt_of_lt_of_le unit (Nat.le_max_right _ _)
    rw [after_concat, (onGrid_after burst interval expiry unit past).due_wake,
      period_after burst interval expiry unit past]
    refine ⟨⟨?_, Nat.dvd_mul_left _ _⟩, ?_⟩
    · rw [Nat.succ_mul]
      exact Nat.lt_div_mul_add pos
    · rintro instant ⟨ahead, k, rfl⟩
      rw [Nat.mul_comm _ k] at ahead ⊢
      exact Nat.mul_le_mul_right _ ((Nat.div_lt_iff_lt_mul pos).mpr ahead)
  · rintro single past hp ⟨several, near⟩
    have one := (single past hp (by omega)).1
    rw [tries, if_neg (by omega), if_pos near] at one
    omega
  · intro apart past hp some
    have one : (first.after past).attempts .wake = 1 := by
      rw [tries, if_neg (by omega)]
      split
      · next near =>
        have few : ¬ 2 ≤ (first.after past).missed := fun h => apart past hp ⟨h, near⟩
        omega
      · rfl
    refine ⟨one, ?_⟩
    rw [after_concat, ← one]
    exact permits_wake_le _

/-- A stall over twenty-four instants, on a clock that counts nanoseconds. -/
theorem one_attempt_after_long_stall :
    let first := start 1 50000000 none 1000000 (by decide)
    let stalled : List Turn :=
      [.act (.fetch "gw1") rfl, .act (.poll 0 0) rfl, .pass 1234567890]
    0 < 1000000 ∧ (first.after stalled).missed = 24 ∧ (first.after stalled).attempts .wake = 1 := by
  intro first stalled
  have single := (one_attempt_per_wake_iff 1 50000000 none (by decide : 0 < 1000000)
    (stalled ++ [.wake])).2.mpr
  have apart : ∀ past, past ++ [.wake] <+: stalled ++ [.wake] →
      ¬ (2 ≤ (first.after past).missed ∧ (first.after past).delay ≤ 5 * 1000000) := by
    intro past hp
    rcases List.prefix_concat_iff.mp hp with h | h
    · rw [List.append_cancel_right h]
      decide
    · have woken : Turn.wake ∈ stalled := h.subset (List.mem_append_right _ List.mem_cons_self)
      simp [stalled] at woken
  exact ⟨by decide, by decide, (single apart stalled (List.prefix_refl _) (by decide)).1⟩

theorem missed_instants_made_up_for :
    let s := (start 3 1 none 1 (by decide)).after
      [.act (.fetch "gw1") rfl, .act (.fetch "gw2") rfl, .act (.fetch "gw3") rfl,
        .act (.poll 0 0) rfl, .act (.poll 1 0) rfl, .act (.poll 2 0) rfl, .pass 3]
    s.missed = 3 ∧ s.attempts .wake = 3 ∧ s.cache.available = 0 ∧
      (s.move .wake).cache.available = 3 := by
  decide

end Tended
end GatewayEnrichment
