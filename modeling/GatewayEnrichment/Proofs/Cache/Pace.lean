import GatewayEnrichment.Proofs.Cache.Permits
import GatewayEnrichment.Ticker

/-! How fast the lookups of a cache can follow each other. Its refills are due at instants that lie
a period apart, the first of them a period after the timer was armed. A refill may come late and
then takes the place of those that were due before it, but none comes early and no instant is served
twice. So up to any time there were at most as many refills as whole periods, and at most as many
lookups as that and the permits of the start. -/

namespace GatewayEnrichment

namespace Cache

def Move.stamped (now : Nat) : Move → Move
  | .event e _ => .event e now
  | .read id _ => .read id now
  | .poll t _ => .poll t now
  | .complete t answer _ => .complete t answer now
  | m => m

theorem Move.isRefill_stamped (now : Nat) (m : Move) : (m.stamped now).isRefill = m.isRefill := by
  cases m <;> rfl

end Cache

def millisecond : Nat := 1000000

/-- A cache with its clock, which starts with it, and its timer. The timer has a start once it has
been armed, and `place` counts the periods up to the instant that was served last. -/
structure Clocked where
  cache : Cache
  period : Nat
  period_pos : 0 < period
  now : Nat := 0
  armed : Option Nat := none
  place : Nat := 0

namespace Clocked

open Cache

def start (burst interval : Nat) (expiry : Option Nat) : Clocked where
  cache := .start burst expiry
  period := max interval millisecond
  period_pos := Nat.lt_of_lt_of_le (by decide) (Nat.le_max_right _ _)

inductive Turn where
  | act (m : Cache.Move) (other : m.isRefill = false)
  | pass (time : Nat)
  | arm
  | tick (place : Nat)

def isDue (s : Clocked) (place : Nat) : Bool :=
  match s.armed with
  | some start => s.place < place ∧ start + place * s.period ≤ s.now
  | none => false

def moves (s : Clocked) : Turn → List Cache.Move
  | .act m _ => [m.stamped s.now]
  | .tick place => if s.isDue place then [.refill] else []
  | _ => []

def move (s : Clocked) (t : Turn) : Clocked :=
  let s' := { s with cache := s.cache.after (s.moves t) }
  match t with
  | .act _ _ => s'
  | .pass time => { s' with now := s.now + time }
  | .arm => { s' with armed := s.armed.or (some s.now) }
  | .tick place => { s' with place := if s.isDue place then place else s.place }

def after (s : Clocked) (turns : List Turn) : Clocked := turns.foldl move s

def cacheMoves (s : Clocked) (turns : List Turn) : List Cache.Move := along move moves s turns

def lookupTimes (s : Clocked) (turns : List Turn) : List Nat :=
  along move (fun s t => (s.cache.lookedUp (s.moves t)).map fun _ => s.now) s turns

theorem after_concat (s : Clocked) (turns : List Turn) (t : Turn) :
    s.after (turns ++ [t]) = (s.after turns).move t := List.foldl_append

theorem cache_move (s : Clocked) (t : Turn) : (s.move t).cache = s.cache.after (s.moves t) := by
  cases t <;> rfl

theorem cache_after (s : Clocked) (turns : List Turn) :
    (s.after turns).cache = s.cache.after (s.cacheMoves turns) :=
  foldl_along move moves cache cache_move s turns

theorem length_lookupTimes (s : Clocked) (turns : List Turn) :
    (s.lookupTimes turns).length = (s.cache.lookedUp (s.cacheMoves turns)).length := by
  induction turns generalizing s with
  | nil => rfl
  | cons t turns ih =>
    have hl : s.cache.lookedUp (s.moves t ++ (s.move t).cacheMoves turns) =
        s.cache.lookedUp (s.moves t) ++
          (s.move t).cache.lookedUp ((s.move t).cacheMoves turns) := by
      rw [cache_move]
      exact along_append _ _ _ _ _
    have hm : s.cacheMoves (t :: turns) = s.moves t ++ (s.move t).cacheMoves turns := rfl
    rw [hm, hl, List.length_append, ← ih (s.move t), lookupTimes, along, List.length_append,
      List.length_map]
    rfl

/-! A refill takes an instant of its own, and none that lies ahead. -/

theorem period_move (s : Clocked) (t : Turn) : (s.move t).period = s.period := by
  cases t <;> rfl

theorem now_le_move (s : Clocked) (t : Turn) : s.now ≤ (s.move t).now := by
  cases t with
  | pass time => exact Nat.le_add_right _ _
  | act | arm | tick => exact Nat.le_refl _

theorem due_of_isDue {s : Clocked} {place : Nat} (h : s.isDue place = true) :
    s.place < place ∧ place * s.period ≤ s.now := by
  rw [isDue] at h
  split at h
  · exact (of_decide_eq_true h).imp_right Nat.le_of_add_left_le
  · cases h

theorem place_tick (s : Clocked) (place : Nat) :
    (s.move (.tick place)).place = if s.isDue place then place else s.place := rfl

theorem place_add_refills_le (s : Clocked) (t : Turn) :
    s.place + (s.moves t).countP Cache.Move.isRefill ≤ (s.move t).place := by
  cases t with
  | act m other =>
    have hm : (s.moves (.act m other)).countP Cache.Move.isRefill = 0 := by
      simp [moves, Move.isRefill_stamped, other]
    rw [hm]
    exact Nat.le_refl _
  | tick place =>
    have hm : s.moves (.tick place) = if s.isDue place then [.refill] else [] := rfl
    rw [hm, place_tick]
    split
    · next hd => exact (due_of_isDue hd).1
    · exact Nat.le_refl _
  | pass | arm => exact Nat.le_refl _

theorem place_move_le {s : Clocked} (h : s.place * s.period ≤ s.now) (t : Turn) :
    (s.move t).place * s.period ≤ s.now := by
  cases t with
  | tick place =>
    rw [place_tick]
    split
    · next hd => exact (due_of_isDue hd).2
    · exact h
  | act | pass | arm => exact h

structure Timely (s : Clocked) (refills : Nat) : Prop where
  served : refills ≤ s.place
  past : s.place * s.period ≤ s.now

theorem Timely.move {s : Clocked} {refills : Nat} (h : Timely s refills) (t : Turn) :
    Timely (s.move t) (refills + (s.moves t).countP Cache.Move.isRefill) where
  served := Nat.le_trans (Nat.add_le_add_right h.served _) (s.place_add_refills_le t)
  past := by
    rw [period_move]
    exact Nat.le_trans (place_move_le h.past t) (s.now_le_move t)

section

variable (burst interval : Nat) (expiry : Option Nat) (turns : List Turn)

theorem timely_after :
    Timely ((start burst interval expiry).after turns)
      (((start burst interval expiry).cacheMoves turns).countP Cache.Move.isRefill) := by
  induction turns using List.reverseRecOn with
  | nil => exact ⟨Nat.le_refl 0, Nat.le_of_eq (Nat.zero_mul _)⟩
  | append_singleton turns t ih =>
    rw [after_concat, cacheMoves, along_concat, List.countP_append]
    exact ih.move t

theorem period_after :
    ((start burst interval expiry).after turns).period = max interval millisecond :=
  foldl_unchanged period period_move _ turns

theorem length_lookupTimes_eq :
    ((start burst interval expiry).lookupTimes turns).length =
      ((start burst interval expiry).after turns).cache.lookups := by
  rw [length_lookupTimes, cache_after]
  exact (fetchesCounted burst expiry _).counted.symm

theorem lookups_le :
    ((start burst interval expiry).after turns).cache.lookups ≤
      burst + ((start burst interval expiry).after turns).now / max interval millisecond := by
  obtain ⟨served, past⟩ := timely_after burst interval expiry turns
  rw [period_after] at past
  have places := (Nat.le_div_iff_mul_le (start burst interval expiry).period_pos).mpr past
  rw [cache_after]
  exact Nat.le_trans (lookups_le_refills burst expiry _)
    (Nat.add_le_add_left (Nat.le_trans served places) burst)

/-- The lookups that a further turn leads to are those that the time before it allows: a turn that
lets time pass starts none. -/
theorem length_lookupTimes_concat_le (t : Turn) :
    ((start burst interval expiry).lookupTimes (turns ++ [t])).length ≤
      burst + ((start burst interval expiry).after turns).now / max interval millisecond := by
  let first := start burst interval expiry
  let s := first.after turns
  have looked : (first.after (turns ++ [t])).cache.lookups ≤
      burst + (first.cacheMoves (turns ++ [t])).countP Cache.Move.isRefill := by
    rw [cache_after]
    exact lookups_le_refills burst expiry _
  have served : (first.cacheMoves (turns ++ [t])).countP Cache.Move.isRefill ≤
      (s.move t).place := by
    have hs := (timely_after burst interval expiry (turns ++ [t])).served
    rw [after_concat] at hs
    exact hs
  have past : (s.move t).place ≤ s.now / max interval millisecond := by
    have hp := place_move_le (timely_after burst interval expiry turns).past t
    rw [period_after] at hp
    exact (Nat.le_div_iff_mul_le (start burst interval expiry).period_pos).mpr hp
  calc (first.lookupTimes (turns ++ [t])).length
      = (first.after (turns ++ [t])).cache.lookups := length_lookupTimes_eq _ _ _ _
    _ ≤ burst + (first.cacheMoves (turns ++ [t])).countP Cache.Move.isRefill := looked
    _ ≤ burst + (s.move t).place := Nat.add_le_add_left served _
    _ ≤ burst + s.now / max interval millisecond := Nat.add_le_add_left past _

end

/-- However the fetches come and end and however late the timer is served, no more lookups have
started by any time than the permits of the start and one for each whole period. -/
theorem lookups_paced (burst interval : Nat) (expiry : Option Nat) (turns : List Turn)
    (time : Nat) :
    let first := start burst interval expiry
    (first.after turns).cache.lookups = (first.lookupTimes turns).length ∧
      (first.lookupTimes turns).countP (· ≤ time) ≤ burst + time / max interval millisecond := by
  intro first
  refine ⟨(length_lookupTimes_eq burst interval expiry turns).symm, ?_⟩
  induction turns using List.reverseRecOn with
  | nil => exact Nat.zero_le _
  | append_singleton turns t ih =>
    let s := first.after turns
    by_cases hn : s.now ≤ time
    · calc (first.lookupTimes (turns ++ [t])).countP (· ≤ time)
          ≤ (first.lookupTimes (turns ++ [t])).length := List.countP_le_length
        _ ≤ burst + s.now / max interval millisecond :=
          length_lookupTimes_concat_le burst interval expiry turns t
        _ ≤ burst + time / max interval millisecond :=
          Nat.add_le_add_left (Nat.div_le_div_right hn) _
    · -- what starts now is too late to count
      have late : ((s.cache.lookedUp (s.moves t)).map fun _ => s.now).countP (· ≤ time) = 0 := by
        rw [List.countP_map, List.countP_eq_zero]
        exact fun _ _ => mt of_decide_eq_true hn
      have earlier : (first.lookupTimes (turns ++ [t])).countP (· ≤ time) =
          (first.lookupTimes turns).countP (· ≤ time) := by
        rw [lookupTimes, along_concat, List.countP_append]
        exact congrArg (_ + ·) late
      rw [earlier]
      exact ih

end Clocked

end GatewayEnrichment
