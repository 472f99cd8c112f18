import GatewayEnrichment.Proofs.Cache.Tending
import GatewayEnrichment.Proofs.Limiter.Backlog
import Mathlib.Data.List.Infix

/-! A backlog of fetches. They have all asked for a permit by the time the clock of the timer starts
to run, none of them is cancelled, and no other fetch is issued after them. As long as the timer is
served on time, one more lookup starts with each of its instants, in the order in which the fetches
have asked, until there is none left. -/

namespace GatewayEnrichment

namespace Cache

def arrived? (c : Cache) : Action → Option Ticket
  | .poll t _ =>
    match c.fetch? t with
    | some f => if f.stage = .issued then some t else none
    | none => none
  | _ => none

def arrivals (c : Cache) (moves : List Move) : List Ticket :=
  along move (fun c m => (c.arrived? m.action).toList) c moves

theorem Tracks.polled_step {c : Cache} {a : Limiter.Acquires} (h : Tracks c a) (x : Action) :
    (a.after (c.acquireMove? x).toList).polled = a.polled ++ (c.arrived? x).toList := by
  cases x with
  | poll t now =>
    rw [acquireMove?, arrived?]
    cases hf : c.fetch? t with
    | none => exact (List.append_nil _).symm
    | some f =>
      obtain ⟨hm, rfl⟩ := fetch?_eq_some hf
      have hd : f.ticket ∉ a.dropped := h.live f hm
      dsimp only
      cases hs : f.stage with
      | issued =>
        exact congrArg (·.polled) (Limiter.Acquires.move_poll_first hd (h.unpolled f hm hs))
      | queued =>
        refine Eq.trans ?_ (List.append_nil _).symm
        exact congrArg (·.polled) (Limiter.Acquires.move_poll_again hd (h.polled f hm hs))
      | looking since => exact (List.append_nil _).symm
  | cancel t =>
    rw [acquireMove?]
    refine Eq.trans ?_ (List.append_nil _).symm
    split
    · split <;> rfl
    · rfl
  | issue | complete | refill | read | remove => exact (List.append_nil _).symm

theorem arrivals_eq_polled (burst : Nat) (expiry : Option Nat) (moves : List Move) :
    (start burst expiry).arrivals moves =
      ((Limiter.Acquires.full burst).after ((start burst expiry).acquireMoves moves)).polled := by
  induction moves using List.reverseRecOn with
  | nil => rfl
  | append_singleton moves m ih =>
    have step := (tracks burst expiry moves).1.polled_step m.action
    rw [arrivals, along_concat, acquireMoves, along_concat, Limiter.Acquires.after,
      List.foldl_append]
    exact (congrArg (· ++ _) ih).trans step.symm

theorem isDrop_acquireMoves (c : Cache) {moves : List Move} (kept : c.cancellations moves = []) :
    ∀ m ∈ c.acquireMoves moves, m.isDrop = false := by
  induction moves generalizing c with
  | nil => exact fun m hm => absurd hm List.not_mem_nil
  | cons x moves ih =>
    obtain ⟨here, later⟩ := List.append_eq_nil_iff.mp kept
    intro m hm
    rcases List.mem_append.mp hm with hm | hm
    · rw [Option.mem_toList] at hm
      change (c.cancelled? x.action).toList = [] at here
      generalize x.action = action at here hm
      cases action with
      | poll t now =>
        rw [acquireMove?] at hm
        split at hm
        · split at hm <;> cases hm
          rfl
        · cases hm
      | cancel t =>
        have none : c.fetch? t = none := Option.toList_eq_nil_iff.mp here
        rw [acquireMove?, none] at hm
        cases hm
      | refill => cases hm; rfl
      | issue | complete | read | remove => cases hm
    · exact ih (c.move x) later m hm

/-- All fetches have asked for a permit after the opening and no other is issued after that; none of
them is cancelled at all. -/
structure Backlog (c : Cache) (opening rest : List Move) : Prop where
  asked : ∀ f ∈ (c.after opening).fetches, f.stage ≠ .issued
  kept : c.cancellations (opening ++ rest) = []
  closed : (c.after (opening ++ rest)).issued = (c.after opening).issued

section

variable (burst : Nat) (expiry : Option Nat)

theorem nodup_arrivals (moves : List Move) : ((start burst expiry).arrivals moves).Nodup := by
  rw [arrivals_eq_polled]
  exact (Limiter.InTurn.after burst _).polledOnce

theorem arrivals_lt_issued (moves : List Move) :
    ∀ t ∈ (start burst expiry).arrivals moves, t < ((start burst expiry).after moves).issued := by
  intro t ht
  rw [arrivals_eq_polled] at ht
  exact (tracks burst expiry moves).1.known t (.inl ht)

theorem lookedUp_subset_arrivals (moves : List Move) :
    (start burst expiry).lookedUp moves ⊆ (start burst expiry).arrivals moves := by
  rw [arrivals_eq_polled, (tracks burst expiry moves).2]
  have inTurn := Limiter.InTurn.after burst ((start burst expiry).acquireMoves moves)
  exact fun t ht => inTurn.polled_of_granted (inTurn.used ht)

end

namespace Backlog

variable {burst : Nat} {expiry : Option Nat} {opening rest : List Move}
  (h : (start burst expiry).Backlog opening rest)

include h

theorem arrivals_perm_range :
    ((start burst expiry).arrivals opening).Perm
      (List.range ((start burst expiry).after opening).issued) := by
  have counted := fetchesCounted burst expiry opening
  have tracked := (tracks burst expiry opening).1
  have kept : (start burst expiry).cancellations opening = [] := by
    have all := h.kept
    rw [cancellations, along_append] at all
    exact (List.append_eq_nil_iff.mp all).1
  rw [kept] at counted
  rw [List.perm_ext_iff_of_nodup (nodup_arrivals burst expiry opening) List.nodup_range]
  intro t
  rw [List.mem_range]
  refine ⟨arrivals_lt_issued burst expiry opening t, fun ht => ?_⟩
  have fate := counted.fates.mem_iff.mpr (List.mem_range.mpr ht)
  rw [List.map_nil, List.append_nil, List.mem_append] at fate
  have looked : t ∈ ((start burst expiry).after opening).inLookup ++
      ((start burst expiry).landings opening).map (·.ticket) →
      t ∈ (start burst expiry).arrivals opening := by
    intro hl
    refine lookedUp_subset_arrivals burst expiry opening (counted.lookups.mem_iff.mpr ?_)
    exact List.mem_append_left _ hl
  rcases fate with live | landed
  · obtain ⟨f, hm, rfl⟩ := mem_tickets.mp live
    cases hs : f.stage with
    | issued => exact absurd hs (h.asked f hm)
    | queued =>
      rw [arrivals_eq_polled]
      exact tracked.polled f hm hs
    | looking since =>
      refine looked (List.mem_append_left _ ?_)
      rw [ticket_mem_inLookup counted.nodup_tickets hm, hs]
      rfl
  · exact looked (List.mem_append_right _ landed)

theorem arrivals_append :
    (start burst expiry).arrivals (opening ++ rest) = (start burst expiry).arrivals opening := by
  have early : (start burst expiry).arrivals opening <+:
      (start burst expiry).arrivals (opening ++ rest) := by
    rw [arrivals, arrivals, along_append]
    exact List.prefix_append _ _
  have among : (start burst expiry).arrivals (opening ++ rest) ⊆
      (start burst expiry).arrivals opening := by
    intro t ht
    have known := arrivals_lt_issued burst expiry (opening ++ rest) t ht
    rw [h.closed] at known
    exact h.arrivals_perm_range.mem_iff.mpr (List.mem_range.mpr known)
  have few := (List.subperm_of_subset (nodup_arrivals burst expiry _) among).length_le
  exact (early.eq_of_length_le few).symm

theorem lookedUp_perm_take (pos : 0 < burst) (early : opening.countP Move.isRefill = 0)
    (collected : ((start burst expiry).after (opening ++ rest)).limiter.handed = []) :
    ((start burst expiry).lookedUp (opening ++ rest)).Perm
      (((start burst expiry).arrivals opening).take (burst + rest.countP Move.isRefill)) := by
  let first := start burst expiry
  have tracked := (tracks burst expiry (opening ++ rest)).1
  have drops := isDrop_acquireMoves first h.kept
  have nobody := h.arrivals_append
  have moves : first.acquireMoves (opening ++ rest) =
      first.acquireMoves opening ++ (first.after opening).acquireMoves rest :=
    along_append _ _ _ _ _
  rw [← count_refill_acquireMoves first] at early
  rw [← tracked.limiter] at collected
  rw [arrivals_eq_polled, arrivals_eq_polled] at nobody
  rw [moves] at drops collected nobody
  rw [(tracks burst expiry _).2, arrivals_eq_polled, moves,
    ← count_refill_acquireMoves (first.after opening)]
  exact Limiter.completions_perm_take pos drops nobody early collected

end Backlog

end Cache

namespace Tended

open Cache

def cacheMoves (s : Tended) (turns : List Turn) : List Cache.Move := along move moves s turns

theorem cache_after (s : Tended) (turns : List Turn) :
    (s.after turns).cache = s.cache.after (s.cacheMoves turns) :=
  foldl_along move moves cache cache_move s turns

def OnTime (s : Tended) (turns : List Turn) : Prop :=
  ∀ past, past <+: turns → (s.after past).now ≤ (s.after past).ticker.due

theorem OnGrid.attempts_of_punctual {s : Tended} (h : s.OnGrid) (punctual : s.now ≤ s.ticker.due) :
    s.ran / s.ticker.period + s.attempts .wake = s.now / s.ticker.period := by
  rw [attempts_wake_eq_rounds, h.now_div_period, Ticker.rounds]
  split
  · rfl
  · rw [Nat.sub_eq_zero_of_le punctual, if_pos (Nat.zero_le _), Nat.zero_div]

section

variable (burst interval : Nat) (expiry : Option Nat) {millisecond : Nat}
  (unit : 0 < millisecond) {turns : List Turn}

theorem refills_of_onTime (onTime : (start burst interval expiry millisecond unit).OnTime turns) :
    ((start burst interval expiry millisecond unit).cacheMoves turns).countP Cache.Move.isRefill =
      ((start burst interval expiry millisecond unit).after turns).ran /
        max interval millisecond := by
  induction turns using List.reverseRecOn with
  | nil => exact (Nat.zero_div _).symm
  | append_singleton turns t ih =>
    let s := (start burst interval expiry millisecond unit).after turns
    have before := ih fun past hp => onTime past (hp.trans (List.prefix_append _ _))
    have now := onTime turns (List.prefix_append _ _)
    rw [cacheMoves, along_concat, List.countP_append, after_concat]
    change ((start burst interval expiry millisecond unit).cacheMoves turns).countP _ +
      s.attempts t = _
    rw [before]
    cases t with
    | act m other =>
      have none : s.attempts (.act m other) = 0 := by
        rw [attempts, moves, List.countP_singleton, Move.isRefill_stamped, other]
        rfl
      rw [none]
      rfl
    | pass time => rfl
    | wake =>
      have wake := (onGrid_after burst interval expiry unit turns).attempts_of_punctual now
      rw [period_after] at wake
      exact wake

end

structure Backlog (first : Tended) (opening rest : List Turn) : Prop where
  fetches : first.cache.Backlog (first.cacheMoves opening) ((first.after opening).cacheMoves rest)
  atOnce : (first.after opening).now = 0
  onTime : first.OnTime (opening ++ rest)

structure Settled (s : Tended) : Prop where
  served : s.now < s.ticker.due
  collected : s.cache.limiter.handed = []

namespace Backlog

variable {burst interval : Nat} {expiry : Option Nat} {millisecond : Nat} {unit : 0 < millisecond}
  {opening rest : List Turn}
  (h : Backlog (start burst interval expiry millisecond unit) opening rest)

include h

theorem refills_opening :
    ((start burst interval expiry millisecond unit).cacheMoves opening).countP
      Cache.Move.isRefill = 0 := by
  have ran : ((start burst interval expiry millisecond unit).after opening).ran = 0 :=
    Nat.le_zero.mp (h.atOnce ▸ (onGrid_after burst interval expiry unit opening).past)
  have onTime : (start burst interval expiry millisecond unit).OnTime opening := fun past hp =>
    h.onTime past (hp.trans (List.prefix_append _ _))
  rw [refills_of_onTime burst interval expiry unit onTime, ran, Nat.zero_div]

theorem refills_rest
    (settled : ((start burst interval expiry millisecond unit).after (opening ++ rest)).Settled) :
    (((start burst interval expiry millisecond unit).after opening).cacheMoves rest).countP
        Cache.Move.isRefill =
      ((start burst interval expiry millisecond unit).after (opening ++ rest)).now /
        max interval millisecond := by
  have all := refills_of_onTime burst interval expiry unit h.onTime
  have seen := (onGrid_after burst interval expiry unit (opening ++ rest)).now_div_period
  rw [if_pos settled.served, period_after] at seen
  rw [cacheMoves, along_append, List.countP_append, ← seen] at all
  have none := h.refills_opening
  rw [cacheMoves] at none
  rw [none, Nat.zero_add] at all
  exact all

end Backlog

/-- One lookup starts with each instant of the timer, beyond those of the burst, until every fetch
of the backlog has started its own. They start in the order in which the fetches have asked. -/
theorem backlog_drained_in_turn {burst : Nat} (pos : 0 < burst) (interval : Nat)
    (expiry : Option Nat) {millisecond : Nat} (unit : 0 < millisecond) (opening rest : List Turn)
    (backlog : Backlog (start burst interval expiry millisecond unit) opening rest)
    (settled : ((start burst interval expiry millisecond unit).after (opening ++ rest)).Settled) :
    let first := start burst interval expiry millisecond unit
    let last := first.after (opening ++ rest)
    let fetches := (first.after opening).cache.issued
    let order := first.cache.arrivals (first.cacheMoves opening)
    let due := burst + last.now / max interval millisecond
    order.Perm (List.range fetches) ∧ last.cache.lookups = min fetches due ∧
      (first.cache.lookedUp (first.cacheMoves (opening ++ rest))).Perm (order.take due) := by
  intro first last fetches order due
  let before := first.cacheMoves opening
  let later := (first.after opening).cacheMoves rest
  have moves : first.cacheMoves (opening ++ rest) = before ++ later := along_append _ _ _ _ _
  have begun : (first.after opening).cache = first.cache.after before := cache_after first opening
  have ended : last.cache = first.cache.after (before ++ later) := by
    rw [← moves]
    exact cache_after first (opening ++ rest)
  have arrived : order.Perm (List.range fetches) := by
    change order.Perm (List.range (first.after opening).cache.issued)
    rw [begun]
    exact backlog.fetches.arrivals_perm_range
  have looked : (first.cache.lookedUp (before ++ later)).Perm (order.take due) := by
    have taken := backlog.fetches.lookedUp_perm_take pos backlog.refills_opening
      (ended ▸ settled.collected)
    rw [backlog.refills_rest settled] at taken
    exact taken
  refine ⟨arrived, ?_, moves ▸ looked⟩
  calc last.cache.lookups
      = (first.cache.lookedUp (before ++ later)).length := by
        rw [ended]
        exact (fetchesCounted burst expiry (before ++ later)).counted
    _ = min due order.length := by rw [looked.length_eq, List.length_take]
    _ = min fetches due := by rw [arrived.length_eq, List.length_range, Nat.min_comm]

/-- Two of three fetches have started their lookups when the first instant has passed, the one that
has failed by then included. -/
theorem two_of_three_drained :
    let first := start 1 2000 none 1000 (by decide)
    let opening : List Turn :=
      [.act (.fetch "gw1") rfl, .act (.fetch "gw2") rfl, .act (.fetch "gw3") rfl,
        .act (.poll 1 0) rfl, .act (.poll 0 0) rfl, .act (.poll 2 0) rfl]
    let rest : List Turn :=
      [.pass 500, .act (.complete 1 (.error .notFound) 0) rfl, .act (.read "gw9" 0) rfl,
        .pass 1500, .wake, .act (.poll 0 0) rfl, .act (.remove "gw2") rfl, .pass 500]
    0 < 1 ∧ 0 < 1000 ∧ Backlog first opening rest ∧ (first.after (opening ++ rest)).Settled ∧
      (first.after (opening ++ rest)).cache.lookups = 2 ∧
        (first.cache.lookedUp (first.cacheMoves (opening ++ rest))).Perm [1, 0] := by
  intro first opening rest
  have onTime : ∀ past ∈ (opening ++ rest).inits,
      (first.after past).now ≤ (first.after past).ticker.due := by decide
  have fetches : first.cache.Backlog (first.cacheMoves opening)
      ((first.after opening).cacheMoves rest) := ⟨by decide, by decide, by decide⟩
  have backlog : Backlog first opening rest :=
    ⟨fetches, by decide, fun past hp => onTime past ((List.mem_inits _ _).mpr hp)⟩
  have settled : (first.after (opening ++ rest)).Settled := ⟨by decide, by decide⟩
  obtain ⟨-, lookups, looked⟩ := backlog_drained_in_turn (by decide : 0 < 1) 2000 none
    (by decide : 0 < 1000) opening rest backlog settled
  exact ⟨by decide, by decide, backlog, settled, lookups.trans (by decide),
    looked.trans (by decide)⟩

end Tended
end GatewayEnrichment
