import GatewayEnrichment.Program
import GatewayEnrichment.Proofs.Cache.Moves
import GatewayEnrichment.Proofs.Settings.Reading

/-! Which settings a cache can be run with. The settings that are accepted have at least one permit,
and their numbers fit in sixty-four bits. With such an interval the clock can always tell when the
timer is due first, but a pool holds fewer permits than such a burst may ask for. -/

namespace GatewayEnrichment

namespace Settings

structure InWords (s : Settings) : Prop where
  interval : s.requestIntervalMs < UInt64.size
  burst : s.requestBurst < UInt64.size
  expire : s.expireSecs < UInt64.size
  timeout : s.directoryTimeoutSecs < UInt64.size

theorem FilledFrom.inWords {env : Environment} {s : Settings} (h : FilledFrom env s) :
    s.InWords := by
  have defaults : ∀ v ∈ Settings.numbers, v.2 {} < UInt64.size := by
    simp only [Settings.numbers, List.forall_mem_cons]
    decide
  have word : ∀ v ∈ Settings.numbers, v.2 s < UInt64.size := by
    intro v hv
    obtain ⟨-, same⟩ | ⟨_, -, denotes⟩ := naturalOf_eq_ok_iff.mp (h.numbers v hv)
    · rw [← same]
      exact defaults v hv
    · exact denotes.lt
  simp only [Settings.numbers, List.forall_mem_cons] at word
  exact ⟨word.1, word.2.1, word.2.2.1, word.2.2.2.1⟩

theorem accepted_of_fromEnvironment {env : Environment} {s : Settings}
    (h : fromEnvironment env = .ok s) : s.InWords ∧ validate s = .ok s := by
  obtain ⟨filled, some⟩ := fromEnvironment_eq_ok_iff.mp h
  exact ⟨filled.inWords, if_neg some⟩

end Settings

namespace Instant

/-- The instants that lie a whole word of milliseconds before the last second of the clock. -/
def Early (i : Instant) : Prop :=
  i.seconds.toInt + (UInt64.size / 1000 + 1 : Nat) ≤ Int64.maxValue.toInt

theorem exists_later? {i : Instant} (early : i.Early) {milliseconds : Nat}
    (word : milliseconds < UInt64.size) : ∃ j, i.later? milliseconds = some j := by
  have whole : milliseconds / 1000 ≤ UInt64.size / 1000 := Nat.div_le_div_right (Nat.le_of_lt word)
  have carried : (i.nanoseconds.val + milliseconds % 1000 * 1000000) / 1000000000 ≤ 1 := by
    have := i.nanoseconds.isLt
    omega
  have told : i.seconds.toInt + Int.ofNat (milliseconds / 1000 +
      (i.nanoseconds.val + milliseconds % 1000 * 1000000) / 1000000000) ≤
        Int64.maxValue.toInt := by
    refine Int.le_trans (Int.add_le_add_left ?_ _) early
    exact Int.ofNat_le.mpr (Nat.add_le_add whole carried)
  exact ⟨_, if_pos told⟩

end Instant

theorem Ticker.arm?_eq_start {clock : Instant} (early : clock.Early) {interval : Nat}
    (word : interval < UInt64.size) : Ticker.arm? interval clock = some (.start interval 0) := by
  have period : max interval 1 < UInt64.size := Nat.max_lt.mpr ⟨word, by decide⟩
  obtain ⟨first, hfirst⟩ := Instant.exists_later? early period
  rw [arm?, hfirst]
  rfl

namespace Settings

def Accepted (s : Settings) : Prop :=
  (∃ env, fromEnvironment env = .ok s) ∨ (s.InWords ∧ validate s = .ok s)

theorem Accepted.inWords {s : Settings} (h : s.Accepted) : s.InWords := by
  rcases h with ⟨env, h⟩ | ⟨h, -⟩
  · exact (accepted_of_fromEnvironment h).1
  · exact h

/-- Accepted settings start a cache that has as many permits as their burst, with a timer, if and
only if a pool can hold so many. -/
theorem starts_iff_of_accepted {s : Settings} (accepted : s.Accepted) (source : Source)
    {clock : Instant} (early : clock.Early) :
    ((∃ schedule, Schedule.ofSettings source s clock = .ok schedule ∧
        schedule.cache.available = s.requestBurst ∧
        schedule.ticker = some (.start s.requestIntervalMs 0)) ↔
      s.requestBurst ≤ Limiter.maxPermits) ∧
    (Limiter.maxPermits < s.requestBurst →
      Schedule.ofSettings source s clock = .error ⟨s.requestBurst⟩) := by
  have armed : Ticker.arm? s.requestIntervalMs clock = some (.start s.requestIntervalMs 0) :=
    Ticker.arm?_eq_start early accepted.inWords.interval
  have refused (h : Limiter.maxPermits < s.requestBurst) :
      Schedule.ofSettings source s clock = .error ⟨s.requestBurst⟩ := by
    rw [Schedule.ofSettings, Schedule.start, Cache.ofBurst, Limiter.ofBurst, if_pos h]
    rfl
  refine ⟨⟨?_, ?_⟩, refused⟩
  · rintro ⟨schedule, started, -⟩
    refine Nat.not_lt.mp fun h => ?_
    rw [refused h] at started
    cases started
  · intro h
    rw [Schedule.ofSettings, Schedule.start, Cache.ofBurst_eq_start h, armed]
    exact ⟨_, rfl, rfl, rfl⟩

theorem starts_with_largest_burst :
    let s : Settings :=
      { requestBurst := 2305843009213693951, requestIntervalMs := 18446744073709551615 }
    let source : Source := .memory .empty
    let clock : Instant := ⟨1000000, 999999999⟩
    s.Accepted ∧ clock.Early ∧ ∃ schedule, Schedule.ofSettings source s clock = .ok schedule ∧
      schedule.cache.available = s.requestBurst ∧
      schedule.ticker = some (.start s.requestIntervalMs 0) := by
  intro s source clock
  have accepted : s.Accepted := .inr ⟨⟨by decide, by decide, by decide, by decide⟩, rfl⟩
  have early : clock.Early := by
    unfold Instant.Early
    decide
  exact ⟨accepted, early, (starts_iff_of_accepted accepted source early).1.mpr (by decide)⟩

theorem accepted_burst_does_not_start :
    let env : Environment := fun name =>
      if name = "REQUEST_BURST" then some (octets "2305843009213693952") else none
    ∃ s, fromEnvironment env = .ok s ∧
      ∀ content clock, ∃ e, Program.start s content clock = .error e ∧ e.exitCode = 101 := by
  intro env
  let s : Settings := { requestBurst := 2305843009213693952 }
  have read : fromEnvironment env = .ok s := by
    decide +kernel
  refine ⟨s, read, fun content clock => ⟨.permits ⟨s.requestBurst⟩, ?_, rfl⟩⟩
  rfl

end Settings
end GatewayEnrichment
