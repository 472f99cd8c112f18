import GatewayEnrichment.Proofs.Cache.Moves
import GatewayEnrichment.Proofs.Prefixes

/-! Refreshes of one gateway. A read that asks for a refresh stamps the gateway, which keeps the
reads after it from asking again for as long as the expiry, and no longer: nothing looks at whether
the refresh has ended. Two refreshes of a gateway are under way at the same time exactly when a
read comes later than that. -/

namespace GatewayEnrichment

def Fetch.isRefreshOf (g : String) (f : Fetch) : Bool := f.purpose = .refresh ∧ f.gatewayId = g

namespace Cache

def refreshes (c : Cache) (g : String) : Nat := c.fetches.countP (Fetch.isRefreshOf g)

variable {c : Cache} {g : String} {m : Move}

theorem Move.purpose_of_issue {purpose : Purpose} {id : String}
    (h : m.action = .issue purpose id) : purpose ≠ .refresh := by
  cases m with
  | event e now =>
    cases e with
    | connect => cases h; decide
    | disconnect | uplink | status => cases h
  | fetch => cases h; decide
  | _ => cases h

theorem refreshes_setStage (c : Cache) (g : String) (t : Ticket) (stage : Stage) :
    (c.setStage t stage).refreshes g = c.refreshes g := by
  rw [refreshes, setStage, List.countP_map, refreshes]
  congr 1
  funext f
  by_cases h : f.ticket = t <;> simp [h, Fetch.isRefreshOf]

theorem refreshes_drop_le (c : Cache) (g : String) (t : Ticket) :
    (c.drop t).refreshes g ≤ c.refreshes g :=
  List.filter_sublist.countP_le

theorem isRefreshOf_of_issued {f : Fetch} (hf : c.issued? m.action = some f)
    (h : ∀ now, m.action = .read g now → (c.store.get g now).1.needsRefresh = false) :
    f.isRefreshOf g = false := by
  by_cases hg : f.gatewayId = g
  · subst hg
    rcases action_of_issued hf with ⟨purpose, ha⟩ | ⟨now, ha, hr⟩
    · have hp : purpose ≠ .refresh := Move.purpose_of_issue ha
      rw [ha, issued?, Option.some.injEq] at hf
      rw [← hf]
      simp [Fetch.isRefreshOf, hp]
    · rw [h now ha] at hr
      cases hr
  · simp [Fetch.isRefreshOf, hg]

theorem refreshes_move_le
    (h : ∀ now, m.action = .read g now → (c.store.get g now).1.needsRefresh = false) :
    (c.move m).refreshes g ≤ c.refreshes g := by
  rw [move_eq_step]
  rcases c.fetches_step m.action with hs | ⟨-, t, ⟨stage, hs⟩ | hs⟩
  · rw [refreshes, hs]
    cases hf : c.issued? m.action with
    | none =>
      rw [Option.toList_none, List.append_nil]
      exact Nat.le_refl _
    | some f =>
      have hn : f.isRefreshOf g = false := isRefreshOf_of_issued hf h
      rw [Option.toList_some, List.countP_append, List.countP_singleton, hn]
      exact Nat.le_refl _
  · rw [refreshes, hs]
    exact Nat.le_of_eq (c.refreshes_setStage g t stage)
  · rw [refreshes, hs]
    exact c.refreshes_drop_le g t

theorem refreshes_move_of_read {now : Nat} (ha : m.action = .read g now)
    (hr : (c.store.get g now).1.needsRefresh = true) :
    (c.move m).refreshes g = c.refreshes g + 1 := by
  have hi : c.issued? m.action = some ⟨c.issued, g, .refresh, .issued⟩ := by
    rw [ha, issued?, if_pos hr]
  rw [refreshes, move_eq_step, fetches_step_of_issued hi, List.countP_append, List.countP_singleton]
  simp [refreshes, Fetch.isRefreshOf]

theorem refreshes_move_le_one_iff (h : c.refreshes g ≤ 1) :
    (c.move m).refreshes g ≤ 1 ↔ ∀ now, m.action = .read g now → 0 < c.refreshes g →
      (c.store.get g now).1.needsRefresh = false := by
  constructor
  · intro hm now ha hpos
    cases hr : (c.store.get g now).1.needsRefresh with
    | false => rfl
    | true =>
      have hs := refreshes_move_of_read ha hr
      omega
  · intro hm
    -- a read that asks is harmless while no refresh is under way, and any other move adds none
    by_cases hasks : ∃ now, m.action = .read g now ∧ (c.store.get g now).1.needsRefresh = true
    · obtain ⟨now, ha, hr⟩ := hasks
      have hz : ¬ 0 < c.refreshes g := fun hpos => by
        rw [hm now ha hpos] at hr
        cases hr
      have hs := refreshes_move_of_read ha hr
      omega
    · have hn : ∀ now, m.action = .read g now → (c.store.get g now).1.needsRefresh = false :=
        fun now ha => Bool.eq_false_iff.mpr fun hr => hasks ⟨now, ha, hr⟩
      exact Nat.le_trans (refreshes_move_le hn) h

/-- At most one refresh of a gateway is under way all along a run if and only if each read of the
gateway that meets a refresh under way finds the gateway forgotten or not overdue. -/
theorem at_most_one_refresh_iff (burst : Nat) (expiry : Option Nat) (moves : List Move)
    (g : String) :
    (∀ past, past <+: moves → ((start burst expiry).after past).refreshes g ≤ 1) ↔
      ∀ past m, past ++ [m] <+: moves → ∀ now, m.action = .read g now →
        0 < ((start burst expiry).after past).refreshes g →
          ((start burst expiry).history past).writes g = [] ∨
            ((start burst expiry).history past).isOverdue g expiry now = false := by
  refine forall_prefix_iff (Nat.zero_le _) (fun past m h => ?_) moves
  rw [after_concat, refreshes_move_le_one_iff h]
  have hf := follows_history burst expiry past
  simp only [hf.info_eq, Store.History.needsRefresh_info_eq_false_iff]

theorem two_refreshes_of_slow_lookup :
    ((start 2 (some 10)).after [.event (.connect ⟨"gw1"⟩) 0, .poll 0 0,
      .complete 0 (.ok { id := "gw1" }) 0, .read "gw1" 11, .poll 1 11,
      .read "gw1" 22]).refreshes "gw1" = 2 := by
  decide

end Cache
end GatewayEnrichment
