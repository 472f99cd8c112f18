import GatewayEnrichment.Proofs.Store.History

/-! How far apart the refreshes of a gateway are. While the clock does not go back, what is stored
for a gateway is never stamped before an earlier stamp of it: each new stamp lies later, and a
gateway that was removed has no stamp until something is stored for it again. So a read that asks
for a refresh comes more than the expiry after everything that has stamped the gateway. -/

namespace GatewayEnrichment.Store

def Call.instant? : Call → Option Nat
  | .setSuccess _ _ now | .setFailure _ _ now | .get _ now => some now
  | .remove _ | .setExpiry _ => none

def InOrder (calls : List Call) : Prop := (calls.filterMap Call.instant?).Pairwise (· ≤ ·)

theorem Call.instant?_of_write {c : Call} {id : String} {now : Nat}
    {outcome : Except LookupFailure GatewayRecord} (h : c.write? id = some (now, outcome)) :
    c.instant? = some now := by
  cases c with
  | setSuccess other record t | setFailure other e t =>
    obtain ⟨-, hw⟩ := Option.ite_none_right_eq_some.mp h
    exact congrArg (some ·.1) (Option.some.inj hw)
  | get | remove | setExpiry => cases h

theorem Served.instant?_of_stamp {s : Served} {id : String} {now : Nat}
    (h : s.stamp? id = some now) : s.call.instant? = some now := by
  rcases Option.or_eq_some_iff.mp h with h | ⟨-, h⟩
  · obtain ⟨⟨t, outcome⟩, hw, rfl⟩ := Option.map_eq_some_iff.mp h
    exact Call.instant?_of_write hw
  · obtain ⟨c, r⟩ := s
    cases c with
    | get other t =>
      obtain ⟨-, ht⟩ := Option.ite_none_right_eq_some.mp h
      exact ht
    | setSuccess | setFailure | remove | setExpiry => cases h

namespace History

variable {past : History} {id : String} {start : Nat}

/-- The gateway is stamped no earlier than `start`, if it is stamped at all. -/
def StampedSince (past : History) (id : String) (start : Nat) : Prop :=
  ∀ stamp ∈ past.stamp id, start ≤ stamp

theorem StampedSince.cons (h : past.StampedSince id start) {s : Served}
    (late : ∀ now ∈ s.call.instant?, start ≤ now) : StampedSince (s :: past) id start := by
  intro stamp hstamp
  rw [stamp_cons] at hstamp
  split at hstamp
  · cases hstamp
  · rcases Option.or_eq_some_iff.mp hstamp with own | ⟨-, earlier⟩
    · exact late stamp (Served.instant?_of_stamp own)
    · exact h stamp earlier

theorem stampedSince_of_stamp {s : Served} (h : s.stamp? id = some start) :
    StampedSince (s :: past) id start := by
  intro stamp hstamp
  rw [stamp_cons] at hstamp
  split at hstamp
  · cases hstamp
  · rw [h] at hstamp
    exact Nat.le_of_eq (Option.some.inj hstamp)

theorem StampedSince.append_history (h : past.StampedSince id start) (s : Store) {calls : List Call}
    (late : ∀ now ∈ calls.filterMap Call.instant?, start ≤ now) :
    StampedSince (s.history calls ++ past) id start := by
  induction calls using List.reverseRecOn with
  | nil => exact h
  | append_singleton calls c ih =>
    rw [List.filterMap_append] at late
    have before : StampedSince (s.history calls ++ past) id start :=
      ih fun now hnow => late now (List.mem_append_left _ hnow)
    rw [history_concat]
    refine before.cons fun now hnow => late now (List.mem_append_right _ ?_)
    exact List.mem_filterMap.mpr ⟨c, List.mem_singleton_self c, hnow⟩

end History

theorem Follows.exists_stamp_of_needsRefresh {s : Store} {initial : Option Nat} {past : History}
    (h : Follows s initial past) {id : String} {now : Nat}
    (asks : (s.get id now).1.needsRefresh = true) :
    ∃ expiry ∈ past.expiry initial, ∃ stamp ∈ past.stamp id, expiry < now - stamp := by
  rw [h.info_eq, History.info] at asks
  split at asks
  · cases asks
  · have overdue : past.isOverdue id initial now = true := asks
    rw [History.isOverdue] at overdue
    split at overdue
    · next expiry stamp he hs => exact ⟨expiry, he, stamp, hs, of_decide_eq_true overdue⟩
    · cases overdue

section

variable {initial : Option Nat} {before between : List Call} {first : Call} {id : String}
  {now : Nat}
  (inOrder : InOrder (before ++ first :: between ++ [Call.get id now]))

include inOrder

theorem InOrder.le_of_between {start : Nat} (h : first.instant? = some start) :
    (∀ t ∈ between.filterMap Call.instant?, start ≤ t) ∧ start ≤ now := by
  have later :
      ((first :: between ++ [Call.get id now]).filterMap Call.instant?).Pairwise (· ≤ ·) := by
    rw [InOrder, List.append_assoc, List.filterMap_append] at inOrder
    exact (List.pairwise_append.mp inOrder).2.1
  rw [List.cons_append, List.filterMap_cons_some h, List.filterMap_append] at later
  have all := (List.pairwise_cons.mp later).1
  refine ⟨fun t ht => all t (List.mem_append_left _ ht), all now (List.mem_append_right _ ?_)⟩
  exact List.mem_singleton_self now

theorem expiry_lt_of_stamped {start : Nat}
    (stamped : Served.stamp? id ⟨first, ((withExpiry initial).after before).reply first⟩ =
      some start)
    (asks : (((withExpiry initial).after (before ++ first :: between)).get id now).1.needsRefresh =
      true) :
    ∃ expiry ∈ ((withExpiry initial).history (before ++ first :: between)).expiry initial,
      expiry < now - start := by
  let s := (withExpiry initial).after before
  have late := (inOrder.le_of_between (Served.instant?_of_stamp stamped)).1
  have split : (withExpiry initial).history (before ++ first :: between) =
      (s.serve first).history between ++
        ⟨first, s.reply first⟩ :: (withExpiry initial).history before := by
    rw [history_append, history, List.append_assoc]
    rfl
  have since :
      ((withExpiry initial).history (before ++ first :: between)).StampedSince id start := by
    rw [split]
    exact (History.stampedSince_of_stamp stamped).append_history (s.serve first) late
  obtain ⟨expiry, inForce, stamp, hstamp, passed⟩ :=
    (follows_history initial (before ++ first :: between)).exists_stamp_of_needsRefresh asks
  refine ⟨expiry, inForce, Nat.lt_of_lt_of_le passed (Nat.sub_le_sub_left ?_ now)⟩
  exact since stamp hstamp

end

/-- Two reads that both ask for a refresh of a gateway lie more than the expiry apart that is in
force at the second one, and no read asks for a refresh until more than the expiry has passed since
an outcome was stored, whatever else happens to the gateway in between. -/
theorem refreshes_spaced_by_expiry {initial : Option Nat} {before between : List Call}
    {first : Call} {id : String} {now : Nat}
    (inOrder : InOrder (before ++ first :: between ++ [Call.get id now])) :
    let earlier := (withExpiry initial).after before
    let later := (withExpiry initial).after (before ++ first :: between)
    let inForce := ((withExpiry initial).history (before ++ first :: between)).expiry initial
    (∀ start, first = .get id start → (earlier.get id start).1.needsRefresh = true →
      (later.get id now).1.needsRefresh = true → ∃ expiry ∈ inForce, expiry < now - start) ∧
    (∀ start outcome, first.write? id = some (start, outcome) →
      (∀ expiry ∈ inForce, now ≤ start + expiry) → (later.get id now).1.needsRefresh = false) := by
  intro earlier later inForce
  constructor
  · rintro start rfl asked asks
    have stamped : Served.stamp? id ⟨.get id start, earlier.reply (.get id start)⟩ = some start :=
      if_pos ⟨rfl, asked⟩
    exact expiry_lt_of_stamped inOrder stamped asks
  · intro start outcome write fresh
    have stamped : Served.stamp? id ⟨first, earlier.reply first⟩ = some start := by
      rw [Served.stamp?, write]
      rfl
    refine Bool.eq_false_iff.mpr fun asks => ?_
    obtain ⟨expiry, he, passed⟩ := expiry_lt_of_stamped inOrder stamped asks
    have ended : now ≤ start + expiry := fresh expiry he
    omega

theorem refreshes_spaced_over_removal :
    let before : List Call := [.setSuccess "gw1" .empty 0]
    let between : List Call := [.setFailure "gw2" ⟨"gw2", .notFound⟩ 20, .remove "gw1",
      .setFailure "gw1" ⟨"gw1", .notFound⟩ 25, .setExpiry (some 3)]
    let earlier := (withExpiry (some 10)).after before
    let later := (withExpiry (some 10)).after (before ++ .get "gw1" 20 :: between)
    InOrder (before ++ .get "gw1" 20 :: between ++ [Call.get "gw1" 29]) ∧
      (earlier.get "gw1" 20).1.needsRefresh = true ∧ (later.get "gw1" 29).1.needsRefresh = true ∧
      ∃ expiry ∈ ((withExpiry (some 10)).history (before ++ .get "gw1" 20 :: between)).expiry
        (some 10), expiry < 29 - 20 := by
  intro before between earlier later
  have inOrder : InOrder (before ++ .get "gw1" 20 :: between ++ [Call.get "gw1" 29]) := by
    unfold InOrder
    decide
  have asked : (earlier.get "gw1" 20).1.needsRefresh = true := by
    decide
  have asks : (later.get "gw1" 29).1.needsRefresh = true := by
    decide
  exact ⟨inOrder, asked, asks, (refreshes_spaced_by_expiry inOrder).1 20 rfl asked asks⟩

end GatewayEnrichment.Store
