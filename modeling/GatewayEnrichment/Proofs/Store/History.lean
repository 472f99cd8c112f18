import GatewayEnrichment.Proofs.Store.Calls
import Mathlib.Data.List.Induction

/-! What the history of a store says about one gateway. The record, the failure and the instant that
count are read off the calls on that gateway since it was last removed, and a store answers every
read and every removal as its history says. -/

namespace GatewayEnrichment.Store

def Call.write? (id : String) : Call → Option (Nat × Except LookupFailure GatewayRecord)
  | .setSuccess other record now => if id = other then some (now, .ok record) else none
  | .setFailure other failure now => if id = other then some (now, .error failure) else none
  | _ => none

def Call.expiry? : Call → Option (Option Nat)
  | .setExpiry expiry => some expiry
  | _ => none

def Call.isAbout (id : String) : Call → Bool
  | .setSuccess other _ _ | .setFailure other _ _ | .get other _ | .remove other => id = other
  -- the expiry is the same for all gateways
  | .setExpiry _ => true

def Reply.asksRefresh : Reply → Bool
  | .info i => i.needsRefresh
  | _ => false

def Served.refresh? (id : String) (s : Served) : Option Nat :=
  match s.call with
  | .get other now => if id = other ∧ s.reply.asksRefresh then some now else none
  | _ => none

def Served.stamp? (id : String) (s : Served) : Option Nat :=
  ((s.call.write? id).map (·.1)).or (s.refresh? id)

theorem ne_remove_of_write {c : Call} {id : String} {w : Nat × Except LookupFailure GatewayRecord}
    (h : c.write? id = some w) : c ≠ .remove id := by
  rintro rfl
  cases h

namespace History

variable (past : History) (id : String)

def about : History := past.filter (·.call.isAbout id)

def sinceRemoval : History := past.takeWhile (·.call ≠ .remove id)

def writes : List (Nat × Except LookupFailure GatewayRecord) :=
  (past.sinceRemoval id).filterMap (·.call.write? id)

def record : GatewayRecord := ((past.writes id).findSome? (·.2.toOption)).getD .empty

def failure : Option LookupFailure :=
  -- a success takes back every failure before it
  match past.writes id with
  | (_, .error failure) :: _ => some failure
  | _ => none

def stamp : Option Nat := (past.sinceRemoval id).findSome? (·.stamp? id)

def expiry (initial : Option Nat) : Option Nat :=
  effective ((past.findSome? (·.call.expiry?)).getD initial)

def isOverdue (initial : Option Nat) (now : Nat) : Bool :=
  match past.expiry initial, past.stamp id with
  | some expiry, some stamp => expiry < now - stamp
  | _, _ => false

def info (initial : Option Nat) (now : Nat) : Info :=
  if past.writes id = [] then {}
  else ⟨past.record id, past.failure id, past.isOverdue id initial now⟩

def entry : Option Entry :=
  if past.writes id = [] then none
  else (past.stamp id).map fun stamp => ⟨stamp, past.record id, past.failure id⟩

variable {past id}

theorem sinceRemoval_cons (s : Served) (past : History) (id : String) :
    sinceRemoval (s :: past) id =
      if s.call = .remove id then [] else s :: past.sinceRemoval id := by
  by_cases h : s.call = .remove id <;> simp [sinceRemoval, h]

theorem writes_cons (s : Served) (past : History) (id : String) :
    writes (s :: past) id =
      if s.call = .remove id then [] else (s.call.write? id).toList ++ past.writes id := by
  rw [writes, sinceRemoval_cons]
  split
  · rfl
  · rw [List.filterMap_cons]
    cases s.call.write? id <;> rfl

theorem stamp_cons (s : Served) (past : History) (id : String) :
    stamp (s :: past) id =
      if s.call = .remove id then none else (s.stamp? id).or (past.stamp id) := by
  rw [stamp, sinceRemoval_cons]
  split
  · rfl
  · rw [List.findSome?_cons]
    cases s.stamp? id <;> rfl

theorem writes_cons_of_write {s : Served} {w : Nat × Except LookupFailure GatewayRecord}
    (h : s.call.write? id = some w) : writes (s :: past) id = w :: past.writes id := by
  rw [writes_cons, if_neg (ne_remove_of_write h), h]
  rfl

theorem stamp_cons_of_write {s : Served} {now : Nat} {outcome : Except LookupFailure GatewayRecord}
    (h : s.call.write? id = some (now, outcome)) : stamp (s :: past) id = some now := by
  rw [stamp_cons, if_neg (ne_remove_of_write h), Served.stamp?, h]
  rfl

theorem expiry_cons (s : Served) (past : History) (initial : Option Nat) :
    expiry (s :: past) initial = match s.call with
      | .setExpiry expiry => effective expiry
      | _ => past.expiry initial := by
  obtain ⟨c, r⟩ := s
  cases c <;> rfl

theorem writes_append_remove (recent past : History) (id : String) (r : Reply) :
    writes (recent ++ ⟨.remove id, r⟩ :: past) id = recent.writes id := by
  induction recent with
  | nil => rw [List.nil_append, writes_cons, if_pos rfl]; rfl
  | cons s recent ih => rw [List.cons_append, writes_cons, writes_cons, ih]

theorem exists_stamp (h : past.writes id ≠ []) : ∃ now, past.stamp id = some now := by
  obtain ⟨w, hw⟩ := List.exists_mem_of_ne_nil _ h
  obtain ⟨s, hs, hsw⟩ := List.mem_filterMap.mp hw
  apply Option.isSome_iff_exists.mp
  rw [stamp, List.findSome?_isSome_iff]
  exact ⟨s, hs, by simp [Served.stamp?, hsw]⟩

theorem entry_congr {other : History} (hw : past.writes id = other.writes id)
    (hs : past.stamp id = other.stamp id) : past.entry id = other.entry id := by
  rw [entry, entry, History.record, History.record, failure, failure, hw, hs]

/-! How each call changes the entry that the history amounts to. The entry hangs on the outcomes and
the stamp alone, so a call that leaves both as they were leaves the entry as it was. -/

theorem entry_cons_of_silent {s : Served} (hr : s.call ≠ .remove id) (hw : s.call.write? id = none)
    (ha : s.refresh? id = none) : entry (s :: past) id = past.entry id := by
  apply entry_congr
  · rw [writes_cons, if_neg hr, hw]
    rfl
  · rw [stamp_cons, if_neg hr, Served.stamp?, hw, ha]
    rfl

theorem entry_setSuccess (past : History) (id other : String) (record : GatewayRecord) (now : Nat)
    (r : Reply) :
    entry (⟨.setSuccess other record now, r⟩ :: past) id =
      if id = other then some (.fetched record now) else past.entry id := by
  split
  · next h =>
    have hc : Call.write? id (.setSuccess other record now) = some (now, .ok record) := if_pos h
    have hw : writes (⟨.setSuccess other record now, r⟩ :: past) id =
        (now, .ok record) :: past.writes id := writes_cons_of_write hc
    have hs : stamp (⟨.setSuccess other record now, r⟩ :: past) id = some now :=
      stamp_cons_of_write hc
    simp [entry, History.record, failure, hw, hs, Entry.fetched, Except.toOption]
  · next h => exact entry_cons_of_silent nofun (if_neg h) rfl

theorem entry_setFailure (past : History) (id other : String) (e : LookupFailure) (now : Nat)
    (r : Reply) :
    entry (⟨.setFailure other e now, r⟩ :: past) id =
      if id = other then
        some (((past.entry other).map (·.recordFailure e now)).getD (.failed e now))
      else past.entry id := by
  split
  · next h =>
    subst h
    have hc : Call.write? id (.setFailure id e now) = some (now, .error e) := if_pos rfl
    have hw : writes (⟨.setFailure id e now, r⟩ :: past) id = (now, .error e) :: past.writes id :=
      writes_cons_of_write hc
    have hs : stamp (⟨.setFailure id e now, r⟩ :: past) id = some now := stamp_cons_of_write hc
    -- a failure is passed over in the search for the last record
    have hr : History.record (⟨.setFailure id e now, r⟩ :: past) id = past.record id := by
      rw [History.record, hw]
      rfl
    by_cases hn : past.writes id = []
    · have hr' : past.record id = .empty := by
        rw [History.record, hn]
        rfl
      simp [entry, hw, hs, hr, hr', hn, failure, Entry.failed]
    · obtain ⟨stamp, hstamp⟩ := exists_stamp hn
      simp [entry, hw, hs, hr, hn, hstamp, failure, Entry.recordFailure]
  · next h => exact entry_cons_of_silent nofun (if_neg h) rfl

theorem entry_get (past : History) (id other : String) (now : Nat) (r : Reply) :
    entry (⟨.get other now, r⟩ :: past) id =
      if id = other ∧ r.asksRefresh then
        (past.entry other).map ({ · with lastUpdated := now })
      else past.entry id := by
  split
  · next h =>
    obtain ⟨rfl, hr⟩ := h
    have hw : writes (⟨.get id now, r⟩ :: past) id = past.writes id := by
      rw [writes_cons, if_neg nofun]
      rfl
    have ha : Served.refresh? id ⟨.get id now, r⟩ = some now := if_pos ⟨rfl, hr⟩
    have hs : stamp (⟨.get id now, r⟩ :: past) id = some now := by
      rw [stamp_cons, if_neg nofun, Served.stamp?, ha]
      rfl
    by_cases hn : past.writes id = []
    · simp [entry, hw, hn]
    · obtain ⟨stamp, hstamp⟩ := exists_stamp hn
      simp [entry, hw, hs, hn, hstamp, History.record, failure]
  · next h => exact entry_cons_of_silent nofun rfl (if_neg h)

theorem entry_remove (past : History) (id other : String) (r : Reply) :
    entry (⟨.remove other, r⟩ :: past) id = if id = other then none else past.entry id := by
  split
  · next h =>
    subst h
    have hw : writes (⟨.remove id, r⟩ :: past) id = [] := by rw [writes_cons, if_pos rfl]
    rw [entry, if_pos hw]
  · next h =>
    have hr : Call.remove other ≠ .remove id := by
      intro he
      cases he
      exact h rfl
    exact entry_cons_of_silent hr rfl rfl

theorem entry_setExpiry (past : History) (id : String) (expiry : Option Nat) (r : Reply) :
    entry (⟨.setExpiry expiry, r⟩ :: past) id = past.entry id :=
  entry_cons_of_silent nofun rfl rfl

theorem entry_eq_none_iff : past.entry id = none ↔ past.writes id = [] := by
  constructor
  · intro h
    by_cases hn : past.writes id = []
    · exact hn
    · obtain ⟨stamp, hstamp⟩ := exists_stamp hn
      simp [entry, hn, hstamp] at h
  · intro h
    rw [entry, if_pos h]

theorem needsRefresh_info_eq_false_iff (initial : Option Nat) (now : Nat) :
    (past.info id initial now).needsRefresh = false ↔
      past.writes id = [] ∨ past.isOverdue id initial now = false := by
  rw [info]
  split
  · next h => exact iff_of_true rfl (.inl h)
  · next h => exact (or_iff_right h).symm

/-! What is asked of a gateway is read off the calls that are about it. -/

theorem sinceRemoval_about (past : History) (id : String) :
    (past.about id).sinceRemoval id = (past.sinceRemoval id).filter (·.call.isAbout id) := by
  -- the removal that ends the stretch is itself about the gateway, so it is not filtered out
  rw [about, sinceRemoval, List.takeWhile_filter]
  congr 2
  funext s
  by_cases h : s.call = .remove id <;> simp [h, Call.isAbout]

theorem writes_about (past : History) (id : String) :
    (past.about id).writes id = past.writes id := by
  rw [writes, sinceRemoval_about, List.filterMap_filter, writes]
  congr 1
  funext ⟨c, r⟩
  cases c <;> simp +contextual [Call.isAbout, Call.write?]

theorem stamp_about (past : History) (id : String) :
    (past.about id).stamp id = past.stamp id := by
  rw [stamp, sinceRemoval_about, ← List.head?_filterMap, List.filterMap_filter,
    List.head?_filterMap, stamp]
  congr 1
  funext ⟨c, r⟩
  cases c with
  | get other now =>
    -- a read of another gateway asks for no refresh of this one
    by_cases h : id = other <;> simp [Call.isAbout, Served.stamp?, Served.refresh?, Call.write?, h]
  | _ => simp +contextual [Call.isAbout, Served.stamp?, Served.refresh?, Call.write?]

theorem expiry_about (past : History) (id : String) (initial : Option Nat) :
    (past.about id).expiry initial = past.expiry initial := by
  rw [expiry, about, ← List.head?_filterMap, List.filterMap_filter, List.head?_filterMap, expiry]
  congr 3
  funext ⟨c, r⟩
  cases c <;> simp [Call.isAbout, Call.expiry?]

theorem info_about (past : History) (id : String) (initial : Option Nat) (now : Nat) :
    (past.about id).info id initial now = past.info id initial now := by
  simp only [info, isOverdue, History.record, failure, writes_about, stamp_about, expiry_about]

end History

/-- A store is in the state that its history amounts to. -/
structure Follows (s : Store) (initial : Option Nat) (past : History) : Prop where
  expiry : s.expiry = past.expiry initial
  entry : ∀ id, s.entries.get? id = past.entry id

namespace Follows

variable {s : Store} {initial : Option Nat} {past : History}

theorem withExpiry (initial : Option Nat) : Follows (withExpiry initial) initial [] :=
  ⟨rfl, fun _ => rfl⟩

theorem serve (h : Follows s initial past) (c : Call) :
    Follows (s.serve c) initial (⟨c, s.reply c⟩ :: past) := by
  constructor
  · rw [History.expiry_cons]
    cases c with
    | setExpiry expiry => rfl
    | get id now => exact (expiry_get s id now).trans h.expiry
    | setSuccess | setFailure | remove => exact h.expiry
  · intro id
    cases c with
    | setSuccess other record now =>
      rw [History.entry_setSuccess, ← h.entry]
      exact get?_setSuccess s other id record now
    | setFailure other e now =>
      rw [History.entry_setFailure, ← h.entry, ← h.entry]
      exact get?_setFailure s other id e now
    | get other now =>
      rw [History.entry_get, ← h.entry, ← h.entry]
      exact get?_get s other id now
    | remove other =>
      rw [History.entry_remove, ← h.entry]
      exact get?_remove s other id
    | setExpiry expiry =>
      rw [History.entry_setExpiry, ← h.entry]
      rfl

theorem info_eq (h : Follows s initial past) (id : String) (now : Nat) :
    (s.get id now).1 = past.info id initial now := by
  have he : s.entries.get? id = past.entry id := h.entry id
  by_cases hn : past.writes id = []
  · rw [History.entry_eq_none_iff.mpr hn] at he
    rw [get, he, History.info, if_pos hn]
  · obtain ⟨stamp, hstamp⟩ := History.exists_stamp hn
    rw [History.entry, if_neg hn, hstamp, Option.map_some] at he
    have hd : s.isStale ⟨stamp, past.record id, past.failure id⟩ now =
        past.isOverdue id initial now := by
      rw [isStale, h.expiry, History.isOverdue, hstamp]
      cases past.expiry initial <;> rfl
    rw [get, he, History.info, if_neg hn, ← hd]
    cases hs : s.isStale ⟨stamp, past.record id, past.failure id⟩ now <;> simp [hs]

theorem known_iff (h : Follows s initial past) (id : String) :
    (s.remove id).1 = true ↔ past.writes id ≠ [] := by
  rw [← not_iff_not, not_not, ← History.entry_eq_none_iff, ← h.entry, remove, ByGateway.contains]
  cases s.entries.get? id <;> simp

end Follows

theorem follows_history (initial : Option Nat) (calls : List Call) :
    Follows ((withExpiry initial).after calls) initial ((withExpiry initial).history calls) := by
  induction calls using List.reverseRecOn with
  | nil => exact .withExpiry initial
  | append_singleton calls c ih =>
    rw [after_append, history_concat]
    exact ih.serve c

/-- Whatever calls a store has served, a read of a gateway and its removal are answered from the
calls about that gateway. -/
theorem replies_follow_history (initial : Option Nat) (calls : List Call) (id : String) :
    let s := (withExpiry initial).after calls
    let past := ((withExpiry initial).history calls).about id
    (∀ now, (s.get id now).1 = past.info id initial now) ∧
      ((s.remove id).1 = true ↔ past.writes id ≠ []) := by
  intro s past
  have h : Follows s initial ((withExpiry initial).history calls) := follows_history initial calls
  constructor
  · intro now
    rw [h.info_eq, History.info_about]
  · rw [h.known_iff, History.writes_about]

end GatewayEnrichment.Store
