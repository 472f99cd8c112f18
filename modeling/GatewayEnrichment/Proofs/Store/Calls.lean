import GatewayEnrichment.Store

/-! Calls to a store, one after the other. The calls that have been served are kept with their
replies, the latest first, and what is kept so far is the history of the store. -/

namespace GatewayEnrichment.Store

inductive Call where
  | setSuccess (id : String) (record : GatewayRecord) (now : Nat)
  | setFailure (id : String) (failure : LookupFailure) (now : Nat)
  | get (id : String) (now : Nat)
  | remove (id : String)
  | setExpiry (expiry : Option Nat)
  deriving DecidableEq, Repr

inductive Reply where
  | done
  | info (info : Info)
  | known (known : Bool)
  deriving DecidableEq, Repr

def reply (s : Store) : Call → Reply
  | .get id now => .info (s.get id now).1
  | .remove id => .known (s.remove id).1
  | _ => .done

def serve (s : Store) : Call → Store
  | .setSuccess id record now => s.setSuccess id record now
  | .setFailure id failure now => s.setFailure id failure now
  | .get id now => (s.get id now).2
  | .remove id => (s.remove id).2
  | .setExpiry expiry => s.setExpiry expiry

structure Served where
  call : Call
  reply : Reply
  deriving DecidableEq, Repr

abbrev History := List Served

def after (s : Store) (calls : List Call) : Store := calls.foldl serve s

def history (s : Store) : List Call → History
  | [] => []
  | c :: calls => (s.serve c).history calls ++ [⟨c, s.reply c⟩]

theorem after_append (s : Store) (as bs : List Call) :
    s.after (as ++ bs) = (s.after as).after bs := List.foldl_append

theorem history_append (s : Store) (as bs : List Call) :
    s.history (as ++ bs) = (s.after as).history bs ++ s.history as := by
  induction as generalizing s with
  | nil => simp only [List.nil_append, history, after, List.foldl_nil, List.append_nil]
  | cons c as ih =>
    rw [List.cons_append, history, ih, history, List.append_assoc]
    rfl

theorem history_concat (s : Store) (calls : List Call) (c : Call) :
    s.history (calls ++ [c]) = ⟨c, (s.after calls).reply c⟩ :: s.history calls := by
  rw [history_append]
  rfl

theorem get?_setSuccess (s : Store) (id other : String) (record : GatewayRecord) (now : Nat) :
    (s.setSuccess id record now).entries.get? other =
      if other = id then some (.fetched record now) else s.entries.get? other :=
  ByGateway.get?_put _ _ _ _

theorem get?_setFailure (s : Store) (id other : String) (failure : LookupFailure) (now : Nat) :
    (s.setFailure id failure now).entries.get? other =
      if other = id then
        some (((s.entries.get? id).map (·.recordFailure failure now)).getD (.failed failure now))
      else s.entries.get? other := by
  rw [setFailure, ByGateway.get?_put]
  cases s.entries.get? id <;> rfl

theorem get?_get (s : Store) (id other : String) (now : Nat) :
    (s.get id now).2.entries.get? other =
      if other = id ∧ (s.get id now).1.needsRefresh then
        (s.entries.get? id).map ({ · with lastUpdated := now })
      else s.entries.get? other := by
  unfold get
  split
  · next => simp only [Bool.false_eq_true, and_false, if_false]
  · next e he =>
    split
    · simp only [ByGateway.get?_put, and_true, he, Option.map_some]
    · simp only [Bool.false_eq_true, and_false, if_false]

theorem get?_remove (s : Store) (id other : String) :
    (s.remove id).2.entries.get? other = if other = id then none else s.entries.get? other :=
  ByGateway.get?_erase _ _ _

theorem get?_setOutcome_of_ne (s : Store) {id other : String} (h : other ≠ id)
    (outcome : Except LookupFailure GatewayRecord) (now : Nat) :
    (s.setOutcome id outcome now).entries.get? other = s.entries.get? other := by
  cases outcome with
  | ok record => rw [setOutcome, get?_setSuccess, if_neg h]
  | error failure => rw [setOutcome, get?_setFailure, if_neg h]

theorem expiry_get (s : Store) (id : String) (now : Nat) : (s.get id now).2.expiry = s.expiry := by
  unfold get
  split
  · rfl
  · split <;> rfl

end GatewayEnrichment.Store
