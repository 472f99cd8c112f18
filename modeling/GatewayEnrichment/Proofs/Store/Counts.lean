import GatewayEnrichment.Proofs.Prefixes
import GatewayEnrichment.Proofs.Store.Calls

/-! What the counts of a store say. The reads that it has answered are its hits and misses, those
that asked for a refresh are its refreshes, and the outcomes that it was given are its successes and
failures. Removals and changes of the expiry are not counted. -/

namespace GatewayEnrichment.Store

def Reply.info? : Reply → Option Info
  | .info i => some i
  | _ => none

def Call.written? : Call → Option (String × Except LookupFailure GatewayRecord)
  | .setSuccess id record _ => some (id, .ok record)
  | .setFailure id failure _ => some (id, .error failure)
  | _ => none

def infos (s : Store) (calls : List Call) : List Info :=
  along serve (fun s c => (s.reply c).info?.toList) s calls

def written (calls : List Call) : List (String × Except LookupFailure GatewayRecord) :=
  calls.filterMap Call.written?

theorem infos_append (s : Store) (as bs : List Call) :
    s.infos (as ++ bs) = s.infos as ++ (s.after as).infos bs := along_append _ _ _ _ _

structure Counted (s : Store) (infos : List Info)
    (written : List (String × Except LookupFailure GatewayRecord)) : Prop where
  reads : s.counts.hits + s.counts.misses = infos.length
  refreshes : s.counts.refreshes = infos.countP (·.needsRefresh)
  successes : s.counts.fetchSuccesses = written.countP (·.2.isOk)
  failures : s.counts.fetchFailures = written.countP (!·.2.isOk)

namespace Counted

theorem withExpiry (expiry : Option Nat) : Counted (withExpiry expiry) [] [] := ⟨rfl, rfl, rfl, rfl⟩

variable {s : Store} {infos : List Info}
  {written : List (String × Except LookupFailure GatewayRecord)} (h : Counted s infos written)

include h

theorem get (id : String) (now : Nat) :
    Counted (s.get id now).2 (infos ++ [(s.get id now).1]) written := by
  have hr := h.reads
  have hf := h.refreshes
  unfold Store.get
  split
  · refine ⟨?_, ?_, h.successes, h.failures⟩
    · rw [List.length_append, List.length_singleton, ← hr]
      exact (Nat.add_assoc _ _ _).symm
    · rw [List.countP_append, ← hf]
      rfl
  · split
    · refine ⟨?_, ?_, h.successes, h.failures⟩
      · rw [List.length_append, List.length_singleton, ← hr]
        exact Nat.add_right_comm _ _ _
      · rw [List.countP_append, ← hf]
        rfl
    · refine ⟨?_, ?_, h.successes, h.failures⟩
      · rw [List.length_append, List.length_singleton, ← hr]
        exact Nat.add_right_comm _ _ _
      · rw [List.countP_append, ← hf]
        rfl

theorem setSuccess (id : String) (record : GatewayRecord) (now : Nat) :
    Counted (s.setSuccess id record now) infos (written ++ [(id, .ok record)]) := by
  refine ⟨h.reads, h.refreshes, ?_, ?_⟩
  · rw [List.countP_append, ← h.successes]
    rfl
  · rw [List.countP_append, ← h.failures]
    rfl

theorem setFailure (id : String) (failure : LookupFailure) (now : Nat) :
    Counted (s.setFailure id failure now) infos (written ++ [(id, .error failure)]) := by
  refine ⟨h.reads, h.refreshes, ?_, ?_⟩
  · rw [List.countP_append, ← h.successes]
    rfl
  · rw [List.countP_append, ← h.failures]
    rfl

theorem serve (c : Call) :
    Counted (s.serve c) (infos ++ (s.reply c).info?.toList) (written ++ c.written?.toList) := by
  have silent : Counted (s.serve c) infos written → (s.reply c).info? = none → c.written? = none →
      Counted (s.serve c) (infos ++ (s.reply c).info?.toList) (written ++ c.written?.toList) := by
    intro hs hi hw
    rw [hi, hw]
    simpa using hs
  cases c with
  | setSuccess id record now =>
    have hi : infos ++ (s.reply (.setSuccess id record now)).info?.toList = infos :=
      List.append_nil _
    rw [hi]
    exact h.setSuccess id record now
  | setFailure id failure now =>
    have hi : infos ++ (s.reply (.setFailure id failure now)).info?.toList = infos :=
      List.append_nil _
    rw [hi]
    exact h.setFailure id failure now
  | get id now =>
    have hw : written ++ (Call.get id now).written?.toList = written := List.append_nil _
    rw [hw]
    exact h.get id now
  | remove id => exact silent ⟨h.reads, h.refreshes, h.successes, h.failures⟩ rfl rfl
  | setExpiry expiry => exact silent ⟨h.reads, h.refreshes, h.successes, h.failures⟩ rfl rfl

end Counted

theorem counted_after (expiry : Option Nat) (calls : List Call) :
    Counted ((withExpiry expiry).after calls) ((withExpiry expiry).infos calls)
      (written calls) := by
  induction calls using List.reverseRecOn with
  | nil => exact .withExpiry expiry
  | append_singleton calls c ih =>
    have hw : written (calls ++ [c]) = written calls ++ c.written?.toList := by
      rw [written, List.filterMap_append, written, List.filterMap_cons]
      cases c.written? <;> rfl
    rw [after_append, infos, along_concat, hw]
    exact ih.serve c

end GatewayEnrichment.Store
