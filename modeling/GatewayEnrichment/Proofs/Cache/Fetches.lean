import GatewayEnrichment.Proofs.Cache.Forgetting
import GatewayEnrichment.Proofs.Prefixes
import Mathlib.Data.List.Nodup
import Mathlib.Data.List.Perm.Lattice

/-! The life of a fetch. It is issued once, starts its lookup at most once, and ends at most once:
by landing, after its lookup, or by being cancelled, before its lookup or during it. So the tickets
that were ever issued are those of the fetches that have not ended, that have landed, and that were
cancelled, each of them once. -/

namespace GatewayEnrichment

def Stage.isLooking : Stage → Bool
  | .looking _ => true
  | _ => false

namespace Cache

def tickets (c : Cache) : List Ticket := c.fetches.map (·.ticket)

def awaiting (c : Cache) : List Ticket :=
  (c.fetches.filter fun f => !f.stage.isLooking).map (·.ticket)

def inLookup (c : Cache) : List Ticket := (c.fetches.filter (·.stage.isLooking)).map (·.ticket)

def started (c : Cache) (a : Action) : List Ticket :=
  (c.step a).inLookup.filter (· ∉ c.inLookup)

def cancelled? (c : Cache) : Action → Option Fetch
  | .cancel t => c.fetch? t
  | _ => none

def lookedUp (c : Cache) (moves : List Move) : List Ticket :=
  along move (fun c m => c.started m.action) c moves

def cancellations (c : Cache) (moves : List Move) : List Fetch :=
  along move (fun c m => (c.cancelled? m.action).toList) c moves

theorem landings_eq_along (c : Cache) (moves : List Move) :
    c.landings moves = along move (fun c m => (c.landing? m.action).toList) c moves := by
  induction moves generalizing c with
  | nil => rfl
  | cons m moves ih => rw [landings, along, ih]

theorem landings_concat (c : Cache) (moves : List Move) (m : Move) :
    c.landings (moves ++ [m]) =
      c.landings moves ++ ((c.after moves).landing? m.action).toList := by
  rw [landings_eq_along, along_concat, ← landings_eq_along]
  rfl

theorem awaiting_append_inLookup_perm (c : Cache) :
    (c.awaiting ++ c.inLookup).Perm c.tickets := by
  rw [awaiting, inLookup, tickets, ← List.map_append]
  exact (List.perm_append_comm.trans (List.filter_append_perm _ _)).map _

theorem mem_tickets {c : Cache} {t : Ticket} :
    t ∈ c.tickets ↔ ∃ f ∈ c.fetches, f.ticket = t := List.mem_map

theorem mem_inLookup {c : Cache} {t : Ticket} :
    t ∈ c.inLookup ↔ ∃ f ∈ c.fetches, f.stage.isLooking ∧ f.ticket = t := by
  simp [inLookup, and_assoc]

theorem fetch?_eq_some {c : Cache} {t : Ticket} {f : Fetch} (h : c.fetch? t = some f) :
    f ∈ c.fetches ∧ f.ticket = t :=
  ⟨List.mem_of_find?_eq_some h,
    of_decide_eq_true (List.find?_some (p := fun f : Fetch => decide (f.ticket = t)) h)⟩

/-! What a poll does depends on how far its fetch is. -/

section

variable {c : Cache} {t : Ticket} {f : Fetch} (hf : c.fetch? t = some f) (now : Nat)

include hf

theorem poll_of_issued (hs : f.stage = .issued) :
    c.poll t now =
      if (c.limiter.request t).1 then
        { c with limiter := (c.limiter.request t).2 }.startLookup t now
      else { c with limiter := (c.limiter.request t).2 }.setStage t .queued := by
  obtain ⟨ticket, id, purpose, stage⟩ := f
  cases hs
  simp only [poll, hf]

theorem poll_of_queued (hs : f.stage = .queued) :
    c.poll t now =
      if (c.limiter.collect t).1 then
        { c with limiter := (c.limiter.collect t).2 }.startLookup t now
      else c := by
  obtain ⟨ticket, id, purpose, stage⟩ := f
  cases hs
  simp only [poll, hf]

theorem poll_of_isLooking (hs : f.stage.isLooking) : c.poll t now = c := by
  obtain ⟨ticket, id, purpose, stage⟩ := f
  cases stage with
  | issued | queued => cases hs
  | looking since => simp only [poll, hf]

theorem cancel_eq :
    c.cancel t = { c.drop t with
      limiter := if f.stage = .queued then c.limiter.withdraw t else c.limiter } := by
  obtain ⟨ticket, id, purpose, stage⟩ := f
  cases stage <;> simp only [cancel, hf] <;> rfl

end

theorem poll_of_none {c : Cache} {t : Ticket} (hf : c.fetch? t = none) (now : Nat) :
    c.poll t now = c := by
  simp only [poll, hf]

theorem cancel_of_none {c : Cache} {t : Ticket} (hf : c.fetch? t = none) : c.cancel t = c := by
  simp only [cancel, hf]

theorem read_eq (c : Cache) (id : String) (now : Nat) :
    (c.read id now).2 =
      if (c.store.get id now).1.needsRefresh then
        { c with store := (c.store.get id now).2 }.issue .refresh id
      else { c with store := (c.store.get id now).2 } := rfl

theorem landing_complete {c : Cache} {t : Ticket} {answer : Except DirectoryFailure GatewayRecord}
    {now : Nat} {f : Fetch} (h : c.landing? (.complete t answer now) = some f) :
    c.fetch? t = some f ∧ f.stage.isLooking := by
  rw [landing?] at h
  split at h
  · next hf =>
    cases h
    exact ⟨hf, rfl⟩
  · cases h

/-! What the fetches come to when a stage is set and when a fetch is dropped. -/

theorem tickets_setStage (c : Cache) (t : Ticket) (stage : Stage) :
    (c.setStage t stage).tickets = c.tickets := by
  rw [tickets, setStage, List.map_map, tickets]
  apply List.map_congr_left
  intro f _
  rw [Function.comp_apply]
  split <;> rfl

theorem tickets_drop (c : Cache) (t : Ticket) : (c.drop t).tickets = c.tickets.filter (· ≠ t) := by
  rw [tickets, drop, tickets, List.filter_map]
  rfl

theorem mem_inLookup_setStage (c : Cache) (t t' : Ticket) (stage : Stage) :
    t' ∈ (c.setStage t stage).inLookup ↔
      if t' = t then t ∈ c.tickets ∧ stage.isLooking else t' ∈ c.inLookup := by
  rw [mem_inLookup, setStage]
  split
  · next he =>
    subst he
    rw [mem_tickets]
    constructor
    · rintro ⟨_, hf', hl, ht⟩
      obtain ⟨f, hf, rfl⟩ := List.mem_map.mp hf'
      by_cases hft : f.ticket = t'
      · rw [if_pos hft] at hl
        exact ⟨⟨f, hf, hft⟩, hl⟩
      · rw [if_neg hft] at ht
        exact absurd ht hft
    · rintro ⟨⟨f, hf, ht⟩, hl⟩
      exact ⟨_, List.mem_map.mpr ⟨f, hf, if_pos ht⟩, hl, ht⟩
  · next he =>
    rw [mem_inLookup]
    constructor
    · rintro ⟨_, hf', hl, ht⟩
      obtain ⟨f, hf, rfl⟩ := List.mem_map.mp hf'
      by_cases hft : f.ticket = t
      · rw [if_pos hft] at ht
        exact absurd (ht.symm.trans hft) he
      · rw [if_neg hft] at hl ht
        exact ⟨f, hf, hl, ht⟩
    · rintro ⟨f, hf, hl, ht⟩
      have hft : f.ticket ≠ t := fun hft => he (ht.symm.trans hft)
      exact ⟨f, List.mem_map.mpr ⟨f, hf, if_neg hft⟩, hl, ht⟩

theorem mem_inLookup_drop (c : Cache) (t t' : Ticket) :
    t' ∈ (c.drop t).inLookup ↔ t' ≠ t ∧ t' ∈ c.inLookup := by
  simp only [mem_inLookup, drop, List.mem_filter, decide_eq_true_eq]
  constructor
  · rintro ⟨f, ⟨hf, hne⟩, hl, rfl⟩
    exact ⟨hne, f, hf, hl, rfl⟩
  · rintro ⟨hne, f, hf, hl, rfl⟩
    exact ⟨f, ⟨hf, hne⟩, hl, rfl⟩

section

variable {c : Cache} (hn : c.tickets.Nodup)

include hn

theorem eq_of_ticket_eq {f g : Fetch} (hf : f ∈ c.fetches) (hg : g ∈ c.fetches)
    (h : f.ticket = g.ticket) : f = g :=
  List.inj_on_of_nodup_map hn hf hg h

theorem ticket_mem_inLookup {f : Fetch} (hf : f ∈ c.fetches) :
    f.ticket ∈ c.inLookup ↔ f.stage.isLooking := by
  rw [mem_inLookup]
  constructor
  · rintro ⟨g, hg, hl, ht⟩
    exact eq_of_ticket_eq hn hg hf ht ▸ hl
  · intro hl
    exact ⟨f, hf, hl, rfl⟩

theorem nodup_inLookup : c.inLookup.Nodup := (List.filter_sublist.map _).nodup hn

theorem nodup_tickets_setStage (t : Ticket) (stage : Stage) :
    (c.setStage t stage).tickets.Nodup := by
  rw [tickets_setStage]
  exact hn

theorem nodup_tickets_drop (t : Ticket) : (c.drop t).tickets.Nodup := by
  rw [tickets_drop]
  exact hn.filter _

theorem inLookup_setStage_queued_perm {t : Ticket} (ht : t ∉ c.inLookup) :
    (c.setStage t .queued).inLookup.Perm c.inLookup := by
  have hn' : (c.setStage t .queued).inLookup.Nodup :=
    nodup_inLookup (nodup_tickets_setStage hn t _)
  rw [List.perm_ext_iff_of_nodup hn' (nodup_inLookup hn)]
  intro t'
  rw [mem_inLookup_setStage]
  split
  · next he => simp [he, ht, Stage.isLooking]
  · rfl

theorem inLookup_setStage_looking_perm {t : Ticket} (now : Nat) (ht : t ∈ c.tickets)
    (hl : t ∉ c.inLookup) : (c.setStage t (.looking now)).inLookup.Perm (c.inLookup ++ [t]) := by
  have hn' : (c.inLookup ++ [t]).Nodup := by simpa using (nodup_inLookup hn).concat hl
  rw [List.perm_ext_iff_of_nodup (nodup_inLookup (nodup_tickets_setStage hn t _)) hn']
  intro t'
  rw [mem_inLookup_setStage]
  split
  · next he => simp [he, ht, Stage.isLooking]
  · next he => simp [he]

theorem tickets_drop_perm {f : Fetch} (hf : f ∈ c.fetches) :
    c.tickets.Perm ((c.drop f.ticket).tickets ++ [f.ticket]) := by
  have ht : f.ticket ∈ c.tickets := List.mem_map_of_mem hf
  have hd : f.ticket ∉ (c.drop f.ticket).tickets := by simp [tickets_drop]
  have hn' : ((c.drop f.ticket).tickets ++ [f.ticket]).Nodup := by
    simpa using (nodup_tickets_drop hn f.ticket).concat hd
  rw [List.perm_ext_iff_of_nodup hn hn']
  intro t
  by_cases he : t = f.ticket <;> simp [tickets_drop, he, ht]

theorem inLookup_drop_perm {f : Fetch} (hf : f ∈ c.fetches) :
    c.inLookup.Perm
      ((c.drop f.ticket).inLookup ++ ([f].filter (·.stage.isLooking)).map (·.ticket)) := by
  have hnl : c.inLookup.Nodup := nodup_inLookup hn
  have hnd : (c.drop f.ticket).inLookup.Nodup := nodup_inLookup (nodup_tickets_drop hn f.ticket)
  have hm := ticket_mem_inLookup hn hf
  have hd : f.ticket ∉ (c.drop f.ticket).inLookup := by simp [mem_inLookup_drop]
  cases hs : f.stage.isLooking with
  | true =>
    rw [hs] at hm
    have hn' : ((c.drop f.ticket).inLookup ++ [f.ticket]).Nodup := by simpa using hnd.concat hd
    rw [List.filter_singleton, hs, cond_true, List.map_singleton,
      List.perm_ext_iff_of_nodup hnl hn']
    intro t
    by_cases he : t = f.ticket <;> simp [mem_inLookup_drop, he, hm]
  | false =>
    rw [hs] at hm
    rw [List.filter_singleton, hs, cond_false, List.map_nil, List.append_nil,
      List.perm_ext_iff_of_nodup hnl hnd]
    intro t
    by_cases he : t = f.ticket <;> simp [mem_inLookup_drop, he, hm]

end

theorem inLookup_drop_subset (c : Cache) (t : Ticket) : (c.drop t).inLookup ⊆ c.inLookup :=
  fun _ ht => ((mem_inLookup_drop _ _ _).mp ht).2

/-! Only a poll starts a lookup. -/

theorem started_eq_nil {c : Cache} {a : Action} (hs : (c.step a).inLookup ⊆ c.inLookup) :
    c.started a = [] :=
  List.filter_eq_nil_iff.mpr fun _ ht hn => of_decide_eq_true hn (hs ht)

theorem inLookup_issue (c : Cache) (purpose : Purpose) (id : String) :
    (c.issue purpose id).inLookup = c.inLookup := by
  rw [inLookup, issue, List.filter_append, inLookup]
  simp [Stage.isLooking]

theorem started_of_ne_poll {c : Cache} {a : Action} (ha : ∀ t now, a ≠ .poll t now) :
    c.started a = [] := by
  apply started_eq_nil
  cases a with
  | issue purpose id =>
    rw [step, inLookup_issue]
    exact List.Subset.refl _
  | poll t now => exact absurd rfl (ha t now)
  | complete t answer now =>
    rw [step, complete_eq]
    split
    · exact inLookup_drop_subset c t
    · exact List.Subset.refl _
  | cancel t =>
    rw [step]
    cases hf : c.fetch? t with
    | none =>
      rw [cancel_of_none hf]
      exact List.Subset.refl _
    | some f =>
      rw [cancel_eq hf]
      exact inLookup_drop_subset c t
  | read id now =>
    rw [step, read_eq]
    split
    · rw [inLookup_issue]
      exact List.Subset.refl _
    · exact List.Subset.refl _
  | refill | remove => exact List.Subset.refl _

theorem started_of_lookUp {c : Cache} {t : Ticket} (now : Nat) {a : Action} (hn : c.tickets.Nodup)
    (ht : t ∈ c.tickets) (hl : t ∉ c.inLookup)
    (hf : (c.step a).fetches = (c.setStage t (.looking now)).fetches) : c.started a = [t] := by
  have hs : (c.step a).inLookup.Perm (c.inLookup ++ [t]) := by
    rw [inLookup, hf]
    exact inLookup_setStage_looking_perm hn now ht hl
  refine List.perm_singleton.mp ((hs.filter _).trans ?_)
  rw [List.filter_append]
  simp [hl]

structure FetchesCounted (c : Cache) (looked : List Ticket) (landed cancelled : List Fetch) :
    Prop where
  fates : (c.tickets ++ landed.map (·.ticket) ++ cancelled.map (·.ticket)).Perm
    (List.range c.issued)
  lookups : looked.Perm (c.inLookup ++ landed.map (·.ticket) ++
    (cancelled.filter (·.stage.isLooking)).map (·.ticket))
  counted : c.lookups = looked.length

namespace FetchesCounted

theorem start (burst : Nat) (expiry : Option Nat) :
    FetchesCounted (start burst expiry) [] [] [] := ⟨.refl _, .refl _, rfl⟩

variable {c c' : Cache} {looked : List Ticket} {landed cancelled : List Fetch}
  (h : FetchesCounted c looked landed cancelled)

include h

theorem nodup_tickets : c.tickets.Nodup := by
  have hn := h.fates.nodup_iff.mpr List.nodup_range
  exact (List.nodup_append.mp (List.nodup_append.mp hn).1).1

theorem ticket_lt {t : Ticket} (ht : t ∈ c.tickets) : t < c.issued :=
  List.mem_range.mp (h.fates.subset (List.mem_append_left _ (List.mem_append_left _ ht)))

theorem keep (hf : c'.fetches = c.fetches) (hi : c'.issued = c.issued)
    (hl : c'.lookups = c.lookups) : FetchesCounted c' looked landed cancelled := by
  refine ⟨?_, ?_, ?_⟩
  · rw [tickets, hf, hi]
    exact h.fates
  · rw [inLookup, hf]
    exact h.lookups
  · rw [hl]
    exact h.counted

theorem issue {f : Fetch} (ht : f.ticket = c.issued) (hs : f.stage = .issued)
    (hf : c'.fetches = c.fetches ++ [f]) (hi : c'.issued = c.issued + 1)
    (hl : c'.lookups = c.lookups) : FetchesCounted c' looked landed cancelled := by
  have htickets : c'.tickets = c.tickets ++ [c.issued] := by
    rw [tickets, hf, List.map_append, List.map_singleton, ht]
    rfl
  have hlooking : c'.inLookup = c.inLookup := by
    rw [inLookup, hf, List.filter_append, inLookup]
    simp [hs, Stage.isLooking]
  refine ⟨?_, hlooking ▸ h.lookups, hl.trans h.counted⟩
  rw [htickets, hi, List.range_succ, List.perm_iff_count]
  intro t
  have hc := h.fates.count_eq t
  simp only [List.count_append] at hc ⊢
  omega

theorem queue {t : Ticket} (ht : t ∉ c.inLookup) (hf : c'.fetches = (c.setStage t .queued).fetches)
    (hi : c'.issued = c.issued) (hl : c'.lookups = c.lookups) :
    FetchesCounted c' looked landed cancelled := by
  have hp := inLookup_setStage_queued_perm h.nodup_tickets ht
  refine FetchesCounted.keep (c := c.setStage t .queued) ⟨?_, ?_, h.counted⟩ hf hi hl
  · rw [tickets_setStage]
    exact h.fates
  · exact h.lookups.trans ((hp.symm.append_right _).append_right _)

theorem lookUp {t : Ticket} {now : Nat} (ht : t ∈ c.tickets) (hn : t ∉ c.inLookup)
    (hf : c'.fetches = (c.setStage t (.looking now)).fetches) (hi : c'.issued = c.issued)
    (hl : c'.lookups = c.lookups + 1) :
    FetchesCounted c' (looked ++ [t]) landed cancelled := by
  have hp := inLookup_setStage_looking_perm h.nodup_tickets now ht hn
  refine FetchesCounted.keep (c := c.startLookup t now) ⟨?_, ?_, ?_⟩ hf hi hl
  · have hc : (c.startLookup t now).tickets = c.tickets := c.tickets_setStage t _
    rw [hc]
    exact h.fates
  · rw [List.perm_iff_count]
    intro t'
    have hc := h.lookups.count_eq t'
    have hs : (c.startLookup t now).inLookup.count t' = (c.inLookup ++ [t]).count t' :=
      hp.count_eq t'
    simp only [List.count_append] at hc hs ⊢
    omega
  · rw [List.length_append, List.length_singleton]
    exact congrArg (· + 1) h.counted

theorem drop {f : Fetch} (hm : f ∈ c.fetches) {landed' cancelled' : List Fetch}
    (hfates : (landed'.map (·.ticket) ++ cancelled'.map (·.ticket)).Perm
      (f.ticket :: (landed.map (·.ticket) ++ cancelled.map (·.ticket))))
    (hlookups : (landed'.map (·.ticket) ++
        (cancelled'.filter (·.stage.isLooking)).map (·.ticket)).Perm
      (([f].filter (·.stage.isLooking)).map (·.ticket) ++
        (landed.map (·.ticket) ++ (cancelled.filter (·.stage.isLooking)).map (·.ticket))))
    (hf : c'.fetches = (c.drop f.ticket).fetches) (hi : c'.issued = c.issued)
    (hl : c'.lookups = c.lookups) : FetchesCounted c' looked landed' cancelled' := by
  have tickets := tickets_drop_perm h.nodup_tickets hm
  have inLookup := inLookup_drop_perm h.nodup_tickets hm
  refine FetchesCounted.keep (c := c.drop f.ticket) ⟨?_, ?_, h.counted⟩ hf hi hl
  · have old := h.fates
    rw [List.append_assoc] at old ⊢
    refine (hfates.append_left _).trans (List.Perm.trans ?_ old)
    rw [← List.singleton_append, ← List.append_assoc]
    exact tickets.symm.append_right _
  · have old := h.lookups
    rw [List.append_assoc] at old ⊢
    refine old.trans (List.Perm.trans ?_ (hlookups.append_left _).symm)
    rw [← List.append_assoc (c.drop f.ticket).inLookup]
    exact inLookup.append_right _

theorem land {f : Fetch} (hm : f ∈ c.fetches) (hs : f.stage.isLooking)
    (hf : c'.fetches = (c.drop f.ticket).fetches) (hi : c'.issued = c.issued)
    (hl : c'.lookups = c.lookups) : FetchesCounted c' looked (landed ++ [f]) cancelled := by
  refine h.drop hm ?_ ?_ hf hi hl
  · rw [List.map_append, List.append_assoc]
    exact List.perm_middle
  · rw [List.map_append, List.append_assoc, List.filter_singleton, hs]
    exact List.perm_middle

theorem cancel {f : Fetch} (hm : f ∈ c.fetches)
    (hf : c'.fetches = (c.drop f.ticket).fetches) (hi : c'.issued = c.issued)
    (hl : c'.lookups = c.lookups) : FetchesCounted c' looked landed (cancelled ++ [f]) := by
  refine h.drop hm ?_ ?_ hf hi hl
  · rw [List.map_append, ← List.append_assoc]
    exact List.perm_append_singleton _ _
  · rw [List.filter_append, List.map_append, ← List.append_assoc]
    exact List.perm_append_comm

theorem poll (t : Ticket) (now : Nat) :
    FetchesCounted (c.step (.poll t now)) (looked ++ c.started (.poll t now)) landed cancelled := by
  have keeps : c.poll t now = c → FetchesCounted (c.step (.poll t now))
      (looked ++ c.started (.poll t now)) landed cancelled := by
    intro hp
    have hs : c.step (.poll t now) = c := hp
    rw [started_eq_nil (by rw [hs]; exact List.Subset.refl _), List.append_nil, hs]
    exact h
  cases hf : c.fetch? t with
  | none => exact keeps (poll_of_none hf now)
  | some f =>
    obtain ⟨hm, rfl⟩ := fetch?_eq_some hf
    have ht : f.ticket ∈ c.tickets := List.mem_map_of_mem hm
    have hl := ticket_mem_inLookup h.nodup_tickets hm
    have starts : ∀ l, f.ticket ∉ c.inLookup →
        c.poll f.ticket now = { c with limiter := l }.startLookup f.ticket now →
        FetchesCounted (c.step (.poll f.ticket now)) (looked ++ c.started (.poll f.ticket now))
          landed cancelled := by
      intro l hn hp
      rw [started_of_lookUp now h.nodup_tickets ht hn (by rw [Cache.step, hp]; rfl), Cache.step, hp]
      exact h.lookUp ht hn rfl rfl rfl
    cases hs : f.stage with
    | issued =>
      have hn : f.ticket ∉ c.inLookup := by simp [hl, hs, Stage.isLooking]
      have hp := poll_of_issued hf now hs
      cases hr : (c.limiter.request f.ticket).1 with
      | true =>
        rw [hr, if_pos rfl] at hp
        exact starts _ hn hp
      | false =>
        rw [hr, if_neg Bool.false_ne_true] at hp
        have hq := inLookup_setStage_queued_perm h.nodup_tickets hn
        have he : c.started (.poll f.ticket now) = [] :=
          started_eq_nil (by rw [Cache.step, hp]; exact hq.subset)
        rw [he, List.append_nil, Cache.step, hp]
        exact h.queue hn rfl rfl rfl
    | queued =>
      have hn : f.ticket ∉ c.inLookup := by simp [hl, hs, Stage.isLooking]
      have hp := poll_of_queued hf now hs
      cases hr : (c.limiter.collect f.ticket).1 with
      | true =>
        rw [hr, if_pos rfl] at hp
        exact starts _ hn hp
      | false =>
        rw [hr, if_neg Bool.false_ne_true] at hp
        exact keeps hp
    | looking since => exact keeps (poll_of_isLooking hf now (by rw [hs]; rfl))

omit h in
theorem ofNoEnd {a : Action} (hl : c.landing? a = none) (hc : c.cancelled? a = none)
    (hs : FetchesCounted c' looked landed cancelled) :
    FetchesCounted c' looked (landed ++ (c.landing? a).toList)
      (cancelled ++ (c.cancelled? a).toList) := by
  rw [hl, hc]
  simpa using hs

theorem ofNePoll {a : Action} (ha : ∀ t now, a ≠ .poll t now) :
    FetchesCounted (c.step a) looked (landed ++ (c.landing? a).toList)
      (cancelled ++ (c.cancelled? a).toList) := by
  cases a with
  | poll t now => exact absurd rfl (ha t now)
  | issue purpose id =>
    refine ofNoEnd rfl rfl (?_ : FetchesCounted (c.issue purpose id) looked landed cancelled)
    exact h.issue (f := ⟨c.issued, id, purpose, .issued⟩) rfl rfl rfl rfl rfl
  | complete t answer now =>
    have hn : cancelled ++ (c.cancelled? (.complete t answer now)).toList = cancelled :=
      List.append_nil _
    rw [hn, Cache.step, complete_eq]
    cases hf : c.landing? (.complete t answer now) with
    | none => simpa using h
    | some f =>
      obtain ⟨hft, hs⟩ := landing_complete hf
      obtain ⟨hm, rfl⟩ := fetch?_eq_some hft
      exact h.land hm hs rfl rfl rfl
  | cancel t =>
    have hn : landed ++ (c.landing? (.cancel t)).toList = landed := List.append_nil _
    rw [hn, Cache.step, cancelled?]
    cases hf : c.fetch? t with
    | none =>
      rw [cancel_of_none hf]
      simpa using h
    | some f =>
      obtain ⟨hm, rfl⟩ := fetch?_eq_some hf
      rw [cancel_eq hf]
      exact h.cancel hm rfl rfl rfl
  | read id now =>
    refine ofNoEnd rfl rfl ?_
    rw [Cache.step, read_eq]
    split
    · exact h.issue (f := ⟨c.issued, id, .refresh, .issued⟩) rfl rfl rfl rfl rfl
    · exact h.keep rfl rfl rfl
  | refill => exact ofNoEnd rfl rfl (h.keep rfl rfl rfl : FetchesCounted c.refill.2 _ _ _)
  | remove id => exact ofNoEnd rfl rfl (h.keep rfl rfl rfl : FetchesCounted (c.remove id).2 _ _ _)

theorem step (a : Action) :
    FetchesCounted (c.step a) (looked ++ c.started a) (landed ++ (c.landing? a).toList)
      (cancelled ++ (c.cancelled? a).toList) := by
  by_cases hp : ∃ t now, a = .poll t now
  · obtain ⟨t, now, rfl⟩ := hp
    simpa [landing?, cancelled?] using h.poll t now
  · have ha : ∀ t now, a ≠ .poll t now := fun t now he => hp ⟨t, now, he⟩
    rw [started_of_ne_poll ha, List.append_nil]
    exact h.ofNePoll ha

end FetchesCounted

theorem fetchesCounted (burst : Nat) (expiry : Option Nat) (moves : List Move) :
    FetchesCounted ((Cache.start burst expiry).after moves)
      ((Cache.start burst expiry).lookedUp moves) ((Cache.start burst expiry).landings moves)
      ((Cache.start burst expiry).cancellations moves) := by
  induction moves using List.reverseRecOn with
  | nil => exact .start burst expiry
  | append_singleton moves m ih =>
    rw [after_concat, lookedUp, along_concat, landings_concat, cancellations, along_concat,
      move_eq_step]
    exact ih.step m.action

end Cache
end GatewayEnrichment
