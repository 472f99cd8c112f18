import Mathlib.Data.List.Perm.Basic
import GatewayEnrichment.Proofs.Outcomes
import GatewayEnrichment.Proofs.Json.Rereading

/-! Fields by name and by place. What a record takes from the members of an object depends on the
values that the object has under each name of a field, and on nothing else: neither on the order of
the members nor on those with other names. The same values in the order of the fields, as the items
of an array, make the same record. -/

namespace GatewayEnrichment.Json

def valuesOf (key : String) (ms : List (String × Value)) : List Value :=
  (ms.filter (·.1 = key)).map Prod.snd

section

variable {key : String} {m : String × Value} {ms ms' : List (String × Value)}

theorem valuesOf_cons_of_eq (h : m.1 = key) : valuesOf key (m :: ms) = m.2 :: valuesOf key ms := by
  simp [valuesOf, h]

theorem valuesOf_cons_of_ne (h : m.1 ≠ key) : valuesOf key (m :: ms) = valuesOf key ms := by
  simp [valuesOf, h]

theorem mem_valuesOf {u : Value} : u ∈ valuesOf key ms ↔ (key, u) ∈ ms := by
  simp only [valuesOf, List.mem_map, List.mem_filter, decide_eq_true_eq]
  constructor
  · rintro ⟨m, ⟨hm, rfl⟩, rfl⟩
    exact hm
  · intro hm
    exact ⟨(key, u), ⟨hm, rfl⟩, rfl⟩

theorem perm_valuesOf (h : ms.Perm ms') (key : String) :
    (valuesOf key ms).Perm (valuesOf key ms') := (h.filter _).map _

theorem valuesOf_filter {p : String × Value → Bool} (h : ∀ m ∈ ms, m.1 = key → p m = true) :
    valuesOf key (ms.filter p) = valuesOf key ms := by
  rw [valuesOf, valuesOf, List.filter_filter]
  refine congrArg (List.map Prod.snd) (List.filter_congr fun m hm => ?_)
  by_cases same : m.1 = key
  · simp [same, h m hm same]
  · simp [same]

end

/-! A fold over members may take what is under one name and leave the rest to another fold. -/

/-- Of the values under a name, one is taken, and a second one would be refused. -/
inductive Taken {α ε : Type} (use : Value → Except ε α) : Option α → List Value → Option α → Prop
  | nothing (own : Option α) : Taken use own [] own
  | one {u : Value} {a : α} (h : use u = .ok a) : Taken use none [u] (some a)

def takeMember {α σ ε : Type} (name : String) (use : Value → Except ε α) (again : ε)
    (others : σ → String × Value → Except ε σ) (s : Option α × σ) (m : String × Value) :
    Except ε (Option α × σ) :=
  if m.1 = name then
    match s.1 with
    | some _ => .error again
    | none => (use m.2).map fun a => (some a, s.2)
  else (others s.2 m).map fun t => (s.1, t)

section

variable {α σ ε : Type} {name : String} {use : Value → Except ε α} {again : ε}
  {others : σ → String × Value → Except ε σ} {own own' : Option α} {s s' : σ}

theorem taken_cons_iff {u : Value} {us : List Value} :
    Taken use own (u :: us) own' ↔
      own = none ∧ ∃ a, use u = .ok a ∧ Taken use (some a) us own' := by
  constructor
  · rintro ⟨⟩
    next a used => exact ⟨rfl, a, used, .nothing _⟩
  · rintro ⟨rfl, a, used, taken⟩
    cases taken
    exact .one used

theorem foldlM_takeMember_eq_ok_iff (ms : List (String × Value)) :
    ms.foldlM (takeMember name use again others) (own, s) = .ok (own', s') ↔
      Taken use own (valuesOf name ms) own' ∧
        (ms.filter (·.1 ≠ name)).foldlM others s = .ok s' := by
  induction ms generalizing own s with
  | nil =>
    constructor
    · rintro ⟨⟩
      exact ⟨.nothing _, rfl⟩
    · rintro ⟨⟨⟩, ⟨⟩⟩
      rfl
  | cons m ms ih =>
    rw [List.foldlM_cons, takeMember]
    by_cases same : m.1 = name
    · rw [if_pos same, valuesOf_cons_of_eq same, taken_cons_iff,
        List.filter_cons_of_neg (by simp [same])]
      cases own with
      | some a => simp [bind, Except.bind]
      | none =>
        cases used : use m.2 with
        | error e => simp [bind, Except.bind, Except.map]
        | ok a =>
          simp only [true_and, Except.ok.injEq, exists_eq_left']
          exact ih
    · rw [if_neg same, valuesOf_cons_of_ne same, List.filter_cons_of_pos (by simp [same]),
        List.foldlM_cons]
      cases others s m with
      | error e => simp [bind, Except.bind, Except.map]
      | ok t => exact ih

end

inductive Gives (presence : Presence) (s : Schema) : List Value → s.Val → Prop
  | absent (h : presence ≠ .required) : Gives presence s [] s.zero
  | one {u : Value} {v : s.Val} (h : s.fit u = .ok v) : Gives presence s [u] v

def Fields.Give : (fs : Fields) → List (String × Value) → fs.Vals → Prop
  | .nil, _, () => True
  | .cons name presence s fs, ms, (v, vs) => Gives presence s (valuesOf name ms) v ∧ fs.Give ms vs

theorem absent_eq_ok_iff {presence : Presence} {name : String} {s : Schema} {v : s.Val} :
    presence.absent name s = .ok v ↔ presence ≠ .required ∧ v = s.zero := by
  cases presence with
  | required => exact iff_of_false (by rintro ⟨⟩) fun h => h.1 rfl
  | optional | hiddenWhenEmpty =>
    constructor
    · rintro ⟨⟩
      exact ⟨by decide, rfl⟩
    · rintro ⟨-, rfl⟩
      rfl

theorem gives_iff_exists_taken {presence : Presence} (name : String) {s : Schema} {us : List Value}
    {v : s.Val} :
    Gives presence s us v ↔ ∃ own, Taken s.fit none us own ∧
      (own = some v ∨ own = none ∧ presence.absent name s = .ok v) := by
  constructor
  · rintro (absent | fits)
    · exact ⟨none, .nothing none, .inr ⟨rfl, absent_eq_ok_iff.mpr ⟨absent, rfl⟩⟩⟩
    · exact ⟨some v, .one fits, .inl rfl⟩
  · rintro ⟨own, taken, rfl | ⟨rfl, absent⟩⟩
    · cases taken with
      | one fits => exact .one fits
    · obtain ⟨optional, rfl⟩ := absent_eq_ok_iff.mp absent
      cases taken with
      | nothing => exact .absent optional

namespace Fields

variable {name : String} {presence : Presence} {s : Schema} {fs : Fields}

theorem complete_cons_eq_ok_iff {own : Option s.Val} {seen : fs.Seen} {v : s.Val} {vs : fs.Vals} :
    (cons name presence s fs).complete (own, seen) = .ok (v, vs) ↔
      (own = some v ∨ own = none ∧ presence.absent name s = .ok v) ∧
        fs.complete seen = .ok vs := by
  cases own with
  | some w =>
    change (Except.ok w >>= fun v => fs.complete seen >>= fun vs => .ok (v, vs)) = _ ↔ _
    rw [pair_eq_ok_iff]
    simp
  | none =>
    change (presence.absent name s >>= fun v => fs.complete seen >>= fun vs => .ok (v, vs)) = _ ↔ _
    rw [pair_eq_ok_iff]
    simp

theorem fitMembers_cons (own : Option s.Val) (seen : fs.Seen) (ms : List (String × Value)) :
    (cons name presence s fs).fitMembers (own, seen) ms =
      ms.foldlM (takeMember name s.fit (.duplicateField name) fun seen m =>
        fs.fitMember m.1 m.2 seen) (own, seen) := by
  refine congrArg (fun step => ms.foldlM step (own, seen)) (funext fun s' => funext fun m => ?_)
  obtain ⟨own, seen⟩ := s'
  change (if m.1 = name then _ else _) = takeMember _ _ _ _ _ _
  rw [takeMember]
  by_cases same : m.1 = name
  · rw [if_pos same, if_pos same]
    cases own with
    | some w => rfl
    | none => cases s.fit m.2 <;> rfl
  · rw [if_neg same, if_neg same]
    rfl

theorem give_congr : (fs : Fields) → {ms ms' : List (String × Value)} →
    (∀ name ∈ fs.names, (valuesOf name ms).Perm (valuesOf name ms')) → {vs : fs.Vals} →
    fs.Give ms vs → fs.Give ms' vs
  | .nil, _, _, _, _, _ => trivial
  | .cons name presence s fs, ms, ms', same, (v, vs), ⟨own, others⟩ => by
    obtain ⟨sameOwn, same⟩ := List.forall_mem_cons.mp same
    refine ⟨?_, fs.give_congr same others⟩
    generalize hus : valuesOf name ms = us at own sameOwn
    cases own with
    | absent optional =>
      rw [List.nil_perm.mp sameOwn]
      exact .absent optional
    | one fits =>
      rw [← List.singleton_perm.mp sameOwn]
      exact .one fits

theorem length_le_of_give : (fs : Fields) → {ms : List (String × Value)} → {vs : fs.Vals} →
    fs.Give ms vs → ∀ name ∈ fs.names, (valuesOf name ms).length ≤ 1
  | .nil, _, _, _, _, h => by cases h
  | .cons name presence s fs, ms, (v, vs), ⟨own, others⟩, key, h => by
    rcases List.mem_cons.mp h with rfl | h
    · generalize valuesOf key ms = us at own
      cases own with
      | absent _ => exact Nat.zero_le 1
      | one _ => exact Nat.le_refl 1
    · exact fs.length_le_of_give others key h

theorem fitMembers_nil (ms : List (String × Value)) : fitMembers .nil () ms = .ok () := by
  induction ms with
  | nil => rfl
  | cons m ms ih => exact ih

theorem complete_fitMembers_eq_ok_iff : (fs : Fields) → fs.names.Nodup →
    (ms : List (String × Value)) → (vs : fs.Vals) →
    ((fs.fitMembers fs.unseen ms >>= fs.complete) = .ok vs ↔ fs.Give ms vs)
  | .nil, _, ms, () => by
    rw [unseen, fitMembers_nil]
    exact iff_of_true rfl trivial
  | .cons name presence s fs, distinct, ms, (v, vs) => by
    obtain ⟨fresh, distinct⟩ := List.nodup_cons.mp distinct
    have others := fs.complete_fitMembers_eq_ok_iff distinct (ms.filter (·.1 ≠ name)) vs
    have same : ∀ key ∈ fs.names, valuesOf key (ms.filter (·.1 ≠ name)) = valuesOf key ms := by
      intro key hk
      refine valuesOf_filter fun m _ own => ?_
      have other : m.1 ≠ name := fun h => fresh (h ▸ own ▸ hk)
      simpa using other
    rw [Give, gives_iff_exists_taken name]
    constructor
    · intro h
      obtain ⟨⟨own, seen⟩, fitted, completed⟩ := exists_of_bind_eq_ok h
      rw [unseen, fitMembers_cons, foldlM_takeMember_eq_ok_iff] at fitted
      obtain ⟨made, rest⟩ := complete_cons_eq_ok_iff.mp completed
      refine ⟨⟨own, fitted.1, made⟩, ?_⟩
      have fittedOthers : fs.fitMembers fs.unseen (ms.filter (·.1 ≠ name)) = .ok seen := fitted.2
      have given : fs.Give (ms.filter (·.1 ≠ name)) vs := by
        refine others.mp ?_
        rw [fittedOthers]
        exact rest
      exact fs.give_congr (fun key hk => by rw [same key hk]) given
    · rintro ⟨⟨own, taken, made⟩, given⟩
      have given : fs.Give (ms.filter (·.1 ≠ name)) vs :=
        fs.give_congr (fun key hk => by rw [same key hk]) given
      obtain ⟨seen, fitted, completed⟩ := exists_of_bind_eq_ok (others.mpr given)
      have fittedAll : (cons name presence s fs).fitMembers (none, fs.unseen) ms =
          .ok (own, seen) := by
        rw [fitMembers_cons]
        exact (foldlM_takeMember_eq_ok_iff ms).mpr ⟨taken, fitted⟩
      change ((cons name presence s fs).fitMembers (none, fs.unseen) ms >>= _) = _
      rw [fittedAll]
      exact complete_cons_eq_ok_iff.mpr ⟨made, completed⟩

end Fields

inductive StandsFor (s : Schema) : List Value → Value → Prop
  | said (u : Value) (us : List Value) : StandsFor s (u :: us) u
  | default {u : Value} (h : s.fit u = .ok s.zero) : StandsFor s [] u

/-- The items that stand for the fields in their order. The last ones may be left out if they are
defaults. -/
def Fields.Lists : (fs : Fields) → List (String × Value) → List Value → Prop
  | .nil, _, us => us = []
  | .cons name presence s fs, ms, [] =>
    presence ≠ .required ∧ (∀ u ∈ valuesOf name ms, s.fit u = .ok s.zero) ∧ fs.Lists ms []
  | .cons name _ s fs, ms, u :: us => StandsFor s (valuesOf name ms) u ∧ fs.Lists ms us

section

variable {presence : Presence} {s : Schema} {us : List Value} {v : s.Val}

theorem Gives.eq_zero (h : Gives presence s us v) (left : ∀ u ∈ us, s.fit u = .ok s.zero) :
    v = s.zero := by
  cases h with
  | absent _ => rfl
  | one fits =>
    rw [left _ List.mem_cons_self] at fits
    exact (Except.ok.inj fits).symm

theorem Gives.fit_eq_ok (h : Gives presence s us v) {u : Value} (stands : StandsFor s us u) :
    s.fit u = .ok v := by
  cases h with
  | absent _ =>
    cases stands with
    | default fits => exact fits
  | one fits =>
    cases stands with
    | said => exact fits

end

theorem Fields.fitItems_of_lists (record : String) (fields : Nat) : (fs : Fields) → (index : Nat) →
    {ms : List (String × Value)} → {us : List Value} → {vs : fs.Vals} → fs.Give ms vs →
    fs.Lists ms us → fs.fitItems record fields index us = .ok vs
  | .nil, _, _, [], (), _, _ => rfl
  | .cons name presence s fs, index, ms, [], (v, vs), ⟨own, given⟩, ⟨optional, left, listed⟩ => by
    have rest := fs.fitItems_of_lists record fields (index + 1) given listed
    have zero : presence.absent name s = .ok s.zero := absent_eq_ok_iff.mpr ⟨optional, rfl⟩
    rw [Fields.fitItems, zero, rest, own.eq_zero left]
    rfl
  | .cons name presence s fs, index, ms, u :: us, (v, vs), ⟨own, given⟩, ⟨stands, listed⟩ => by
    have rest := fs.fitItems_of_lists record fields (index + 1) given listed
    rw [Fields.fitItems, own.fit_eq_ok stands, rest]
    rfl

section

variable {s : Schema} {name : String} {fs : Fields} (record : s = .record name fs)
  {ms : List (String × Value)} {v : s.Val}

include record

theorem Schema.fit_object_congr {ms' : List (String × Value)} (distinct : fs.names.Nodup)
    (same : ∀ key ∈ fs.names, (valuesOf key ms).Perm (valuesOf key ms'))
    (h : s.fit (.object ms) = .ok v) : s.fit (.object ms') = .ok v := by
  subst record
  rw [Schema.fit] at h ⊢
  have given := (fs.complete_fitMembers_eq_ok_iff distinct ms v).mp h
  exact (fs.complete_fitMembers_eq_ok_iff distinct ms' v).mpr (fs.give_congr same given)

theorem Schema.fit_array_of_lists {us : List Value} (distinct : fs.names.Nodup)
    (h : s.fit (.object ms) = .ok v) (listed : fs.Lists ms us) : s.fit (.array us) = .ok v := by
  subst record
  rw [Schema.fit] at h ⊢
  have given := (fs.complete_fitMembers_eq_ok_iff distinct ms v).mp h
  exact Fields.fitItems_of_lists name fs.count fs 0 given listed

theorem Schema.length_valuesOf_le (distinct : fs.names.Nodup) (h : s.fit (.object ms) = .ok v) :
    ∀ key ∈ fs.names, (valuesOf key ms).length ≤ 1 := by
  subst record
  rw [Schema.fit] at h
  exact fs.length_le_of_give ((fs.complete_fitMembers_eq_ok_iff distinct ms v).mp h)

end

end GatewayEnrichment.Json
