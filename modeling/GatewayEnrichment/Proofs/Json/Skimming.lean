import GatewayEnrichment.Json.Skim
import GatewayEnrichment.Proofs.Json.Layout

/-! Passing over a value. What is read in full can be passed over, to the same place in the text.
The converse fails: a number past the last double, an escaped half of a pair and any depth of
nesting can be passed over but not be read. -/

namespace GatewayEnrichment.Json

/-- Where a light scan stands while a scan with care stands at the phase. -/
def Phase.lighten : Phase → Phase
  | .plain | .afterLeading _ => .plain
  | .escape | .afterBackslash _ => .escape
  | .unit left value _ => .unit left value none

theorem closeUnit_light {value leading : Option Nat} {add : Octets} {phase : Phase}
    (h : closeUnit .full value leading = .ok (add, phase)) :
    phase.lighten = .plain ∧ closeUnit .light value none = .ok ([], .plain) := by
  cases value with
  | none => cases h
  | some n =>
    refine ⟨?_, rfl⟩
    cases leading with
    | none =>
      dsimp only [closeUnit] at h
      split at h
      · cases h
      · split at h
        · cases h
          rfl
        · cases h
          rfl
    | some l =>
      dsimp only [closeUnit] at h
      split at h
      · obtain ⟨-, rfl⟩ := Prod.mk.inj (Except.ok.inj h)
        rfl
      · cases h

theorem scanOctet_light_closed {phase : Phase} {c : UInt8}
    (h : scanOctet .full phase c = .ok none) :
    scanOctet .light phase.lighten c = .ok none := by
  cases phase with
  | plain => exact h
  | escape => exact h
  | unit left value leading =>
    cases left with
    | zero =>
      obtain ⟨x, -, none⟩ := exists_of_map_eq_ok h
      cases none
    | succ left => cases h
  | afterLeading l =>
    dsimp only [scanOctet] at h
    split at h <;> cases h
  | afterBackslash l =>
    dsimp only [scanOctet] at h
    split at h <;> cases h

theorem scanOctet_light {phase next : Phase} {c : UInt8} {add : Octets}
    (h : scanOctet .full phase c = .ok (some (add, next))) :
    ∃ add', scanOctet .light phase.lighten c = .ok (some (add', next.lighten)) := by
  cases phase with
  | plain =>
    have same : scanOctet .light .plain c = .ok (some (add, next)) := h
    dsimp only [scanOctet] at h
    split at h
    · cases h
    · split at h
      · cases h
        exact ⟨_, same⟩
      · split at h
        · cases h
        · cases h
          exact ⟨_, same⟩
  | escape =>
    have same : scanOctet .light .escape c = .ok (some (add, next)) := h
    dsimp only [scanOctet] at h
    split at h
    · cases h
      exact ⟨_, same⟩
    · split at h
      · cases h
        exact ⟨_, same⟩
      · cases h
  | unit left value leading =>
    cases left with
    | zero =>
      obtain ⟨⟨add', next'⟩, closed, same⟩ := exists_of_map_eq_ok h
      cases same
      obtain ⟨plain, light⟩ := closeUnit_light closed
      rw [plain]
      exact ⟨[], congrArg (Except.map some) light⟩
    | succ left =>
      cases h
      exact ⟨[], rfl⟩
  | afterLeading l =>
    dsimp only [scanOctet] at h
    split at h
    · next backslash =>
      cases h
      subst backslash
      exact ⟨[], rfl⟩
    · cases h
  | afterBackslash l =>
    dsimp only [scanOctet] at h
    split at h
    · next unit =>
      cases h
      subst unit
      exact ⟨[], rfl⟩
    · cases h

theorem scanString_light {phase : Phase} {seen input x rest : Octets}
    (h : scanString .full phase seen input = .ok (x, rest)) (seen' : Octets) :
    ∃ y, scanString .light phase.lighten seen' input = .ok (y, rest) := by
  induction input generalizing phase seen seen' with
  | nil => cases h
  | cons c input ih =>
    rw [scanString] at h
    split at h
    · cases h
    · next closed =>
      cases h
      refine ⟨seen'.reverse, ?_⟩
      rw [scanString, scanOctet_light_closed closed]
    · next add next opened =>
      obtain ⟨add', light⟩ := scanOctet_light opened
      obtain ⟨y, scanned⟩ := ih h (add'.reverse ++ seen')
      refine ⟨y, ?_⟩
      rw [scanString, light]
      exact scanned

theorem skimString_of_readString {input rest : Octets} {s : String}
    (h : readString input = .ok (s, rest)) : skimString input = .ok ((), rest) := by
  obtain ⟨⟨x, rest'⟩, scanned, h⟩ := exists_of_bind_eq_ok h
  cases decoded : x.text? with
  | none =>
    simp only [decoded] at h
    cases h
  | some t =>
    simp only [decoded] at h
    cases h
    obtain ⟨y, light⟩ := scanString_light scanned []
    have light : scanString .light .plain [] input = .ok (y, rest) := light
    rw [skimString, light]
    rfl

theorem skimNumber_of_read {input rest : Octets} {n : Numeral}
    (h : Numeral.read input = .ok (n, rest)) : skimNumber input = .ok ((), rest) := by
  obtain ⟨⟨l, rest'⟩, cut, h⟩ := exists_of_bind_eq_ok h
  obtain ⟨m, -, h⟩ := exists_of_bind_eq_ok h
  cases h
  rw [skimNumber, cut]

namespace Skim

/-- With more rounds than there are octets, passing over goes on from the one state and text to the
other, and has more rounds than octets left. -/
def Leads (s : Skim) (input : Octets) (s' : Skim) (rest : Octets) : Prop :=
  ∀ n, input.length < n → ∃ m, rest.length < m ∧ run n s input = run m s' rest

section

variable {s s' s'' : Skim} {input after rest : Octets}

theorem Leads.trans (h : Leads s input s' after) (h' : Leads s' after s'' rest) :
    Leads s input s'' rest := by
  intro n enough
  obtain ⟨m, enough, run⟩ := h n enough
  obtain ⟨m', enough, run'⟩ := h' m enough
  exact ⟨m', enough, run.trans run'⟩

theorem leads_of_step (unfinished : s.done = false) (h : s.step input = .ok (s', rest))
    (shorter : rest.length < input.length) : Leads s input s' rest := by
  intro n enough
  obtain ⟨n, rfl⟩ := Nat.exists_eq_add_one_of_ne_zero (Nat.ne_zero_of_lt enough)
  refine ⟨n, Nat.lt_of_lt_of_le shorter (Nat.le_of_lt_succ enough), ?_⟩
  rw [run, unfinished, h]
  rfl

theorem Leads.of_step_eq {begun : Octets} (unfinished : s.done = false)
    (unfinished' : s'.done = false) (same : s.step input = s'.step begun)
    (shorter : begun.length ≤ input.length) (h : Leads s' begun s'' rest) :
    Leads s input s'' rest := by
  intro n enough
  obtain ⟨m, enough', run'⟩ := h n (Nat.lt_of_le_of_lt shorter enough)
  refine ⟨m, enough', ?_⟩
  obtain ⟨n, rfl⟩ := Nat.exists_eq_add_one_of_ne_zero (Nat.ne_zero_of_lt enough)
  rw [← run', run, run, unfinished, unfinished', same]
  rfl

end

theorem value_skipSpace (opened : List Bracket) (input : Octets) :
    value opened (skipSpace input) = value opened input := by
  rw [value, value, skipSpace_skipSpace]

theorem key_skipSpace (opened : List Bracket) (input : Octets) :
    key opened (skipSpace input) = key opened input := by
  rw [key, key, skipSpace_skipSpace]

theorem exists_key_of_memberOf {α : Type} {value : Reader α} {input after : Octets} {m : String × α}
    (h : memberOf value input = .ok (m, after)) (opened : List Bracket) :
    ∃ r, key opened input = .ok (⟨.value, opened⟩, r) ∧ r.length < input.length ∧
      value r = .ok (m.2, after) := by
  obtain ⟨text, behind, begins, hkey, hvalue⟩ := exists_of_memberOf h
  obtain ⟨gap, r, blank, rfl, read⟩ := exists_gap_of_behindColon hvalue
  refine ⟨r, ?_, ?_, read⟩
  · rw [key, begins]
    change (skimString text >>= fun x => readColon x.2 >>= fun y => Except.ok (_, y.2)) = _
    rw [skimString_of_readString hkey]
    change (readColon (gap ++ Mark.colon :: r) >>= fun y => Except.ok (_, y.2)) = _
    rw [readColon, readMark_gap (by decide) blank]
    rfl
  · obtain ⟨o, rfl, -, -⟩ := exists_spellsKey hkey
    have shorter := length_lt_of_skipSpace begins
    simp only [List.length_append, List.length_cons] at shorter
    omega

def inside (first : Bool) (bracket : Bracket) (opened : List Bracket) : Skim :=
  ⟨if first then .opened else .next, bracket :: opened⟩

theorem done_inside (first : Bool) (bracket : Bracket) (opened : List Bracket) :
    (inside first bracket opened).done = false := by
  cases first <;> rfl

section

variable {first : Bool} {opened : List Bracket} {input begun r : Octets}

theorem step_closeList (h : skipSpace input = Mark.closeList :: r) :
    (inside first .list opened).step input = .ok (⟨.next, opened⟩, r) := by
  cases first <;> simp only [inside, step, h] <;> rfl

theorem step_closeObject (h : skipSpace input = Mark.closeObject :: r) :
    (inside first .object opened).step input = .ok (⟨.next, opened⟩, r) := by
  cases first <;> simp only [inside, step, h] <;> rfl

theorem step_first_item {c : UInt8} (h : skipSpace input = c :: r) (other : c ≠ Mark.closeList) :
    (inside true .list opened).step input = value (.list :: opened) input := by
  rw [← value_skipSpace, h]
  simp only [inside, if_true, step, h]
  split
  · next same => exact absurd (List.cons.inj same).1 other
  · rfl

theorem step_first_member {c : UInt8} (h : skipSpace input = c :: r)
    (other : c ≠ Mark.closeObject) :
    (inside true .object opened).step input = key (.object :: opened) input := by
  rw [← key_skipSpace, h]
  simp only [inside, if_true, step, h]
  split
  · next same => exact absurd (List.cons.inj same).1 other
  · rfl

theorem step_comma_item (h : skipSpace input = Mark.comma :: r) :
    (inside false .list opened).step input = .ok (⟨.value, .list :: opened⟩, r) := by
  simp only [inside, step, h]
  rfl

theorem step_comma_member (h : skipSpace input = Mark.comma :: r) :
    (inside false .object opened).step input = key (.object :: opened) r := by
  simp only [inside, step, h]
  rfl

end

theorem leads_items {ι : Type} {close : UInt8} {item : Reader ι} {bracket : Bracket}
    {opened : List Bracket}
    (closed : ∀ {first input r}, skipSpace input = close :: r →
      (inside first bracket opened).step input = .ok (⟨.next, opened⟩, r))
    (passed : ∀ {first input begun a after}, nextItem close first input = .ok (true, begun) →
      item begun = .ok (a, after) →
      Leads (inside first bracket opened) input (inside false bracket opened) after)
    {first : Bool} {input behind rest : Octets} {as : List ι}
    (h : Items close item first input as behind) (stop : behind = close :: rest) :
    Leads (inside first bracket opened) input ⟨.next, opened⟩ rest := by
  induction h with
  | nil ended =>
    subst stop
    obtain ⟨r, ⟨⟩, begins⟩ := exists_of_nextItem_ended ended
    exact leads_of_step (done_inside _ _ _) (closed begins) (length_lt_of_skipSpace begins)
  | cons more read others ih => exact (passed more read).trans (ih stop)

section

variable {levels : Nat}
  (passed : ∀ {opened : List Bracket} {input rest : Octets} {v : Value},
    readValue levels input = .ok (v, rest) → Leads ⟨.value, opened⟩ input ⟨.next, opened⟩ rest)
  {first : Bool} {opened : List Bracket} {input begun after : Octets}

include passed

theorem leads_item {v : Value} (more : nextItem Mark.closeList first input = .ok (true, begun))
    (read : readValue levels begun = .ok (v, after)) :
    Leads (inside first .list opened) input (inside false .list opened) after := by
  obtain ⟨⟨c, r, rfl, other⟩, ⟨rfl, begins⟩ | ⟨rfl, r', begins, begins'⟩⟩ :=
    exists_of_nextItem_more more
  · rw [← begins, readValue_skipSpace] at read
    exact Leads.of_step_eq (done_inside _ _ _) rfl (step_first_item begins other) le_rfl
      (passed read)
  · rw [← begins', readValue_skipSpace] at read
    exact (leads_of_step (done_inside _ _ _) (step_comma_item begins)
      (length_lt_of_skipSpace begins)).trans (passed read)

theorem leads_member {m : String × Value}
    (more : nextItem Mark.closeObject first input = .ok (true, begun))
    (read : memberOf (readValue levels) begun = .ok (m, after)) :
    Leads (inside first .object opened) input (inside false .object opened) after := by
  obtain ⟨r, keyRead, shorter, read⟩ := exists_key_of_memberOf read (.object :: opened)
  refine Leads.trans (leads_of_step (done_inside _ _ _) ?_ ?_) (passed read)
  · obtain ⟨⟨c, r, rfl, other⟩, ⟨rfl, begins⟩ | ⟨rfl, r', begins, begins'⟩⟩ :=
      exists_of_nextItem_more more
    · rw [step_first_member begins other, ← key_skipSpace, begins, keyRead]
    · rw [step_comma_member begins, ← key_skipSpace, begins', keyRead]
  · obtain ⟨-, ⟨-, begins⟩ | ⟨-, r', begins, begins'⟩⟩ := exists_of_nextItem_more more
    · have bound := length_skipSpace_le input
      rw [begins] at bound
      exact Nat.lt_of_lt_of_le shorter bound
    · have bound := length_skipSpace_le r'
      rw [begins'] at bound
      exact (Nat.lt_of_lt_of_le shorter bound).trans (length_lt_of_skipSpace begins)

end

theorem leads_value {levels : Nat} {opened : List Bracket} {input rest : Octets} {v : Value}
    (h : readValue levels input = .ok (v, rest)) :
    Leads ⟨.value, opened⟩ input ⟨.next, opened⟩ rest := by
  induction levels using Nat.strong_induction_on generalizing opened input v rest with
  | _ levels ih =>
  have shorter := (regular_readValue levels).length_lt h
  -- the step that passes over a value without parts
  have single : value opened input = .ok (⟨.next, opened⟩, rest) →
      Leads ⟨.value, opened⟩ input ⟨.next, opened⟩ rest :=
    fun step => leads_of_step rfl step shorter
  cases readAs_of_readValue h with
  | null begins word | yes begins word | no begins word =>
    refine single ?_
    rw [value, begins]
    exact congrArg (Except.map _) word
  | number begins digit read =>
    refine single ?_
    rw [value, begins]
    simp only [if_neg (ne_of_digit digit (d := Mark.n) (by decide) (by decide)),
      if_neg (ne_of_digit digit (d := Mark.t) (by decide) (by decide)),
      if_neg (ne_of_digit digit (d := Mark.f) (by decide) (by decide)), if_pos digit]
    exact congrArg (Except.map _) (skimNumber_of_read read)
  | text begins read =>
    refine single ?_
    rw [value, begins]
    exact congrArg (Except.map _) (skimString_of_readString read)
  | @array inner r _ vs deep begins items =>
    subst deep
    have opens : Leads ⟨.value, opened⟩ input (inside true .list opened) r := by
      refine leads_of_step rfl ?_ (length_lt_of_skipSpace begins)
      change value opened input = _
      rw [value, begins]
      rfl
    refine opens.trans (leads_items step_closeList (fun more read => ?_) items rfl)
    exact leads_item (ih inner (Nat.lt_succ_self inner)) more read
  | @object inner r _ ms deep begins members =>
    subst deep
    have opens : Leads ⟨.value, opened⟩ input (inside true .object opened) r := by
      refine leads_of_step rfl ?_ (length_lt_of_skipSpace begins)
      change value opened input = _
      rw [value, begins]
      rfl
    refine opens.trans (leads_items step_closeObject (fun more read => ?_) members rfl)
    exact leads_member (ih inner (Nat.lt_succ_self inner)) more read

end Skim

theorem skimValue_of_readValue {levels : Nat} {input rest : Octets} {v : Value}
    (h : readValue levels input = .ok (v, rest)) : skimValue input = .ok ((), rest) := by
  have leads : Skim.Leads ⟨.value, []⟩ input ⟨.next, []⟩ rest := Skim.leads_value h
  obtain ⟨m, enough, run⟩ := leads (input.length + 1) (Nat.lt_succ_self _)
  obtain ⟨m, rfl⟩ := Nat.exists_eq_add_one_of_ne_zero (Nat.ne_zero_of_lt enough)
  rw [skimValue, run]
  rfl

end GatewayEnrichment.Json
