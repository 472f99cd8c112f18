import GatewayEnrichment.Proofs.Json.Rereading
import GatewayEnrichment.Proofs.Json.Skimming

/-! Reading a value at once and by way of the tree. Where a value can be read in full, reading it as
a schema says has the same outcome as fitting the value to the schema, and stops at the same place.
Only which problem is reported may differ, since one way meets them in another order. -/

namespace GatewayEnrichment.Json

/-- Wherever a value stands, reading it at once amounts to fitting it. -/
def Fits {α : Type} (read : Reader α) (fit : Value → Except Mismatch α) : Prop :=
  ∀ ⦃levels : Nat⦄ ⦃input rest : Octets⦄ ⦃v : Value⦄, readValue levels input = .ok (v, rest) →
    Amounts (read input) (fit v) rest

section

variable {α : Type}

theorem exists_refuse (wanted : Wanted) (input : Octets) :
    ∃ flaw, (refuse wanted input : Except Flaw (α × Octets)) = .error flaw := by
  rw [refuse]
  cases readValueWith Value.found _ _ input with
  | error flaw => exact ⟨flaw, rfl⟩
  | ok r => exact ⟨_, rfl⟩

theorem amounts_refuse (wanted wanted' : Wanted) (input rest : Octets) (v : Value) :
    Amounts (refuse wanted input : Except Flaw (α × Octets)) (unfit v wanted') rest := by
  obtain ⟨flaw, refused⟩ := exists_refuse (α := α) wanted input
  rw [refused]
  exact .error _ _ _

theorem amounts_fitting (e : Except Mismatch α) (rest : Octets) :
    Amounts (fitting e >>= fun a => .ok (a, rest)) e rest := by
  cases e with
  | error m => exact .error _ _ _
  | ok a => exact .ok a rest

end

theorem amounts_closed {σ α : Type} {close : UInt8} (hs : isSpace close = false)
    {x : Except Flaw (σ × Octets)} {y : Except Mismatch σ} {rest : Octets}
    (h : Amounts x y (close :: rest)) (f : σ → α) :
    Amounts (x >>= fun s => readMark close s.2 >>= fun u => .ok (f s.1, u.2)) (y.map f) rest := by
  cases h with
  | error e e' => exact .error _ _ _
  | ok s =>
    refine .of_eq ?_
    change (readMark close (close :: rest) >>= fun u => Except.ok (f s, u.2)) = _
    rw [readMark_cons hs]
    rfl

section

variable {input r : Octets} {c : UInt8} (begins : skipSpace input = c :: r)

include begins

theorem readText_other (other : c ≠ Mark.quote) : readText input = refuse .text (c :: r) := by
  rw [readText, begins]
  split
  · next same => exact absurd (List.cons.inj same).1 other
  · rfl

theorem readFlag_other (yes : c ≠ Mark.t) (no : c ≠ Mark.f) :
    readFlag input = refuse .flag (c :: r) := by
  rw [readFlag, begins]
  dsimp only
  split
  · next same => exact absurd (List.cons.inj same).1 yes
  · next same => exact absurd (List.cons.inj same).1 no
  · rfl

section

variable {α : Type}

theorem readNumeral_other (wanted : Wanted) (use : Numeral → Except Mismatch α)
    (other : ¬ (c = Mark.minus ∨ isDigit c = true)) :
    readNumeral wanted use input = refuse wanted (c :: r) := by
  rw [readNumeral, begins]
  exact if_neg other

theorem readNullable_other (inner : Reader α) (other : c ≠ Mark.n) :
    readNullable inner input = (inner (c :: r)).map fun x => (some x.1, x.2) := by
  rw [readNullable, begins]
  dsimp only
  split
  · next same => exact absurd (List.cons.inj same).1 other
  · rfl

theorem readListOf_other (item : Reader α) (other : c ≠ Mark.openList) :
    readListOf item input = refuse .sequence (c :: r) := by
  rw [readListOf, begins]
  split
  · next same => exact absurd (List.cons.inj same).1 other
  · rfl

end

theorem readTable_other (other : c ≠ Mark.openObject) :
    readTable input = refuse .table (c :: r) := by
  rw [readTable, begins]
  split
  · next same => exact absurd (List.cons.inj same).1 other
  · rfl

theorem readRecord_other (name : String) (fs : Fields) (list : c ≠ Mark.openList)
    (object : c ≠ Mark.openObject) :
    (Schema.record name fs).read input = refuse (.record name) (c :: r) := by
  rw [Schema.read]
  beta_reduce
  rw [begins]
  split
  · next same => exact absurd (List.cons.inj same).1 list
  · next same => exact absurd (List.cons.inj same).1 object
  · rfl

end

theorem fits_text : Fits readText fitText := by
  intro levels input rest v h
  cases readAs_of_readValue h with
  | text begins read =>
    refine .of_eq ?_
    rw [readText, begins]
    exact read
  | number begins digit =>
    rw [readText_other begins (ne_of_digit digit (by decide) (by decide))]
    exact amounts_refuse ..
  | null begins | yes begins | no begins | array _ begins | object _ begins =>
    rw [readText_other begins (by decide)]
    exact amounts_refuse ..

theorem fits_flag : Fits readFlag fitFlag := by
  intro levels input rest v h
  cases readAs_of_readValue h with
  | yes begins word | no begins word =>
    refine .of_eq ?_
    rw [readFlag, begins]
    exact congrArg (Except.map _) word
  | number begins digit =>
    rw [readFlag_other begins (ne_of_digit digit (by decide) (by decide))
      (ne_of_digit digit (by decide) (by decide))]
    exact amounts_refuse ..
  | null begins | text begins | array _ begins | object _ begins =>
    rw [readFlag_other begins (by decide) (by decide)]
    exact amounts_refuse ..

section

variable {α : Type}

theorem fits_numeral (wanted : Wanted) (use : Numeral → Except Mismatch α) :
    Fits (readNumeral wanted use) (fitNumeral wanted use) := by
  intro levels input rest v h
  cases readAs_of_readValue h with
  | @number c r _ n begins digit read =>
    have taken : readNumeral wanted use input =
        Numeral.read (c :: r) >>= fun x => fitting (use x.1) >>= fun a => .ok (a, x.2) := by
      rw [readNumeral, begins]
      exact if_pos digit
    rw [taken, read]
    exact amounts_fitting (use n) rest
  | null begins | yes begins | no begins | text begins | array _ begins | object _ begins =>
    rw [readNumeral_other begins wanted use (by decide)]
    exact amounts_refuse ..

theorem Fits.nullable {inner : Reader α} {fit : Value → Except Mismatch α} (h : Fits inner fit) :
    Fits (readNullable inner) (fitNullable fit) := by
  intro levels input rest v read
  have some : ∀ {c r}, skipSpace input = c :: r → c ≠ Mark.n → v ≠ .null →
      Amounts (readNullable inner input) (fitNullable fit v) rest := by
    intro c r begins other full
    rw [← readValue_skipSpace, begins] at read
    rw [readNullable_other begins inner other, fitNullable_of_ne_null fit full]
    exact (h read).map some
  cases readAs_of_readValue read with
  | null begins word =>
    refine .of_eq ?_
    rw [readNullable, begins]
    exact congrArg (Except.map _) word
  | number begins digit =>
    exact some begins (ne_of_digit digit (by decide) (by decide)) (by rintro ⟨⟩)
  | yes begins | no begins | text begins | array _ begins | object _ begins =>
    exact some begins (by decide) (by rintro ⟨⟩)

theorem foldlM_eq_mapM {ι ε : Type} (f : ι → Except ε α) (as : List ι) (seen : List α) :
    as.foldlM (fun seen a => (f a).map (· :: seen)) seen =
      (as.mapM f).map fun bs => bs.reverse ++ seen := by
  induction as generalizing seen with
  | nil => rfl
  | cons a as ih =>
    rw [List.foldlM_cons, List.mapM_cons]
    cases f a with
    | error e => rfl
    | ok b =>
      change as.foldlM _ (b :: seen) = (as.mapM f >>= fun bs => .ok (b :: bs)).map _
      rw [ih]
      cases as.mapM f with
      | error e => rfl
      | ok bs => simp [Except.map, bind, Except.bind]

variable {levels : Nat} {input rest : Octets}

theorem Fits.listItems {item : Reader α} {fit : Value → Except Mismatch α} (h : Fits item fit)
    {vs : List Value}
    (items : Items Mark.closeList (readValue levels) true input vs (Mark.closeList :: rest)) :
    Amounts (walkItems (fun seen input => do
      let (a, rest) ← item input
      return (a :: seen, rest)) [] input) ((vs.mapM fit).map List.reverse)
      (Mark.closeList :: rest) := by
  have enough : vs.length < input.length + 1 :=
    Nat.lt_succ_of_le (items.length_le (regular_readValue levels))
  have whole : vs.foldlM (fun seen v => (fit v).map (· :: seen)) [] =
      (vs.mapM fit).map List.reverse := by
    rw [foldlM_eq_mapM]
    simp only [List.append_nil]
  rw [← whole]
  refine items.walk enough (fun seen begun v after read => ?_) []
  exact (h read).map (· :: seen)

theorem Fits.list {item : Reader α} {fit : Value → Except Mismatch α} (h : Fits item fit) :
    Fits (readListOf item) (fitListOf fit) := by
  intro levels input rest v read
  cases readAs_of_readValue read with
  | @array _ _ _ vs _ begins items =>
    rw [readListOf, begins]
    have whole : ((vs.mapM fit).map List.reverse).map List.reverse = vs.mapM fit := by
      cases vs.mapM fit with
      | error e => rfl
      | ok as => exact congrArg Except.ok (List.reverse_reverse as)
    rw [fitListOf, ← whole]
    exact amounts_closed (by decide) (h.listItems items) List.reverse
  | number begins digit =>
    rw [readListOf_other begins item (ne_of_digit digit (by decide) (by decide))]
    exact amounts_refuse ..
  | null begins | yes begins | no begins | text begins | object _ begins =>
    rw [readListOf_other begins item (by decide)]
    exact amounts_refuse ..

end

def readEntry (key : String) (t : Table) : Reader Table := fun input => do
  let (_, rest) ← readColon input
  let (s, rest) ← readText rest
  return (Table.insert t key s, rest)

def fitEntry (t : Table) (m : String × Value) : Except Mismatch Table :=
  (fitText m.2).map (t.insert m.1)

theorem fitTable_object (ms : List (String × Value)) :
    fitTable (.object ms) = ms.foldlM fitEntry Table.empty := by
  have step : (fun (t : Table) (m : String × Value) => fitText m.2 >>= fun s =>
      (.ok (t.insert m.1 s) : Except Mismatch Table)) = fitEntry := by
    funext t m
    rw [fitEntry]
    cases fitText m.2 <;> rfl
  rw [← step]
  rfl

theorem fits_table : Fits readTable fitTable := by
  intro levels input rest v read
  cases readAs_of_readValue read with
  | @object inner r _ ms _ begins members =>
    have entries : Amounts (walkMembers readEntry Table.empty r) (ms.foldlM fitEntry Table.empty)
        (Mark.closeObject :: rest) := by
      refine members.walkMembers (regular_readValue inner) (fun key t behind v after read => ?_) _
      obtain ⟨⟨⟨⟩, r⟩, colon, read⟩ := exists_of_bind_eq_ok read
      rw [readEntry, colon]
      exact (fits_text read).map (t.insert key)
    have whole : (fitTable (.object ms)).map id = fitTable (.object ms) := by
      cases fitTable (.object ms) <;> rfl
    rw [readTable, begins, ← whole, fitTable_object]
    exact amounts_closed (by decide) entries id
  | number begins digit =>
    rw [readTable_other begins (ne_of_digit digit (by decide) (by decide))]
    exact amounts_refuse ..
  | null begins | yes begins | no begins | text begins | array _ begins =>
    rw [readTable_other begins (by decide)]
    exact amounts_refuse ..

theorem amounts_absent (record : String) (fields index : Nat) (presence : Presence) (name : String)
    (s : Schema) (rest : Octets) :
    Amounts ((fitting (shortRecord record fields index (presence.absent name s))).map (·, rest))
      (shortRecord record fields index (presence.absent name s)) rest := by
  cases shortRecord record fields index (presence.absent name s) with
  | error e => exact .error _ _ _
  | ok v => exact .ok v rest

theorem exists_closeItems_of_nextItem {first : Bool} {input begun : Octets}
    (h : nextItem Mark.closeList first input = .ok (true, begun)) :
    ∃ flaw, closeItems input = .error flaw := by
  obtain ⟨⟨c, r, rfl, other⟩, ⟨-, begins⟩ | ⟨-, r', begins, -⟩⟩ := exists_of_nextItem_more h
  · exact ⟨.malformed, by rw [closeItems, readMark, begins]; exact if_neg other⟩
  · exact ⟨.malformed, by rw [closeItems, readMark, begins]; exact if_neg (by decide)⟩

section

variable {α β : Type}

def closing (x : α × Octets) : Except Flaw (α × Octets) :=
  closeItems x.2 >>= fun u => .ok (x.1, u.2)

theorem map_bind_closing (y : Except Flaw (α × Octets)) (f : α → β) :
    (y.map fun x => (f x.1, x.2)) >>= closing = (y >>= closing).map fun x => (f x.1, x.2) := by
  cases y with
  | error e => rfl
  | ok x =>
    change closing (f x.1, x.2) = (closing x).map _
    rw [closing, closing]
    cases closeItems x.2 <;> rfl

end

section

variable {record name : String} {fields index : Nat} {presence : Presence} {s : Schema}
  {fs : Fields} {input begun : Octets}

theorem readItems_ended (h : nextItem Mark.closeList (index == 0) input = .ok (false, begun)) :
    (Fields.cons name presence s fs).readItems record fields index input =
      (fitting (shortRecord record fields index (presence.absent name s))).map (·, begun) >>=
        fun v =>
          (fs.readItems record fields (index + 1) v.2).map fun vs => ((v.1, vs.1), vs.2) := by
  rw [Fields.readItems]
  beta_reduce
  rw [h]
  rfl

theorem readItems_more (h : nextItem Mark.closeList (index == 0) input = .ok (true, begun)) :
    (Fields.cons name presence s fs).readItems record fields index input =
      s.read begun >>= fun v =>
        (fs.readItems record fields (index + 1) v.2).map fun vs => ((v.1, vs.1), vs.2) := by
  rw [Fields.readItems]
  beta_reduce
  rw [h]
  rfl

end

mutual

/-- Reading a value as a schema says amounts to fitting the value to the schema. -/
theorem Schema.fits_read : (s : Schema) → Fits s.read s.fit
  | .text => fits_text
  | .flag => fits_flag
  | .number f => fits_numeral (.number f) fun n => .ok (n.toBinary f)
  | .int32 => fits_numeral .int32 Numeral.toInt32
  | .nullable s => s.fits_read.nullable
  | .list s => s.fits_read.list
  | .table => fits_table
  | .record name fs => by
    intro levels input rest v read
    cases readAs_of_readValue read with
    | array _ begins items =>
      rw [Schema.read, Schema.fit]
      beta_reduce
      rw [begins]
      exact Fields.fits_items name fs.count fs 0 items
    | @object inner r _ ms _ begins members =>
      have seen : Amounts (walkMembers fs.readMember fs.unseen r) (fs.fitMembers fs.unseen ms)
          (Mark.closeObject :: rest) := by
        refine members.walkMembers (regular_readValue inner) (fun key seen _ v after read => ?_) _
        exact fs.fits_member key seen read
      rw [Schema.read, Schema.fit]
      beta_reduce
      rw [begins]
      refine seen.bind fun seen => ?_
      change Amounts (fitting (fs.complete seen) >>= fun vs =>
        closeMembers (Mark.closeObject :: rest) >>= fun u => .ok (vs, u.2)) _ _
      rw [closeMembers, readMark_cons (by decide)]
      exact amounts_fitting (fs.complete seen) rest
    | number begins digit =>
      rw [readRecord_other begins name fs (ne_of_digit digit (by decide) (by decide))
        (ne_of_digit digit (by decide) (by decide))]
      exact amounts_refuse ..
    | null begins | yes begins | no begins | text begins =>
      rw [readRecord_other begins name fs (by decide) (by decide)]
      exact amounts_refuse ..

theorem Fields.fits_items (record : String) (fields : Nat) : (fs : Fields) → (index : Nat) →
    {levels : Nat} → {input rest : Octets} → {vs : List Value} →
    Items Mark.closeList (readValue levels) (index == 0) input vs (Mark.closeList :: rest) →
    Amounts (fs.readItems record fields index input >>= closing)
      (fs.fitItems record fields index vs) rest
  | .nil, index, levels, input, rest, [], h => by
    cases h with
    | nil ended =>
      obtain ⟨r, ⟨⟩, begins⟩ := exists_of_nextItem_ended ended
      change Amounts (closeItems input >>= fun u => .ok ((), u.2)) _ rest
      rw [closeItems, readMark_of_begins begins]
      exact .ok () rest
  | .nil, index, levels, input, rest, v :: vs, h => by
    cases h with
    | cons more read others =>
      obtain ⟨flaw, refused⟩ := exists_closeItems_of_nextItem more
      change Amounts (closeItems input >>= fun u => .ok ((), u.2)) _ rest
      rw [refused]
      exact .error _ _ _
  | .cons name presence s fs, index, levels, input, rest, [], h => by
    cases h with
    | nil ended =>
      have others : Items Mark.closeList (readValue levels) (index + 1 == 0)
          (Mark.closeList :: rest) [] (Mark.closeList :: rest) :=
        .nil (nextItem_close (skipSpace_cons (by decide) rest))
      rw [readItems_ended ended, bind_assoc]
      refine (amounts_absent record fields index presence name s _).bind fun v => ?_
      rw [map_bind_closing]
      exact (fs.fits_items record fields (index + 1) others).map fun vs => (v, vs)
  | .cons name presence s fs, index, levels, input, rest, v :: vs, h => by
    cases h with
    | cons more read others =>
      rw [readItems_more more, bind_assoc]
      refine (s.fits_read read).bind fun v => ?_
      rw [map_bind_closing]
      exact (fs.fits_items record fields (index + 1) others).map fun vs => (v, vs)

theorem Fields.fits_member : (fs : Fields) → (key : String) → (seen : fs.Seen) →
    {levels : Nat} → {input rest : Octets} → {v : Value} →
    behindColon (readValue levels) input = .ok (v, rest) →
    Amounts (fs.readMember key seen input) (fs.fitMember key v seen) rest
  | .nil, key, (), levels, input, rest, v, h => by
    obtain ⟨⟨⟨⟩, r⟩, colon, read⟩ := exists_of_bind_eq_ok h
    have passed : skimValue r = .ok ((), rest) := skimValue_of_readValue read
    refine .of_eq ?_
    rw [Fields.readMember]
    beta_reduce
    rw [colon]
    change (skimValue r >>= fun u => Except.ok ((), u.2)) = _
    rw [passed]
    rfl
  | .cons name presence s fs, key, (own, seen), levels, input, rest, v, h => by
    change Amounts (if key = name then _ else _) (if key = name then _ else _) rest
    by_cases same : key = name
    · rw [if_pos same, if_pos same]
      cases own with
      | some w => exact .error _ _ _
      | none =>
        obtain ⟨⟨⟨⟩, r⟩, colon, read⟩ := exists_of_bind_eq_ok h
        rw [colon]
        exact (s.fits_read read).map fun w => (some w, seen)
    · rw [if_neg same, if_neg same]
      exact (fs.fits_member key seen h).map fun seen => (own, seen)

end

end GatewayEnrichment.Json
