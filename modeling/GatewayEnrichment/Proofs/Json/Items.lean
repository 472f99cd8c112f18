import Mathlib.Data.List.Forall2
import GatewayEnrichment.Proofs.Json.Pieces

/-! What stands between two brackets: items with commas between them, in front of the closing one.
Whatever a walk does with the items, it does with each in its turn, so two walks over one text can
be compared item by item. The items can be laid out with white space around them, and every text
that has items in it is such a layout. -/

namespace GatewayEnrichment.Json

/-- The items that stand in a text in front of the octet `close`, and the text from there on.
`first` says that no item stands before them. -/
inductive Items {ι : Type} (close : UInt8) (item : Reader ι) :
    Bool → Octets → List ι → Octets → Prop
  | nil {first : Bool} {input rest : Octets}
      (ended : nextItem close first input = .ok (false, rest)) :
      Items close item first input [] rest
  | cons {first : Bool} {input begun after rest : Octets} {a : ι} {as : List ι}
      (more : nextItem close first input = .ok (true, begun))
      (read : item begun = .ok (a, after)) (others : Items close item false after as rest) :
      Items close item first input (a :: as) rest

section

variable {close : UInt8} {first : Bool} {input begun rest : Octets}

theorem exists_of_nextItem_ended (h : nextItem close first input = .ok (false, rest)) :
    ∃ r, rest = close :: r ∧ skipSpace input = close :: r := by
  unfold nextItem at h
  split at h
  · cases h
  · next c r hc =>
    split at h
    · next same =>
      cases h
      exact ⟨r, by rw [same], by rw [hc, same]⟩
    · split at h
      · cases h
      · split at h
        · split at h
          · cases h
          · split at h <;> cases h
        · cases h

theorem exists_of_nextItem_more (h : nextItem close first input = .ok (true, begun)) :
    (∃ c r, begun = c :: r ∧ c ≠ close) ∧
      ((first = true ∧ skipSpace input = begun) ∨
        (first = false ∧ ∃ r, skipSpace input = Mark.comma :: r ∧ skipSpace r = begun)) := by
  unfold nextItem at h
  split at h
  · cases h
  · next c r hc =>
    split at h
    · cases h
    · next other =>
      split at h
      · next isFirst =>
        cases h
        exact ⟨⟨c, r, rfl, other⟩, .inl ⟨isFirst, hc⟩⟩
      · next notFirst =>
        split at h
        · next comma =>
          split at h
          · cases h
          · next d r' hd =>
            split at h
            · cases h
            · next opens =>
              cases h
              refine ⟨⟨d, r', rfl, opens⟩, .inr ⟨Bool.eq_false_iff.mpr notFirst, r, ?_, hd⟩⟩
              rw [hc, comma]
        · cases h

theorem nextItem_close {r : Octets} (h : skipSpace input = close :: r) :
    nextItem close first input = .ok (false, close :: r) := by
  rw [nextItem, h]
  exact if_pos rfl

theorem nextItem_first (h : Opens close input) :
    nextItem close true input = .ok (true, skipSpace input) := by
  obtain ⟨c, r, hr, hc⟩ := h
  rw [nextItem, hr]
  dsimp only
  rw [if_neg hc, if_pos rfl]

theorem nextItem_comma (hcomma : Mark.comma ≠ close) {r : Octets}
    (hr : skipSpace input = Mark.comma :: r) (h : Opens close r) :
    nextItem close false input = .ok (true, skipSpace r) := by
  obtain ⟨d, r', hd, hc⟩ := h
  rw [nextItem, hr]
  dsimp only
  rw [if_neg hcomma, if_neg Bool.false_ne_true, if_pos rfl, hd]
  exact if_neg hc

end

section Walk

variable {ι σ ε : Type} {close : UInt8} {item : Reader ι} {round : σ → Reader σ}
  {step : σ → ι → Except ε σ}

theorem exists_items_of_walk
    (hround : ∀ s input s' rest, round s input = .ok (s', rest) →
      ∃ a, item input = .ok (a, rest) ∧ step s a = .ok s')
    {n : Nat} {first : Bool} {s s' : σ} {input rest : Octets}
    (h : walk close round n first s input = .ok (s', rest)) :
    ∃ as, Items close item first input as rest ∧ as.foldlM step s = .ok s' := by
  induction n generalizing first s input with
  | zero => cases h
  | succ n ih =>
    obtain ⟨⟨more, begun⟩, next, h⟩ := exists_of_bind_eq_ok h
    cases more with
    | false =>
      cases h
      exact ⟨[], .nil next, rfl⟩
    | true =>
      obtain ⟨⟨t, after⟩, taken, h⟩ := exists_of_bind_eq_ok h
      obtain ⟨a, read, stepped⟩ := hround s begun t after taken
      obtain ⟨as, others, folded⟩ := ih h
      refine ⟨a :: as, .cons next read others, ?_⟩
      rw [List.foldlM_cons, stepped]
      exact folded

theorem Items.walk {n : Nat} {first : Bool} {input rest : Octets} {as : List ι}
    (h : Items close item first input as rest) (enough : as.length < n)
    (hround : ∀ s begun a after, item begun = .ok (a, after) →
      Amounts (round s begun) (step s a) after) (s : σ) :
    Amounts (walk close round n first s input) (as.foldlM step s) rest := by
  induction h generalizing n s with
  | nil ended =>
    obtain ⟨n, rfl⟩ := Nat.exists_eq_add_one_of_ne_zero (Nat.ne_zero_of_lt enough)
    rw [Json.walk, ended]
    exact .ok s _
  | cons more read others ih =>
    obtain ⟨n, rfl⟩ := Nat.exists_eq_add_one_of_ne_zero (Nat.ne_zero_of_lt enough)
    rw [Json.walk, more, List.foldlM_cons]
    refine (hround s _ _ _ read).bind fun t => ?_
    exact ih (Nat.lt_of_succ_lt_succ enough) t

end Walk

section Layout

variable {ι : Type} {close : UInt8} {item : Reader ι}

/-- The reader takes exactly this text, in front of anything that is not more of it. -/
def Holds (item : Reader ι) (o : Octets) (a : ι) : Prop :=
  ∀ rest, Stops rest → item (o ++ rest) = .ok (a, rest)

def Padded (item : Reader ι) (o : Octets) (a : ι) : Prop :=
  ∃ t gap, o = t ++ gap ∧ Blank gap ∧ Holds item t a

/-- Items of this kind begin with something else than the closing bracket, may stand behind white
space, and are taken piece by piece. -/
structure Regular (close : UInt8) (item : Reader ι) : Prop where
  opens : ∀ {input r}, item input = .ok r → Opens close input
  skips : ∀ input, item (skipSpace input) = item input
  piece : ∀ {input a rest}, item input = .ok (a, rest) → ∃ o, input = o ++ rest ∧ Holds item o a

theorem stops_blank_append {gap rest : Octets} (h : Blank gap) (hr : Stops rest) :
    Stops (gap ++ rest) := by
  cases gap with
  | nil => exact hr
  | cons c gap =>
    have space : isSpace c = true := h c List.mem_cons_self
    simp only [isSpace, Bool.or_eq_true, beq_iff_eq] at space
    rcases space with ((rfl | rfl) | rfl) | rfl
    all_goals exact ⟨by decide, by decide, by decide, by decide⟩

theorem length_le_flatMap_comma (os : List Octets) :
    os.length ≤ (os.flatMap (Mark.comma :: ·)).length := by
  induction os with
  | nil => exact Nat.le_refl 0
  | cons o os ih =>
    rw [List.flatMap_cons, List.length_append, List.length_cons, List.length_cons]
    omega

theorem Regular.holds_blank_append (regular : Regular close item) {lead o : Octets} {a : ι}
    (hl : Blank lead) (h : Holds item o a) : Holds item (lead ++ o) a := by
  intro rest stops
  rw [List.append_assoc, ← regular.skips, skipSpace_blank_append hl, regular.skips]
  exact h rest stops

theorem Regular.length_lt (regular : Regular close item) {input rest : Octets} {a : ι}
    (h : item input = .ok (a, rest)) : rest.length < input.length := by
  obtain ⟨o, rfl, held⟩ := regular.piece h
  have ne : o ≠ [] := by
    rintro rfl
    obtain ⟨c, r, none, -⟩ := regular.opens (held [] trivial)
    cases none
  rw [List.length_append]
  exact Nat.lt_add_of_pos_left (List.length_pos_iff.mpr ne)

variable (regular : Regular close item)

include regular

theorem Items.exists_padded {first : Bool} {input rest : Octets} {as : List ι}
    (h : Items close item first input as rest) :
    ∃ os r, rest = close :: r ∧ List.Forall₂ (Padded item) os as ∧ ∃ gap, Blank gap ∧
      input = if first then separated os ++ gap ++ close :: r
        else gap ++ os.flatMap (Mark.comma :: ·) ++ close :: r := by
  induction h with
  | @nil first input rest ended =>
    obtain ⟨r, rfl, begins⟩ := exists_of_nextItem_ended ended
    obtain ⟨gap, blank, rfl⟩ := exists_blank_cons begins
    refine ⟨[], r, rfl, .nil, gap, blank, ?_⟩
    cases first <;> simp [separated]
  | @cons first input begun after rest a as more read others ih =>
    obtain ⟨os, r, rfl, padded, trail, trailBlank, rfl⟩ := ih
    obtain ⟨o, rfl, held⟩ := regular.piece read
    obtain ⟨-, ⟨rfl, begins⟩ | ⟨rfl, behind, begins, begins'⟩⟩ := exists_of_nextItem_more more
    · obtain ⟨lead, leadBlank, split⟩ := exists_blank input
      rw [begins] at split
      have own : Padded item (lead ++ o ++ trail) a :=
        ⟨_, trail, rfl, trailBlank, regular.holds_blank_append leadBlank held⟩
      refine ⟨(lead ++ o ++ trail) :: os, r, rfl, .cons own padded, [], blank_nil, ?_⟩
      rw [split, if_pos rfl, separated_cons]
      simp
    · obtain ⟨gap, gapBlank, split⟩ := exists_blank_cons begins
      obtain ⟨lead, leadBlank, split'⟩ := exists_blank behind
      rw [begins'] at split'
      have own : Padded item (lead ++ o ++ trail) a :=
        ⟨_, trail, rfl, trailBlank, regular.holds_blank_append leadBlank held⟩
      refine ⟨(lead ++ o ++ trail) :: os, r, rfl, .cons own padded, gap, gapBlank, ?_⟩
      rw [split, split', if_neg Bool.false_ne_true, List.flatMap_cons]
      simp

theorem Items.length_le {first : Bool} {input rest : Octets} {as : List ι}
    (h : Items close item first input as rest) : as.length ≤ input.length := by
  obtain ⟨os, r, -, padded, gap, -, rfl⟩ := h.exists_padded regular
  rw [← padded.length_eq]
  cases first with
  | true =>
    have bound : os.length ≤ (separated os).length + 1 := length_le_separated os
    simp only [if_pos, List.length_append, List.length_cons]
    omega
  | false =>
    have bound : os.length ≤ (os.flatMap (Mark.comma :: ·)).length := length_le_flatMap_comma os
    simp only [if_neg Bool.false_ne_true, List.length_append, List.length_cons]
    omega

variable (hs : isSpace close = false) (hcomma : Mark.comma ≠ close)
  (hstop : ∀ rest, Stops (close :: rest))

omit regular in
include hstop in
theorem stops_behind {pad gap : Octets} (hp : Blank pad) (hg : Blank gap) (os : List Octets)
    (rest : Octets) :
    Stops (pad ++ (os.flatMap (Mark.comma :: ·) ++ (gap ++ close :: rest))) := by
  refine stops_blank_append hp ?_
  cases os with
  | nil =>
    change Stops (gap ++ close :: rest)
    exact stops_blank_append hg (hstop rest)
  | cons o os => exact ⟨by decide, by decide, by decide, by decide⟩

include hs hcomma hstop

theorem items_behind {os : List Octets} {as : List ι} (h : List.Forall₂ (Padded item) os as)
    {trail gap : Octets} (ht : Blank trail) (hg : Blank gap) (rest : Octets) :
    Items close item false (trail ++ (os.flatMap (Mark.comma :: ·) ++ (gap ++ close :: rest))) as
      (close :: rest) := by
  induction h generalizing trail with
  | nil =>
    refine .nil (nextItem_close ?_)
    rw [skipSpace_blank_append ht, List.flatMap_nil, List.nil_append, skipSpace_blank_append hg,
      skipSpace_cons hs]
  | @cons o a os as own others ih =>
    obtain ⟨t, pad, rfl, padBlank, held⟩ := own
    let behind := os.flatMap (Mark.comma :: ·) ++ (gap ++ close :: rest)
    have read : item (t ++ (pad ++ behind)) = .ok (a, pad ++ behind) :=
      held _ (stops_behind hstop padBlank hg os rest)
    have begins : skipSpace (trail ++ (((t ++ pad) :: os).flatMap (Mark.comma :: ·) ++
        (gap ++ close :: rest))) = Mark.comma :: (t ++ (pad ++ behind)) := by
      rw [skipSpace_blank_append ht, List.flatMap_cons, List.cons_append, List.cons_append,
        skipSpace_cons (by decide)]
      simp [behind]
    refine .cons (nextItem_comma hcomma begins (regular.opens read)) ?_ (ih padBlank)
    rw [regular.skips]
    exact read

theorem items_separated {os : List Octets} {as : List ι} (h : List.Forall₂ (Padded item) os as)
    {gap : Octets} (hg : Blank gap) (rest : Octets) :
    Items close item true (separated os ++ (gap ++ close :: rest)) as (close :: rest) := by
  cases h with
  | nil =>
    refine .nil (nextItem_close ?_)
    rw [separated, List.nil_append, skipSpace_blank_append hg, skipSpace_cons hs]
  | @cons o a os as own others =>
    obtain ⟨t, pad, rfl, padBlank, held⟩ := own
    let behind := os.flatMap (Mark.comma :: ·) ++ (gap ++ close :: rest)
    have read : item (t ++ (pad ++ behind)) = .ok (a, pad ++ behind) :=
      held _ (stops_behind hstop padBlank hg os rest)
    have text : separated ((t ++ pad) :: os) ++ (gap ++ close :: rest) = t ++ (pad ++ behind) := by
      rw [separated_cons]
      simp [behind]
    rw [text]
    refine .cons (nextItem_first (regular.opens read)) ?_
      (items_behind regular hs hcomma hstop others padBlank hg rest)
    rw [regular.skips]
    exact read

end Layout

end GatewayEnrichment.Json
