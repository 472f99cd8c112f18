import GatewayEnrichment.Proofs.Url.Decoding
import Mathlib.Data.List.TakeWhile

/-! What a request target means to whoever receives it, by the generic syntax of references: the
fragment begins at the first number sign, the query at the first question mark before that, and the
path is cut at its slashes, with dot segments taken out. A client has cut the path itself by then,
at backslashes as well, so a target has the segments that the client has left. -/

namespace GatewayEnrichment.Url

structure Reference where
  path : List (List Char)
  query : Option (List Char)
  fragment : Option (List Char)

def behind? (mark : Char) (cs : List Char) : Option (List Char) := (cs.dropWhile (· ≠ mark)).tail?

def dotsRemoved (path : List (List Char)) : List (List Char) → List (List Char)
  | [] => path.reverse
  | segment :: rest =>
    let up := if segment = ['.', '.'] then path.drop 1 else path
    if segment = ['.'] ∨ segment = ['.', '.'] then
      dotsRemoved (if rest = [] then [] :: up else up) rest
    else dotsRemoved (segment :: path) rest

def Reference.ofTarget (target : List Char) : Reference :=
  let rest := target.takeWhile (· ≠ '#')
  { path := dotsRemoved [] (((rest.takeWhile (· ≠ '?')).drop 1).splitOn '/')
    query := behind? '?' rest
    fragment := behind? '#' target }

example : (Reference.ofTarget "/a/../b/c?d?e".toList).path = ["b".toList, "c".toList] := by decide

def isDot (segment : List Char) : Bool := isDoubleDot segment || isSingleDot segment

def entered (path : List (List Char)) (segment : List Char) : List (List Char) :=
  if isDoubleDot segment then path.drop 1
  else if isSingleDot segment then path
  else segment :: path

theorem splitSegments_ne_nil (cs : List Char) : splitSegments cs ≠ [] := by
  cases cs with
  | nil => exact List.cons_ne_nil _ _
  | cons c cs =>
    rw [splitSegments]
    split
    · exact List.cons_ne_nil _ _
    · split <;> exact List.cons_ne_nil _ _

theorem splitSegments_append {slash : Char} (h : isSlash slash = true) (as bs : List Char) :
    splitSegments (as ++ slash :: bs) = splitSegments as ++ splitSegments bs := by
  induction as with
  | nil =>
    simp only [List.nil_append, splitSegments, h, if_true]
    rfl
  | cons c as ih =>
    rw [List.cons_append, splitSegments, splitSegments, ih]
    split
    · rfl
    · cases hs : splitSegments as with
      | nil => exact absurd hs (splitSegments_ne_nil as)
      | cons segment rest => rfl

theorem splitSegments_of_slashless {cs : List Char} (h : ∀ c ∈ cs, isSlash c = false) :
    splitSegments cs = [cs] := by
  induction cs with
  | nil => rfl
  | cons c cs ih =>
    rw [splitSegments, h c List.mem_cons_self, ih fun d hd => h d (List.mem_cons_of_mem c hd)]
    rfl

theorem slashless_of_mem_splitSegments {cs segment : List Char} (h : segment ∈ splitSegments cs) :
    segment.Sublist cs ∧ ∀ c ∈ segment, isSlash c = false := by
  induction cs generalizing segment with
  | nil =>
    rw [List.mem_singleton.mp h]
    exact ⟨List.Sublist.refl _, fun c hc => absurd hc List.not_mem_nil⟩
  | cons c cs ih =>
    rw [splitSegments] at h
    split at h
    · rcases List.mem_cons.mp h with rfl | h
      · exact ⟨List.nil_sublist _, fun c hc => absurd hc List.not_mem_nil⟩
      · exact ⟨(ih h).1.cons c, (ih h).2⟩
    · next hc =>
      have hc : isSlash c = false := Bool.eq_false_iff.mpr hc
      cases hs : splitSegments cs with
      | nil => exact absurd hs (splitSegments_ne_nil cs)
      | cons first rest =>
        rw [hs] at h ih
        rcases List.mem_cons.mp h with rfl | h
        · obtain ⟨sub, slashless⟩ := ih List.mem_cons_self
          refine ⟨sub.cons_cons c, fun d hd => ?_⟩
          rcases List.mem_cons.mp hd with rfl | hd
          · exact hc
          · exact slashless d hd
        · obtain ⟨sub, slashless⟩ := ih (List.mem_cons_of_mem _ h)
          exact ⟨sub.cons c, slashless⟩

theorem resolve_concat (path segments : List (List Char)) (last : List Char) :
    resolve path (segments ++ [last]) =
      (if isDoubleDot last then (segments.foldl entered path).drop 1
        else segments.foldl entered path).reverse ++ [if isDot last then [] else last] := by
  induction segments generalizing path with
  | nil =>
    rw [List.nil_append, resolve, isDot, ← List.reverse_cons, List.foldl_nil]
    cases isDoubleDot last <;> cases isSingleDot last <;> rfl
  | cons segment segments ih =>
    obtain ⟨next, rest, hr⟩ := List.exists_cons_of_ne_nil
      (List.append_ne_nil_of_right_ne_nil segments (List.cons_ne_nil last []))
    rw [List.foldl_cons, ← ih, List.cons_append, hr, resolve, entered]
    · split
      · rfl
      · split <;> rfl
    · exact List.cons_ne_nil next rest

theorem mem_foldl_entered {segments path : List (List Char)} {segment : List Char}
    (h : segment ∈ segments.foldl entered path) :
    segment ∈ path ∨ segment ∈ segments ∧ isDot segment = false := by
  induction segments generalizing path with
  | nil => exact .inl h
  | cons first segments ih =>
    rcases ih h with h | ⟨h, plain⟩
    · rw [entered] at h
      split at h
      · exact .inl (List.mem_of_mem_drop h)
      · next hd =>
        split at h
        · exact .inl h
        · next hs =>
          rcases List.mem_cons.mp h with rfl | h
          · refine .inr ⟨List.mem_cons_self, ?_⟩
            rw [isDot, Bool.or_eq_false_iff]
            exact ⟨Bool.eq_false_iff.mpr hd, Bool.eq_false_iff.mpr hs⟩
          · exact .inl h
    · exact .inr ⟨List.mem_cons_of_mem first h, plain⟩

/-- The segments that are left are some of those that there were, and there is one at least. -/
theorem mem_resolve {segments : List (List Char)} (some : segments ≠ []) :
    resolve [] segments ≠ [] ∧ ∀ segment ∈ resolve [] segments,
      segment = [] ∨ segment ∈ segments ∧ isDot segment = false := by
  obtain ⟨front, last, rfl⟩ := (List.eq_nil_or_concat' segments).resolve_left some
  rw [resolve_concat]
  refine ⟨List.append_ne_nil_of_right_ne_nil _ (List.cons_ne_nil _ _), fun segment h => ?_⟩
  rcases List.mem_append.mp h with h | h
  · rw [List.mem_reverse] at h
    have among : segment ∈ front.foldl entered [] := by
      split at h
      · exact List.mem_of_mem_drop h
      · exact h
    rcases mem_foldl_entered among with h | ⟨h, plain⟩
    · exact absurd h List.not_mem_nil
    · exact .inr ⟨List.mem_append_left _ h, plain⟩
  · rw [List.mem_singleton] at h
    split at h
    · exact .inl h
    · next plain =>
      rw [h]
      exact .inr ⟨List.mem_append_right _ List.mem_cons_self, Bool.eq_false_iff.mpr plain⟩

theorem dotsRemoved_eq {segments : List (List Char)}
    (undotted : ∀ segment ∈ segments, segment ≠ ['.'] ∧ segment ≠ ['.', '.'])
    (path : List (List Char)) : dotsRemoved path segments = path.reverse ++ segments := by
  induction segments generalizing path with
  | nil => exact (List.append_nil _).symm
  | cons segment rest ih =>
    have here := undotted segment List.mem_cons_self
    rw [dotsRemoved, if_neg (not_or.mpr here),
      ih (fun s hs => undotted s (List.mem_cons_of_mem segment hs)), List.reverse_cons,
      List.append_assoc]
    rfl

/-! A dot that is given by its code is one that was not there as itself. -/

theorem toLower_eq {c d : Char} (h : c.toLower = d) :
    c = d ∨ 'a' ≤ d ∧ c.toNat + 32 = d.toNat := by
  delta Char.toLower at h
  split at h
  · next upper =>
    have low : 65 ≤ c.toNat := UInt32.le_iff_toNat_le.mp upper.1
    have high : c.toNat ≤ 90 := UInt32.le_iff_toNat_le.mp upper.2
    have sum : c.toNat + 32 = d.toNat := by
      rw [← h]
      change _ = (c.val + 32).toNat
      rw [UInt32.toNat_add]
      change c.toNat + 32 = (c.toNat + 32) % 2 ^ 32
      omega
    refine .inr ⟨?_, sum⟩
    rw [Char.le_def, UInt32.le_iff_toNat_le]
    change 97 ≤ d.toNat
    omega
  · exact .inl h

theorem eq_of_toLower {c d : Char} (h : c.toLower = d) (hd : d < 'a') : c = d :=
  (toLower_eq h).resolve_right fun hl => absurd hl.1 (Char.not_le.mpr hd)

theorem not_unescaped_of_toLower {cs : List Char} (h : ['%', '2', 'e'] <:+: cs.map Char.toLower) :
    ¬ Unescaped cs := by
  intro unescaped
  obtain ⟨before, behind, h⟩ := h
  obtain ⟨front, rest, rfl, hf, -⟩ := List.map_eq_append_iff.mp h.symm
  obtain ⟨front, code, rfl, -, hc⟩ := List.map_eq_append_iff.mp hf
  simp only [List.map_eq_cons_iff, List.map_eq_nil_iff] at hc
  obtain ⟨mark, _, rfl, hm, high, _, rfl, hh, low, _, rfl, hl, rfl⟩ := hc
  have none := unescaped mark high low ⟨front, rest, rfl⟩
  rw [eq_of_toLower hm (by decide), eq_of_toLower hh (by decide)] at none
  rcases toLower_eq hl with rfl | ⟨-, hl⟩
  · exact absurd none (by decide)
  · have upper : low = 'E' := by
      rw [← Char.ofNat_toNat low, Nat.add_right_cancel (hl : low.toNat + 32 = 69 + 32)]
    rw [upper] at none
    exact absurd none (by decide)

theorem dots_of_isDot {cs : List Char} (unescaped : Unescaped cs) (dot : isDot cs = true) :
    cs = ['.'] ∨ cs = ['.', '.'] := by
  have coded : ∀ before behind, cs.map Char.toLower ≠ before ++ ['%', '2', 'e'] ++ behind :=
    fun before behind h => not_unescaped_of_toLower ⟨before, behind, h.symm⟩ unescaped
  have spelled : ∀ dots, String.ofList (cs.map Char.toLower) = dots →
      cs.map Char.toLower = dots.toList := fun dots h => h ▸ String.toList_ofList.symm
  rw [isDot, isDoubleDot, isSingleDot, Bool.or_eq_true, List.contains_iff_mem,
    List.contains_iff_mem, List.mem_cons, List.mem_cons, List.mem_pair, List.mem_pair] at dot
  rcases dot with (h | h | h | h) | h | h
  · have two := spelled _ h
    obtain ⟨c, rest, rfl, hc, two⟩ := List.map_eq_cons_iff.mp two
    obtain ⟨d, rest, rfl, hd, two⟩ := List.map_eq_cons_iff.mp two
    rw [eq_of_toLower hc (by decide), eq_of_toLower hd (by decide), List.map_eq_nil_iff.mp two]
    exact .inr rfl
  · exact absurd (spelled _ h) (coded ['.'] [])
  · exact absurd (spelled _ h) (coded [] ['.'])
  · exact absurd (spelled _ h) (coded [] ['%', '2', 'e'])
  · have one := spelled _ h
    obtain ⟨c, rest, rfl, hc, one⟩ := List.map_eq_cons_iff.mp one
    rw [eq_of_toLower hc (by decide), List.map_eq_nil_iff.mp one]
    exact .inl rfl
  · exact absurd (spelled _ h) (coded [] [])

theorem mem_sent {cs : List Char} {c : Char} (h : c ∈ sent cs) :
    (c ∈ cs ∧ inPath c) ∨ c = '%' ∨ (hexValue? c).isSome := by
  obtain ⟨d, hd, hc⟩ := List.mem_flatMap.mp h
  rcases mem_encodeUnless hc with ⟨rfl, allowed⟩ | code
  · exact .inl ⟨hd, allowed⟩
  · exact .inr code

theorem sent_eq_self {cs : List Char} (h : '%' ∉ sent cs) : sent cs = cs := by
  induction cs with
  | nil => rfl
  | cons c cs ih =>
    rw [sent_cons, List.mem_append, not_or] at h
    have allowed : inPath c = true := by
      by_contra hc
      rw [encodeUnless, if_neg hc] at h
      obtain ⟨b, bs, code⟩ := List.exists_cons_of_ne_nil (utf8EncodeChar_ne_nil c)
      rw [code] at h
      exact h.1 List.mem_cons_self
    rw [sent_cons_of_inPath allowed, ih h.2]

theorem sent_ne_dots {segment : List Char} (h : isDot segment = false) :
    sent segment ≠ ['.'] ∧ sent segment ≠ ['.', '.'] := by
  have same : ∀ dots : List Char, '%' ∉ dots → isDot dots = true → sent segment ≠ dots := by
    intro dots plain dotted hs
    have he := sent_eq_self (hs ▸ plain)
    rw [← he, hs, dotted] at h
    cases h
  exact ⟨same ['.'] (by decide) (by decide), same ['.', '.'] (by decide) (by decide)⟩

theorem separator_not_mem_sent {segment : List Char} (h : ∀ c ∈ segment, isSlash c = false) :
    '/' ∉ sent segment ∧ '?' ∉ sent segment ∧ '#' ∉ sent segment := by
  refine ⟨fun hm => ?_, fun hm => ?_, fun hm => ?_⟩
  · rcases mem_sent hm with ⟨hs, -⟩ | hs | hs
    · exact absurd (h '/' hs) (by decide)
    · exact absurd hs (by decide)
    · exact absurd hs (by decide)
  · rcases mem_sent hm with ⟨-, hs⟩ | hs | hs <;> exact absurd hs (by decide)
  · rcases mem_sent hm with ⟨-, hs⟩ | hs | hs <;> exact absurd hs (by decide)

theorem flatMap_slash {segments : List (List Char)} (some : segments ≠ []) :
    segments.flatMap (fun segment => '/' :: sent segment) =
      '/' :: ['/'].intercalate (segments.map sent) := by
  induction segments with
  | nil => exact absurd rfl some
  | cons segment segments ih =>
    cases segments with
    | nil => simp
    | cons next segments =>
      rw [List.flatMap_cons, ih (List.cons_ne_nil _ _)]
      simp

def requested (url : List Char) : List Char := (afterHost (cleaned url)).takeWhile (· ≠ '#')

def segmentsOf (rest : List Char) : List (List Char) :=
  resolve [] (splitSegments ((rest.takeWhile (· ≠ '?')).drop 1))

theorem sent_query (rest : List Char) :
    let query := (rest.dropWhile (· ≠ '?')).flatMap (encodeUnless inQuery)
    '#' ∉ query ∧ query.takeWhile (· ≠ '?') = [] ∧
      behind? '?' query = (behind? '?' rest).map (·.flatMap (encodeUnless inQuery)) := by
  refine ⟨fun h => ?_, ?_⟩
  · obtain ⟨c, -, hc⟩ := List.mem_flatMap.mp h
    rcases mem_encodeUnless hc with ⟨rfl, hs⟩ | hs | hs <;> exact absurd hs (by decide)
  · rw [behind?, behind?]
    cases hq : rest.dropWhile (· ≠ '?') with
    | nil => exact ⟨rfl, rfl⟩
    | cons c more =>
      have mark : c = '?' := by
        have head := List.head?_dropWhile_not (fun c : Char => decide (c ≠ '?')) rest
        rw [hq] at head
        simpa using head
      rw [mark]
      exact ⟨rfl, rfl⟩

section

variable {segments : List (List Char)} (some : segments ≠ [])
  (sound : ∀ segment ∈ segments, (∀ c ∈ segment, isSlash c = false) ∧ isDot segment = false)

include sound

theorem mark_not_mem_path :
    ∀ c ∈ segments.flatMap fun segment => '/' :: sent segment, c ≠ '?' ∧ c ≠ '#' := by
  intro c hc
  obtain ⟨segment, hs, hc⟩ := List.mem_flatMap.mp hc
  obtain ⟨-, question, number⟩ := separator_not_mem_sent (sound segment hs).1
  rcases List.mem_cons.mp hc with rfl | hc
  · decide
  · exact ⟨ne_of_mem_of_not_mem hc question, ne_of_mem_of_not_mem hc number⟩

include some

theorem dotsRemoved_splitOn_path :
    dotsRemoved [] (((segments.flatMap fun segment => '/' :: sent segment).drop 1).splitOn '/') =
      segments.map sent := by
  have cut : ((segments.flatMap fun segment => '/' :: sent segment).drop 1).splitOn '/' =
      segments.map sent := by
    rw [flatMap_slash some]
    refine List.splitOn_intercalate '/' (fun part hp => ?_) (by simpa using some)
    obtain ⟨segment, hs, rfl⟩ := List.mem_map.mp hp
    exact (separator_not_mem_sent (sound segment hs).1).1
  rw [cut]
  refine dotsRemoved_eq (fun part hp => ?_) []
  obtain ⟨segment, hs, rfl⟩ := List.mem_map.mp hp
  exact sent_ne_dots (sound segment hs).2

theorem ofTarget_eq (rest : List Char) :
    Reference.ofTarget ((segments.flatMap fun segment => '/' :: sent segment) ++
        (rest.dropWhile (· ≠ '?')).flatMap (encodeUnless inQuery)) =
      { path := segments.map sent
        query := (behind? '?' rest).map (·.flatMap (encodeUnless inQuery))
        fragment := none } := by
  have path := dotsRemoved_splitOn_path some sound
  have clean := mark_not_mem_path sound
  obtain ⟨unmarked, early, behind⟩ := sent_query rest
  generalize (segments.flatMap fun segment => '/' :: sent segment) = front at path clean
  generalize (rest.dropWhile (· ≠ '?')).flatMap (encodeUnless inQuery) = query
    at unmarked early behind ⊢
  have unfragmented : ∀ c ∈ front ++ query, decide (c ≠ '#') = true := by
    intro c hc
    refine decide_eq_true ?_
    rcases List.mem_append.mp hc with hc | hc
    · exact (clean c hc).2
    · exact ne_of_mem_of_not_mem hc unmarked
  have unqueried : ∀ c ∈ front, decide (c ≠ '?') = true := fun c hc =>
    decide_eq_true (clean c hc).1
  rw [Reference.ofTarget, List.takeWhile_eq_self_iff.mpr unfragmented,
    List.takeWhile_append_of_pos unqueried, early, List.append_nil, path, behind?, behind?,
    List.dropWhile_append_of_pos unqueried, List.dropWhile_eq_nil_iff.mpr unfragmented]
  rw [behind?] at behind
  rw [behind]
  rfl

end

theorem segmentsOf_sound (rest : List Char) :
    segmentsOf rest ≠ [] ∧ ∀ segment ∈ segmentsOf rest,
      (∀ c ∈ segment, isSlash c = false) ∧ isDot segment = false := by
  obtain ⟨some, left⟩ := mem_resolve (splitSegments_ne_nil ((rest.takeWhile (· ≠ '?')).drop 1))
  refine ⟨some, fun segment h => ?_⟩
  rcases left segment h with rfl | ⟨hm, plain⟩
  · exact ⟨fun c hc => absurd hc List.not_mem_nil, by decide⟩
  · exact ⟨(slashless_of_mem_splitSegments hm).2, plain⟩

theorem reference_requestTarget (url : String) :
    Reference.ofTarget (requestTarget url).toList =
      { path := (segmentsOf (requested url.toList)).map sent
        query := (behind? '?' (requested url.toList)).map (·.flatMap (encodeUnless inQuery))
        fragment := none } := by
  obtain ⟨some, sound⟩ := segmentsOf_sound (requested url.toList)
  rw [← ofTarget_eq some sound]
  exact congrArg _ String.toList_ofList

end GatewayEnrichment.Url
