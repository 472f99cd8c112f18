import GatewayEnrichment.AccountServer
import GatewayEnrichment.Proofs.Text.Trimming
import GatewayEnrichment.Proofs.Url.Targets
import Mathlib.Data.List.Flatten
import Mathlib.Data.Set.Function

/-! Where a gateway is looked up. Its identifier is put behind the base as it stands, so it arrives
as itself only if nothing in it means something in a URL: no separator, no code of an octet, nothing
that a client takes out or resolves. Then each identifier has a target of its own, among the
gateways of the base; any other identifier is sent as something else. -/

namespace GatewayEnrichment.Url

open String (utf8EncodeChar)

structure Base where
  scheme : List Char
  host : List Char
  path : List Char
  visible : ∀ c ∈ scheme ++ host ++ path, ' ' < c ∧ c ≠ '?' ∧ c ≠ '#'
  scheme_colonless : ∀ c ∈ scheme, c ≠ ':'
  host_ne_nil : host ≠ []
  host_slashless : ∀ c ∈ host, isSlash c = false
  rooted : ∀ c ∈ path.head?, c = '/'

namespace Base

variable (b : Base)

def origin : List Char := b.scheme ++ "://".toList ++ b.host

def chars : List Char := b.origin ++ b.path

def text : String := String.ofList b.chars

def trimmed : Base where
  scheme := b.scheme
  host := b.host
  path := b.path.rdropWhile (· = '/')
  visible := by
    intro c hc
    refine b.visible c ?_
    rcases List.mem_append.mp hc with hc | hc
    · exact List.mem_append_left _ hc
    · exact List.mem_append_right _ ((List.rdropWhile_prefix _ _).subset hc)
  scheme_colonless := b.scheme_colonless
  host_ne_nil := b.host_ne_nil
  host_slashless := b.host_slashless
  rooted := by
    intro c hc
    obtain ⟨ending, whole⟩ := List.rdropWhile_prefix (fun c : Char => decide (c = '/')) b.path
    refine b.rooted c ?_
    rw [← whole, List.head?_append, Option.mem_def.mp hc]
    rfl

theorem origin_ne_nil : b.origin ≠ [] := List.append_ne_nil_of_right_ne_nil _ b.host_ne_nil

theorem baseUrl_ofBase : (AccountServer.ofBase b.text).baseUrl = b.trimmed.text := by
  have stays : ¬ decide (b.origin.getLast b.origin_ne_nil = '/') = true := by
    intro h
    have last : b.origin.getLast b.origin_ne_nil = b.host.getLast b.host_ne_nil :=
      List.getLast_append_of_right_ne_nil _ _ b.host_ne_nil
    have slashless := b.host_slashless _ (List.getLast_mem b.host_ne_nil)
    rw [← last, of_decide_eq_true h] at slashless
    exact absurd slashless (by decide)
  have cut := rdropWhile_append (fun c => decide (c = '/')) b.origin_ne_nil stays b.path
  rw [AccountServer.ofBase, text, String.toList_ofList]
  exact congrArg String.ofList cut

theorem visible_chars : ∀ c ∈ b.chars, ' ' < c ∧ c ≠ '?' ∧ c ≠ '#' := by
  intro c hc
  have mark : "://".toList.all fun c => decide (' ' < c ∧ c ≠ '?' ∧ c ≠ '#') := by decide
  simp only [chars, origin, List.mem_append] at hc
  rcases hc with ((hc | hc) | hc) | hc
  · exact b.visible c (by simp [hc])
  · exact of_decide_eq_true (List.all_eq_true.mp mark c hc)
  · exact b.visible c (by simp [hc])
  · exact b.visible c (by simp [hc])

theorem afterHost_chars (cs : List Char) :
    afterHost (b.chars ++ '/' :: cs) = b.path ++ '/' :: cs := by
  let rest := b.path ++ '/' :: cs
  have parts : b.chars ++ '/' :: cs = b.scheme ++ ':' :: '/' :: '/' :: (b.host ++ rest) := by
    simp [chars, origin, rest]
  have scheme : ∀ c ∈ b.scheme, decide (c ≠ ':') = true := fun c hc =>
    decide_eq_true (b.scheme_colonless c hc)
  have host : (b.host ++ rest).dropWhile isSlash = b.host ++ rest := by
    obtain ⟨first, host, hh⟩ := List.exists_cons_of_ne_nil b.host_ne_nil
    have slashless : isSlash first = false := b.host_slashless first (hh ▸ List.mem_cons_self)
    rw [hh]
    exact List.dropWhile_cons_of_neg (Bool.eq_false_iff.mp slashless)
  have inHost : ∀ c ∈ b.host, (!isSlash c && c ≠ '?' && c ≠ '#') = true := by
    intro c hc
    have marks := (b.visible c (by simp [hc])).2
    simp [b.host_slashless c hc, marks]
  have path : rest.dropWhile (fun c => !isSlash c && c ≠ '?' && c ≠ '#') = rest := by
    cases hp : b.path with
    | nil =>
      simp only [rest, hp]
      rfl
    | cons c path =>
      have slash : c = '/' := b.rooted c (hp ▸ rfl)
      simp only [rest, hp, slash]
      rfl
  rw [afterHost, parts, List.dropWhile_append_of_pos scheme]
  -- the slashes behind the scheme are dropped, and those only
  change ((b.host ++ rest).dropWhile isSlash).dropWhile _ = rest
  rw [host, List.dropWhile_append_of_pos inHost, path]

end Base

def tidied (cs : List Char) : List Char :=
  (cs.rdropWhile (· ≤ ' ')).filter (· ∉ ['\t', '\n', '\r'])

theorem cleaned_append {front : List Char} (some : front ≠ []) (visible : ∀ c ∈ front, ' ' < c)
    (cs : List Char) : cleaned (front ++ cs) = front ++ tidied cs := by
  have stays : ∀ c ∈ front, ¬ decide (c ≤ ' ') = true := fun c hc =>
    mt of_decide_eq_true (Char.not_le.mpr (visible c hc))
  have opening : (front ++ cs).dropWhile (fun c => decide (c ≤ ' ')) = front ++ cs := by
    obtain ⟨first, rest, rfl⟩ := List.exists_cons_of_ne_nil some
    exact List.dropWhile_cons_of_neg (stays first List.mem_cons_self)
  have ending := rdropWhile_append (fun c => decide (c ≤ ' ')) some
    (stays _ (List.getLast_mem some)) cs
  have kept : front.filter (fun c => decide (c ∉ ['\t', '\n', '\r'])) = front := by
    refine List.filter_eq_self.mpr fun c hc => decide_eq_true fun removed => ?_
    have blank : ['\t', '\n', '\r'].all fun c => decide (c ≤ ' ') := by decide
    exact stays c hc (List.all_eq_true.mp blank c removed)
  change List.filter _ (((front ++ cs).dropWhile fun c => decide (c ≤ ' ')).rdropWhile _) = _
  rw [opening, ending, List.filter_append, kept]
  rfl

def named (cs : List Char) : List Char := ((tidied cs).takeWhile (· ≠ '#')).takeWhile (· ≠ '?')

theorem tidied_sublist (cs : List Char) : (tidied cs).Sublist cs :=
  List.filter_sublist.trans (List.rdropWhile_prefix _ _).sublist

theorem named_sublist (cs : List Char) : (named cs).Sublist (tidied cs) :=
  (List.takeWhile_prefix _).sublist.trans (List.takeWhile_prefix _).sublist

namespace Base

variable (b : Base) {front : List Char} (clean : ∀ c ∈ front, ' ' < c ∧ c ≠ '?' ∧ c ≠ '#')

def segments : List (List Char) := if b.path = [] then [] else splitSegments (b.path.drop 1)

theorem splitSegments_path (cs : List Char) :
    splitSegments ((b.path ++ '/' :: cs).drop 1) = b.segments ++ splitSegments cs := by
  rw [segments]
  cases b.path with
  | nil => rfl
  | cons c path => exact splitSegments_append (by decide) path cs

include clean

theorem marks_path_append : ∀ c ∈ b.path ++ '/' :: front, c ≠ '?' ∧ c ≠ '#' := by
  intro c hc
  rcases List.mem_append.mp hc with hc | hc
  · exact (b.visible c (List.mem_append_right _ hc)).2
  · rcases List.mem_cons.mp hc with rfl | hc
    · decide
    · exact (clean c hc).2

theorem requested_chars (cs : List Char) :
    requested (b.chars ++ '/' :: (front ++ cs)) =
      b.path ++ '/' :: front ++ (tidied cs).takeWhile (· ≠ '#') := by
  have some : b.chars ++ '/' :: front ≠ [] :=
    List.append_ne_nil_of_right_ne_nil _ (List.cons_ne_nil _ _)
  have visible : ∀ c ∈ b.chars ++ '/' :: front, ' ' < c := by
    intro c hc
    rcases List.mem_append.mp hc with hc | hc
    · exact (b.visible_chars c hc).1
    · rcases List.mem_cons.mp hc with rfl | hc
      · decide
      · exact (clean c hc).1
  have regroup : ∀ as cs, as ++ '/' :: (front ++ cs) = as ++ '/' :: front ++ cs := by simp
  have marked : ∀ c ∈ b.path ++ '/' :: front, decide (c ≠ '#') = true := fun c hc =>
    decide_eq_true (b.marks_path_append clean c hc).2
  rw [requested, regroup, cleaned_append some visible, ← regroup, b.afterHost_chars, regroup,
    List.takeWhile_append_of_pos marked]

theorem segmentsOf_requested (cs : List Char) :
    segmentsOf (requested (b.chars ++ '/' :: (front ++ cs))) =
      resolve [] (b.segments ++ splitSegments (front ++ named cs)) := by
  have marked : ∀ c ∈ b.path ++ '/' :: front, decide (c ≠ '?') = true := fun c hc =>
    decide_eq_true (b.marks_path_append clean c hc).1
  rw [requested_chars b clean, segmentsOf, List.takeWhile_append_of_pos marked, List.append_assoc,
    List.cons_append, splitSegments_path]
  rfl

theorem behind_requested (cs : List Char) :
    behind? '?' (requested (b.chars ++ '/' :: (front ++ cs))) =
      behind? '?' ((tidied cs).takeWhile (· ≠ '#')) := by
  have marked : ∀ c ∈ b.path ++ '/' :: front, decide (c ≠ '?') = true := fun c hc =>
    decide_eq_true (b.marks_path_append clean c hc).1
  rw [requested_chars b clean, behind?, List.dropWhile_append_of_pos marked]
  rfl

omit clean

def target (id : String) : List Char :=
  (requestTarget ((AccountServer.ofBase b.text).gatewayUrl id)).toList

def directory : List (List Char) :=
  let base := requestTarget ((AccountServer.ofBase b.text).baseUrl ++ "/")
  (Reference.ofTarget base.toList).path.dropLast

def Addresses (id : String) : Prop :=
  ∃ last, Reference.ofTarget (b.target id) =
      { path := b.directory ++ ["api".toList, "v2".toList, "gateways".toList, last]
        query := none
        fragment := none } ∧
    percentDecoded last = octets id

theorem directory_eq :
    b.directory = (b.trimmed.segments.foldl entered []).reverse.map sent := by
  have url : ((AccountServer.ofBase b.text).baseUrl ++ "/").toList =
      b.trimmed.chars ++ '/' :: ([] ++ []) := by
    rw [baseUrl_ofBase, String.toList_append, text, String.toList_ofList]
    rfl
  have clean : ∀ c ∈ ([] : List Char), ' ' < c ∧ c ≠ '?' ∧ c ≠ '#' := fun c hc =>
    absurd hc List.not_mem_nil
  have segments := b.trimmed.segmentsOf_requested clean []
  have last : splitSegments ([] ++ named []) = [[]] := rfl
  have plain : isDot [] = false ∧ isDoubleDot [] = false := by decide
  rw [last, resolve_concat, plain.1, plain.2] at segments
  rw [directory, reference_requestTarget, url, segments]
  dsimp only
  rw [List.map_append, List.map_singleton, List.dropLast_concat]
  rfl

theorem reference_target (id : String) {before : List (List Char)} {last : List Char}
    (parts : splitSegments (named id.toList) = before ++ [last]) :
    let folder := (b.trimmed.segments ++ ["api".toList, "v2".toList, "gateways".toList] ++
      before).foldl entered []
    Reference.ofTarget (b.target id) =
      { path := (if isDoubleDot last then folder.drop 1 else folder).reverse.map sent ++
          [sent (if isDot last then [] else last)]
        query := (behind? '?' ((tidied id.toList).takeWhile (· ≠ '#'))).map
          (·.flatMap (encodeUnless inQuery))
        fragment := none } := by
  intro folder
  have url : ((AccountServer.ofBase b.text).gatewayUrl id).toList =
      b.trimmed.chars ++ '/' :: ("api/v2/gateways/".toList ++ id.toList) := by
    rw [AccountServer.gatewayUrl, baseUrl_ofBase]
    change (b.trimmed.text ++ "/api/v2/gateways/" ++ id).toList = _
    rw [String.toList_append, String.toList_append, text, String.toList_ofList, List.append_assoc]
    rfl
  have clean : ∀ c ∈ "api/v2/gateways/".toList, ' ' < c ∧ c ≠ '?' ∧ c ≠ '#' := by
    have all : "api/v2/gateways/".toList.all fun c => decide (' ' < c ∧ c ≠ '?' ∧ c ≠ '#') := by
      decide
    exact fun c hc => of_decide_eq_true (List.all_eq_true.mp all c hc)
  have split : splitSegments ("api/v2/gateways/".toList ++ named id.toList) =
      ["api".toList, "v2".toList, "gateways".toList] ++ before ++ [last] := by
    have pieces : splitSegments "api/v2/gateways".toList =
        ["api".toList, "v2".toList, "gateways".toList] := by decide
    have slash : "api/v2/gateways/".toList = "api/v2/gateways".toList ++ ['/'] := by decide
    rw [List.append_assoc, ← parts, ← pieces, slash, List.append_assoc]
    exact splitSegments_append (by decide) _ _
  rw [target, reference_requestTarget, url, b.trimmed.segmentsOf_requested clean, split,
    b.trimmed.behind_requested clean, ← List.append_assoc, ← List.append_assoc, resolve_concat,
    List.map_append, List.map_singleton]

end Base

/-- An identifier that holds nothing that would mean something in a URL. -/
structure Plain (id : List Char) : Prop where
  slashless : ∀ c ∈ id, isSlash c = false
  unmarked : ∀ c ∈ id, c ∉ ['?', '#', '\t', '\n', '\r']
  ending : ∀ c ∈ id.getLast?, ' ' < c
  undotted : id ≠ ['.'] ∧ id ≠ ['.', '.']
  unescaped : Unescaped id

theorem plain_nil : Plain [] where
  slashless c hc := absurd hc List.not_mem_nil
  unmarked c hc := absurd hc List.not_mem_nil
  ending c hc := absurd hc (by simp)
  undotted := by decide
  unescaped mark high low hi := absurd hi.length_le (by simp)

theorem eq_of_sublist_of_length_le {as bs : List Char} (h : as.Sublist bs)
    (long : (bs.flatMap utf8EncodeChar).length ≤ (as.flatMap utf8EncodeChar).length) : as = bs := by
  induction h with
  | slnil => rfl
  | @cons as bs c h ih =>
    have pos := List.length_pos_iff.mpr (utf8EncodeChar_ne_nil c)
    have shorter := (h.flatMap utf8EncodeChar).length_le
    rw [List.flatMap_cons, List.length_append] at long
    omega
  | @cons_cons as bs c h ih =>
    rw [List.flatMap_cons, List.flatMap_cons, List.length_append, List.length_append] at long
    rw [ih (Nat.le_of_add_le_add_left long)]

theorem named_eq_self_iff (cs : List Char) :
    named cs = cs ↔
      (∀ c ∈ cs, c ∉ ['?', '#', '\t', '\n', '\r']) ∧ ∀ c ∈ cs.getLast?, ' ' < c := by
  constructor
  · intro h
    have kept : cs.Sublist (tidied cs) := by
      have sub := named_sublist cs
      rw [h] at sub
      exact sub
    have whole : cs.rdropWhile (· ≤ ' ') = cs :=
      (List.rdropWhile_prefix _ _).sublist.antisymm (kept.trans List.filter_sublist)
    refine ⟨fun c hc => ?_, fun c hc => ?_⟩
    · have blank := of_decide_eq_true (List.mem_filter.mp (kept.subset hc)).2
      rw [← h, named] at hc
      have question : c ≠ '?' := by simpa using List.mem_takeWhile_imp hc
      have number : c ≠ '#' := by
        simpa using List.mem_takeWhile_imp ((List.takeWhile_prefix _).subset hc)
      simp only [List.mem_cons, List.not_mem_nil, or_false, not_or] at blank ⊢
      exact ⟨question, number, blank⟩
    · have some : cs ≠ [] := List.ne_nil_of_mem (List.mem_of_getLast? hc)
      have last := List.rdropWhile_eq_self_iff.mp whole some
      rw [List.getLast?_eq_some_getLast some, Option.mem_some_iff] at hc
      rw [hc, decide_eq_true_iff] at last
      exact Char.not_le.mp last
  · rintro ⟨unmarked, ending⟩
    have whole : cs.rdropWhile (· ≤ ' ') = cs :=
      List.rdropWhile_eq_self_iff.mpr fun some => mt of_decide_eq_true
        (Char.not_le.mpr (ending _ (List.getLast?_eq_some_getLast some)))
    have tidy : tidied cs = cs := by
      rw [tidied, whole]
      refine List.filter_eq_self.mpr fun c hc => decide_eq_true fun blank => unmarked c hc ?_
      exact List.mem_cons_of_mem _ (List.mem_cons_of_mem _ blank)
    have number : cs.takeWhile (· ≠ '#') = cs := List.takeWhile_eq_self_iff.mpr fun c hc =>
      decide_eq_true fun mark => unmarked c hc (by rw [mark]; decide)
    have question : cs.takeWhile (· ≠ '?') = cs := List.takeWhile_eq_self_iff.mpr fun c hc =>
      decide_eq_true fun mark => unmarked c hc (by rw [mark]; decide)
    rw [named, tidy, number, question]

section

variable (b : Base) {id : String}

theorem Plain.reference (h : Plain id.toList) :
    Reference.ofTarget (b.target id) =
      { path := b.directory ++ ["api".toList, "v2".toList, "gateways".toList, sent id.toList]
        query := none
        fragment := none } := by
  have name : named id.toList = id.toList :=
    (named_eq_self_iff id.toList).mpr ⟨h.unmarked, h.ending⟩
  have rest : (tidied id.toList).takeWhile (· ≠ '#') = id.toList := by
    refine ((List.takeWhile_prefix _).sublist.trans (tidied_sublist _)).antisymm ?_
    have sub := (List.takeWhile_prefix (fun c : Char => decide (c ≠ '?'))
      (l := (tidied id.toList).takeWhile (· ≠ '#'))).sublist
    rw [← named, name] at sub
    exact sub
  have unqueried : behind? '?' id.toList = none := by
    have all : id.toList.dropWhile (· ≠ '?') = [] := List.dropWhile_eq_nil_iff.mpr fun c hc =>
      decide_eq_true fun mark => h.unmarked c hc (by rw [mark]; decide)
    rw [behind?, all]
    rfl
  have parts : splitSegments (named id.toList) = [] ++ [id.toList] := by
    rw [name]
    exact splitSegments_of_slashless h.slashless
  have undotted : isDot id.toList = false := by
    rw [← Bool.not_eq_true]
    exact fun dot => (dots_of_isDot h.unescaped dot).elim h.undotted.1 h.undotted.2
  have kept : isDoubleDot id.toList = false := (Bool.or_eq_false_iff.mp undotted).1
  have below : ∀ path, (["api".toList, "v2".toList, "gateways".toList].foldl entered
      path).reverse.map sent =
      path.reverse.map sent ++ ["api".toList, "v2".toList, "gateways".toList] := by
    intro path
    change ("gateways".toList :: "v2".toList :: "api".toList :: path).reverse.map sent = _
    simp only [List.reverse_cons, List.map_append, List.append_assoc]
    rfl
  rw [b.reference_target id parts, rest, unqueried, undotted, kept, List.append_nil,
    List.foldl_append, if_neg Bool.false_ne_true, below, b.directory_eq, List.append_assoc]
  rfl

theorem plain_of_addresses (h : b.Addresses id) : Plain id.toList := by
  obtain ⟨sentLast, address, spelled⟩ := h
  obtain ⟨before, last, parts⟩ :=
    (List.eq_nil_or_concat' (splitSegments (named id.toList))).resolve_left (splitSegments_ne_nil _)
  rw [b.reference_target id parts] at address
  have ends : sentLast = sent (if isDot last then [] else last) := by
    have paths := congrArg (fun r => r.path.getLast?) address
    simpa using paths.symm
  have piece : last.Sublist (named id.toList) ∧ ∀ c ∈ last, isSlash c = false :=
    slashless_of_mem_splitSegments (parts ▸ List.mem_append_right _ List.mem_cons_self)
  have within : (named id.toList).Sublist id.toList :=
    (named_sublist _).trans (tidied_sublist _)
  rw [ends, percentDecoded_sent, octets_eq_flatMap] at spelled
  by_cases dot : isDot last
  · rw [if_pos dot] at spelled
    have empty : id.toList = [] :=
      (eq_of_sublist_of_length_le (List.nil_sublist _) (Nat.le_of_eq (spelled ▸ rfl))).symm
    rw [empty]
    exact plain_nil
  · rw [if_neg dot] at spelled
    have whole : last = id.toList := by
      refine eq_of_sublist_of_length_le (piece.1.trans within) ?_
      rw [← spelled]
      exact length_percentDecoded_le last
    rw [whole] at piece dot spelled
    obtain ⟨unmarked, ending⟩ := (named_eq_self_iff _).mp (within.antisymm piece.1)
    refine ⟨piece.2, unmarked, ending, ⟨fun he => ?_, fun he => ?_⟩,
      (percentDecoded_eq_iff _).mp spelled⟩
    · exact dot (by rw [he]; decide)
    · exact dot (by rw [he]; decide)

end

/-- What is requested for a gateway addresses it if and only if its identifier is plain. So plain
identifiers do not share a target. -/
theorem addresses_iff_plain (b : Base) :
    (∀ id : String, b.Addresses id ↔ Plain id.toList) ∧
      Set.InjOn b.target {id | Plain id.toList} := by
  have decoded : ∀ id : String, Plain id.toList →
      percentDecoded (sent id.toList) = octets id := by
    intro id h
    rw [percentDecoded_sent, (percentDecoded_eq_iff _).mpr h.unescaped, octets_eq_flatMap]
  refine ⟨fun id => ⟨plain_of_addresses b, fun h => ⟨_, h.reference b, decoded id h⟩⟩, ?_⟩
  intro id h id' h' same
  have references : Reference.ofTarget (b.target id) = Reference.ofTarget (b.target id') :=
    congrArg _ same
  rw [h.reference b, h'.reference b] at references
  have last : sent id.toList = sent id'.toList := by
    have paths := congrArg (fun r => r.path.getLast?) references
    simpa using paths
  have spelled : octets id = octets id' := by
    rw [← decoded id h, ← decoded id' h', last]
  have texts := congrArg Octets.text? spelled
  rw [Octets.text?_octets, Octets.text?_octets] at texts
  exact Option.some.inj texts

def Base.ofHost (host : List Char) (some : host ≠ [])
    (clean : host.all fun c => decide (' ' < c ∧ c ≠ '?' ∧ c ≠ '#') && !isSlash c) : Base where
  scheme := "https".toList
  host := host
  path := []
  visible := by
    intro c hc
    have scheme : "https".toList.all fun c => decide (' ' < c ∧ c ≠ '?' ∧ c ≠ '#') := by decide
    rw [List.append_nil, List.mem_append] at hc
    rcases hc with hc | hc
    · exact of_decide_eq_true (List.all_eq_true.mp scheme c hc)
    · exact of_decide_eq_true (Bool.and_eq_true_iff.mp (List.all_eq_true.mp clean c hc)).1
  scheme_colonless := by
    have scheme : "https".toList.all fun c => decide (c ≠ ':') := by decide
    exact fun c hc => of_decide_eq_true (List.all_eq_true.mp scheme c hc)
  host_ne_nil := some
  host_slashless := by
    intro c hc
    have slashless := (Bool.and_eq_true_iff.mp (List.all_eq_true.mp clean c hc)).2
    simpa using slashless
  rooted := fun c hc => absurd hc (by simp)

theorem marks_lead_elsewhere :
    let base := Base.ofHost "account.example.org".toList (by decide) (by decide)
    base.target "a?b" = "/api/v2/gateways/a?b".toList ∧ ¬ base.Addresses "a?b" ∧
      base.target "../../../admin" = "/admin".toList := by
  intro base
  have asked : base.target "a?b" = "/api/v2/gateways/a?b".toList := by decide
  refine ⟨asked, ?_, by decide⟩
  rintro ⟨last, address, -⟩
  have query : (Reference.ofTarget (base.target "a?b")).query = some "b".toList := by
    rw [asked]
    decide
  rw [address] at query
  cases query

end GatewayEnrichment.Url
