/-! Texts by key. The entries are kept in the order of their keys, which is the order of their
UTF-8 forms, and a key has one text. -/

namespace GatewayEnrichment

structure Table where
  entries : List (String × String)
  sorted : entries.Pairwise fun a b => a.1 < b.1
  deriving DecidableEq, Repr

namespace Table

def empty : Table := ⟨[], .nil⟩

instance : Inhabited Table := ⟨empty⟩

def insertEntry (key text : String) : List (String × String) → List (String × String)
  | [] => [(key, text)]
  | entry :: rest =>
    if key < entry.1 then (key, text) :: entry :: rest
    else if entry.1 < key then entry :: insertEntry key text rest
    else (key, text) :: rest

theorem mem_insertEntry {key text : String} {es : List (String × String)} {e : String × String}
    (h : e ∈ insertEntry key text es) : e = (key, text) ∨ e ∈ es := by
  induction es with
  | nil => simpa [insertEntry] using h
  | cons x xs ih =>
    simp only [insertEntry] at h
    split at h
    · simpa using h
    · split at h
      · rcases List.mem_cons.mp h with h | h
        · exact .inr (h ▸ List.mem_cons_self)
        · exact (ih h).imp id (List.mem_cons_of_mem _)
      · rcases List.mem_cons.mp h with h | h
        · exact .inl h
        · exact .inr (List.mem_cons_of_mem _ h)

theorem sorted_insertEntry (key text : String) {es : List (String × String)}
    (h : es.Pairwise fun a b => a.1 < b.1) :
    (insertEntry key text es).Pairwise fun a b => a.1 < b.1 := by
  induction es with
  | nil => simp [insertEntry]
  | cons x xs ih =>
    obtain ⟨hx, hxs⟩ := List.pairwise_cons.mp h
    simp only [insertEntry]
    split
    · next lt =>
      refine List.pairwise_cons.mpr ⟨?_, h⟩
      intro e he
      rcases List.mem_cons.mp he with he | he
      · exact he ▸ lt
      · exact String.lt_trans lt (hx e he)
    · next notLt =>
      split
      · next lt =>
        refine List.pairwise_cons.mpr ⟨?_, ih hxs⟩
        intro e he
        rcases mem_insertEntry he with he | he
        · exact he ▸ lt
        · exact hx e he
      · next notGt =>
        have same : key = x.1 :=
          String.le_antisymm (String.not_lt.mp notGt) (String.not_lt.mp notLt)
        exact List.pairwise_cons.mpr ⟨fun e he => same ▸ hx e he, hxs⟩

def insert (t : Table) (key text : String) : Table :=
  ⟨insertEntry key text t.entries, sorted_insertEntry key text t.sorted⟩

def isEmpty (t : Table) : Bool := t.entries.isEmpty

def ofList (entries : List (String × String)) : Table :=
  entries.foldl (fun t e => t.insert e.1 e.2) empty

end Table
end GatewayEnrichment
