/-! What is kept for each gateway. A gateway has at most one value, so the number of values is the
number of gateways. -/

namespace GatewayEnrichment

structure ByGateway (α : Type) where
  pairs : List (String × α)
  distinct : (pairs.map (·.1)).Nodup

namespace ByGateway

variable {α : Type}

def empty : ByGateway α := ⟨[], List.nodup_nil⟩

instance : Inhabited (ByGateway α) := ⟨empty⟩

def get? (m : ByGateway α) (id : String) : Option α := m.pairs.lookup id

def contains (m : ByGateway α) (id : String) : Bool := (m.get? id).isSome

def size (m : ByGateway α) : Nat := m.pairs.length

def without (id : String) (pairs : List (String × α)) : List (String × α) :=
  pairs.filter fun p => p.1 ≠ id

theorem distinct_without {id : String} {pairs : List (String × α)}
    (h : (pairs.map (·.1)).Nodup) : ((without id pairs).map (·.1)).Nodup :=
  (List.filter_sublist.map _).nodup h

theorem not_mem_without (id : String) (pairs : List (String × α)) :
    id ∉ (without id pairs).map (·.1) := by
  simp [without]

def erase (m : ByGateway α) (id : String) : ByGateway α :=
  ⟨without id m.pairs, distinct_without m.distinct⟩

def put (m : ByGateway α) (id : String) (a : α) : ByGateway α :=
  ⟨(id, a) :: without id m.pairs,
    List.nodup_cons.mpr ⟨not_mem_without id m.pairs, distinct_without m.distinct⟩⟩

theorem lookup_without (id other : String) (pairs : List (String × α)) :
    (without id pairs).lookup other = if other = id then none else pairs.lookup other := by
  induction pairs with
  | nil => simp [without]
  | cons p ps ih =>
    obtain ⟨k, a⟩ := p
    by_cases hk : k = id
    · subst hk
      have hw : without k ((k, a) :: ps) = without k ps := by simp [without]
      rw [hw, ih]
      by_cases ho : other = k
      · simp [ho]
      · simp [ho, List.lookup_cons, beq_eq_false_iff_ne.mpr ho]
    · have hw : without id ((k, a) :: ps) = (k, a) :: without id ps := by simp [without, hk]
      rw [hw]
      by_cases ho : other = k
      · subst ho
        simp [hk]
      · simp [List.lookup_cons, beq_eq_false_iff_ne.mpr ho, ih]

@[simp] theorem get?_empty (id : String) : (empty : ByGateway α).get? id = none := rfl

@[simp] theorem get?_erase (m : ByGateway α) (id other : String) :
    (m.erase id).get? other = if other = id then none else m.get? other :=
  lookup_without id other m.pairs

@[simp] theorem get?_put (m : ByGateway α) (id other : String) (a : α) :
    (m.put id a).get? other = if other = id then some a else m.get? other := by
  by_cases h : other = id
  · simp [get?, put, h]
  · simp [get?, put, List.lookup_cons, h, lookup_without, beq_eq_false_iff_ne.mpr h]

theorem size_erase_eq_iff (m : ByGateway α) (id : String) :
    (m.erase id).size = m.size ↔ m.get? id = none := by
  simp only [size, erase, without, get?, List.length_filter_eq_length_iff,
    List.lookup_eq_none_iff]
  constructor
  · intro h p hp
    exact bne_iff_ne.mpr fun he => of_decide_eq_true (h p hp) he.symm
  · intro h p hp
    exact decide_eq_true fun he => bne_iff_ne.mp (h p hp) he.symm

theorem mem_keys (m : ByGateway α) (id : String) :
    id ∈ m.pairs.map (·.1) ↔ m.contains id = true := by
  rw [contains, Option.isSome_iff_ne_none, get?, ne_eq, List.lookup_eq_none_iff, List.mem_map]
  constructor
  · rintro ⟨p, hp, rfl⟩ h
    exact bne_iff_ne.mp (h p hp) rfl
  · intro h
    refine Classical.byContradiction fun hn => h fun p hp => ?_
    exact bne_iff_ne.mpr fun he => hn ⟨p, hp, he.symm⟩

end ByGateway
end GatewayEnrichment
