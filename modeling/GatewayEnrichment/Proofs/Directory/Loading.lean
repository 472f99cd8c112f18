import GatewayEnrichment.Directory
import GatewayEnrichment.Proofs.Json.Carrying
import GatewayEnrichment.Proofs.Json.Printing

/-! A directory that was loaded from a file. The file gives back the records that were written to
it, and from then on each lookup is answered with the latest record of its gateway, from the file or
inserted since. -/

namespace GatewayEnrichment

open Json

def LastWith (records : List GatewayRecord) (id : String) (record : GatewayRecord) : Prop :=
  record.id = id ∧ ∃ before after, records = before ++ record :: after ∧
    ∀ later ∈ after, later.id ≠ id

def latest? (records : List GatewayRecord) (id : String) : Option GatewayRecord :=
  records.reverse.find? (·.id = id)

theorem latest?_eq_some_iff {records : List GatewayRecord} {id : String} {record : GatewayRecord} :
    latest? records id = some record ↔ LastWith records id record := by
  rw [latest?, List.find?_eq_some_iff_append, decide_eq_true_iff]
  refine and_congr_right fun _ => ?_
  constructor
  · rintro ⟨after, before, reversed, others⟩
    refine ⟨before.reverse, after.reverse, ?_, fun later hl => ?_⟩
    · rw [← List.reverse_reverse records, reversed]
      simp
    · simpa using others later (List.mem_reverse.mp hl)
  · rintro ⟨before, after, rfl, others⟩
    refine ⟨after.reverse, before.reverse, by simp, fun later hl => ?_⟩
    simpa using others later (List.mem_reverse.mp hl)

theorem latest?_eq_none_iff {records : List GatewayRecord} {id : String} :
    latest? records id = none ↔ ∀ record ∈ records, record.id ≠ id := by
  simp [latest?, List.find?_eq_none]

theorem latest?_append_singleton (records : List GatewayRecord) (record : GatewayRecord)
    (id : String) : latest? (records ++ [record]) id =
      if record.id = id then some record else latest? records id := by
  rw [latest?, latest?, List.reverse_append, List.reverse_singleton, List.singleton_append,
    List.find?_cons]
  by_cases same : record.id = id <;> simp [same]

namespace MemoryDirectory

inductive Access where
  | find (id : String)
  | insert (record : GatewayRecord)

def Access.inserted? : Access → Option GatewayRecord
  | .find _ => none
  | .insert record => some record

def access (d : MemoryDirectory) : Access → MemoryDirectory
  | .find id => (d.find id).2
  | .insert record => d.insert record

def Serves (d : MemoryDirectory) (records : List GatewayRecord) : Prop :=
  ∀ id, d.answer id = (latest? records id).elim (.error .notFound) .ok

section

variable {d : MemoryDirectory} {records : List GatewayRecord}

theorem answer_insert (d : MemoryDirectory) (record : GatewayRecord) (id : String) :
    (d.insert record).answer id = if record.id = id then .ok record else d.answer id := by
  rw [answer, insert, ByGateway.get?_put]
  by_cases same : record.id = id
  · rw [if_pos same.symm, if_pos same]
  · rw [if_neg (Ne.symm same), if_neg same]
    rfl

theorem serves_empty : empty.Serves [] := fun _ => rfl

theorem Serves.insert (h : d.Serves records) (record : GatewayRecord) :
    (d.insert record).Serves (records ++ [record]) := by
  intro id
  rw [answer_insert, latest?_append_singleton]
  split
  · rfl
  · exact h id

theorem serves_ofRecords (records : List GatewayRecord) : (ofRecords records).Serves records := by
  induction records using List.reverseRecOn with
  | nil => exact serves_empty
  | append_singleton records record ih =>
    have last : ofRecords (records ++ [record]) = (ofRecords records).insert record := by
      simp [ofRecords]
    rw [last]
    exact ih.insert record

theorem Serves.step (h : d.Serves records) (a : Access) :
    (d.access a).Serves (records ++ a.inserted?.toList) := by
  cases a with
  | find id =>
    rw [Access.inserted?, Option.toList_none, List.append_nil]
    exact h
  | insert record => exact h.insert record

theorem Serves.run (h : d.Serves records) (accesses : List Access) :
    (accesses.foldl MemoryDirectory.access d).Serves
      (records ++ accesses.filterMap Access.inserted?) := by
  induction accesses generalizing d records with
  | nil =>
    rw [List.filterMap_nil, List.append_nil]
    exact h
  | cons a accesses ih =>
    have after := ih (h.step a)
    rw [List.append_assoc] at after
    rw [List.foldl_cons, List.filterMap_cons]
    cases added : a.inserted? with
    | none => simpa [added] using after
    | some record => simpa [added] using after

theorem Serves.find_eq_ok_iff (h : d.Serves records) {id : String} {record : GatewayRecord} :
    (d.find id).1 = .ok record ↔ LastWith records id record := by
  rw [find, h id, ← latest?_eq_some_iff]
  cases latest? records id <;> simp

theorem Serves.find_eq_notFound_iff (h : d.Serves records) {id : String} :
    (d.find id).1 = .error .notFound ↔ ∀ record ∈ records, record.id ≠ id := by
  rw [find, h id, ← latest?_eq_none_iff]
  cases latest? records id <;> simp

end

end MemoryDirectory

def AntennaLocation.CarriedBack (a : AntennaLocation) : Prop :=
  a.latitude.CarriedBack ∧ a.longitude.CarriedBack ∧ a.altitude.CarriedBack

theorem sound_location : (Encoded.schema AntennaLocation).Sound :=
  ⟨by decide, legible_double, legible_double, legible_double, trivial⟩

theorem sound_attributes : (Encoded.schema Attributes).Sound :=
  ⟨by decide, ⟨rfl, trivial⟩, ⟨rfl, trivial⟩, ⟨rfl, trivial⟩, trivial⟩

theorem sound_record : (Encoded.schema GatewayRecord).Sound :=
  ⟨by decide, trivial, trivial, ⟨rfl, trivial⟩, ⟨rfl, sound_location⟩, sound_attributes, trivial,
    trivial, trivial⟩

theorem carried_record {record : GatewayRecord}
    (h : ∀ location ∈ record.antennaLocation, location.CarriedBack) :
    (Encoded.schema GatewayRecord).Carried (Encoded.toVal record) := by
  have position : (Schema.nullable (Encoded.schema AntennaLocation)).Carried
      (record.antennaLocation.map Encoded.toVal) := by
    intro v hv
    obtain ⟨location, here, rfl⟩ := Option.map_eq_some_iff.mp hv
    obtain ⟨latitude, longitude, altitude⟩ := h location here
    exact ⟨latitude, longitude, altitude, trivial⟩
  have words (text : Option String) : (Schema.nullable .text).Carried text := fun _ _ => trivial
  exact ⟨trivial, trivial, words _, position, ⟨words _, words _, words _, trivial⟩, trivial,
    trivial, trivial⟩

theorem parse_write_records {records : List GatewayRecord}
    (h : ∀ record ∈ records, ∀ location ∈ record.antennaLocation, location.CarriedBack) :
    parse (List GatewayRecord) (write records) = .ok records := by
  have sound : (Encoded.schema (List GatewayRecord)).Sound := sound_record
  refine parse_write_of_carried sound (by decide) ?_
  intro v hv
  obtain ⟨record, here, rfl⟩ := List.mem_map.mp hv
  exact carried_record (h record here)

theorem exists_text?_write {α : Type} [Encoded α] (a : α) : ∃ s, (write a).text? = some s := by
  obtain ⟨cs, spelled, -⟩ := (Encoded.schema α).printed_write (Encoded.toVal a)
  refine ⟨String.ofList cs, ?_⟩
  rw [write, spelled, ← octets_ofList, Octets.text?_octets]

namespace MemoryDirectory

theorem ofFile_write {records : List GatewayRecord}
    (h : ∀ record ∈ records, ∀ location ∈ record.antennaLocation, location.CarriedBack) :
    ofFile (some (write records)) = .ok (ofRecords records) := by
  obtain ⟨s, text⟩ := exists_text?_write records
  rw [ofFile, text]
  dsimp only
  rw [parse_write_records h]

/-- A directory can be loaded from the records written to a file, and answers each lookup with the
last record that the file has for the gateway, or a later one that was inserted since. -/
theorem ofFile_write_serves (records : List GatewayRecord)
    (h : ∀ record ∈ records, ∀ location ∈ record.antennaLocation, location.CarriedBack) :
    ∃ d, ofFile (some (write records)) = .ok d ∧ ∀ (accesses : List Access) (id : String),
      let known := records ++ accesses.filterMap Access.inserted?
      (∀ record, ((accesses.foldl access d).find id).1 = .ok record ↔ LastWith known id record) ∧
        (((accesses.foldl access d).find id).1 = .error .notFound ↔
          ∀ record ∈ known, record.id ≠ id) := by
  refine ⟨ofRecords records, ofFile_write h, fun accesses id => ?_⟩
  have serves := (serves_ofRecords records).run accesses
  exact ⟨fun record => serves.find_eq_ok_iff, serves.find_eq_notFound_iff⟩

/-- Two records of one gateway, the first at the least double, the largest and a negative zero, and
one without an identifier, that is replaced after a lookup. -/
theorem ofFile_write_serves_repeated_gateway :
    let spot : AntennaLocation := ⟨.ofDecimal .double true ⟨5, -324⟩,
      .ofDecimal .double false ⟨17976931348623157, 292⟩, .ofDecimal .double true ⟨0, 0⟩⟩
    let first : GatewayRecord := { id := "gw", antennaLocation := some spot }
    let nameless : GatewayRecord :=
      { antennaLocation := some ⟨.ofDecimal .double false ⟨5237, -2⟩, .zero, .zero⟩ }
    let second : GatewayRecord :=
      { id := "gw", frequencyPlan := "\"é😀\\u0000\x00\n", frequencyPlanUrl := some ""
        attributes := { model := some "null" }, statusPublic := true }
    let records := [first, nameless, second]
    (∀ record ∈ records, ∀ location ∈ record.antennaLocation, location.CarriedBack) ∧
      ∃ d, ofFile (some (write records)) = .ok d ∧ (d.find "gw").1 = .ok second ∧
        (d.find "").1 = .ok nameless ∧ (d.find "g").1 = .error .notFound ∧
          (((d.find "").2.insert .empty).find "").1 = .ok .empty := by
  intro spot first nameless second records
  have carried : spot.CarriedBack ∧
      AntennaLocation.CarriedBack ⟨.ofDecimal .double false ⟨5237, -2⟩, .zero, .zero⟩ := by
    unfold AntennaLocation.CarriedBack Binary.CarriedBack
    decide +kernel
  have all : ∀ record ∈ records, ∀ location ∈ record.antennaLocation, location.CarriedBack := by
    simpa [records, first, nameless, second] using carried
  obtain ⟨d, loaded, answers⟩ := ofFile_write_serves records all
  refine ⟨all, d, loaded, ((answers [] "gw").1 second).mpr ?_, ((answers [] "").1 nameless).mpr ?_,
    (answers [] "g").2.mpr ?_, ((answers [.find "", .insert .empty] "").1 .empty).mpr ?_⟩
  · exact ⟨rfl, [first, nameless], [], rfl, by simp⟩
  · exact ⟨rfl, [first], [second], rfl, by simp [second]⟩
  · simp [records, first, nameless, second]
  · exact ⟨rfl, records, [], rfl, by simp⟩

end MemoryDirectory
end GatewayEnrichment
