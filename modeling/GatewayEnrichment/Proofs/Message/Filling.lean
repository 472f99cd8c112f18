import GatewayEnrichment.Proofs.Message.Keeping
import GatewayEnrichment.Proofs.Message.Narrowing

/-! What enriching adds. A message is completed from the record and the failure that the cache holds
of its gateway: each open field from a source of its own, and the notes of an uplink behind those
that it has. What a status says by then it goes on saying when it is handled again, whatever has
become of the cache. -/

namespace GatewayEnrichment

namespace DirectoryFailure

/-- The texts of failures: each names the cause, with the detail behind it as it was given. -/
inductive Tells : String → DirectoryFailure → Prop where
  | notFound : Tells "gateway not found" .notFound
  | status (code : Nat) : Tells ("unexpected status " ++ toString code) (.status code)
  | http (detail : String) : Tells ("request failed: " ++ detail) (.http detail)
  | unavailable (reason : String) : Tells ("directory unavailable: " ++ reason) (.unavailable reason)

theorem tells_message (e : DirectoryFailure) : Tells e.message e := by
  cases e with
  | notFound => exact .notFound
  | status code => exact .status code
  | http detail => exact .http detail
  | unavailable reason => exact .unavailable reason

theorem toString_nat_inj {m n : Nat} (h : toString m = toString n) : m = n := by
  have digits : Nat.toDigits 10 m = Nat.toDigits 10 n := by
    simpa using congrArg String.toList h
  rw [← Nat.ofDigitChars_ten_toDigits (n := m), digits, Nat.ofDigitChars_ten_toDigits]

theorem Tells.eq {s s' : String} {e e' : DirectoryFailure} (h : Tells s e) (h' : Tells s' e')
    (same : s = s') : e = e' := by
  -- no two of the texts begin with the same letter
  have begins : s.toList.head? = s'.toList.head? := congrArg (·.toList.head?) same
  cases h with
  | notFound =>
    cases h' with
    | notFound => rfl
    | status | http | unavailable => simp at begins
  | status code =>
    cases h' with
    | status code' => exact congrArg _ (toString_nat_inj ((String.append_right_inj _).mp same))
    | notFound | http | unavailable => simp at begins
  | http detail =>
    cases h' with
    | http detail' => exact congrArg _ ((String.append_right_inj _).mp same)
    | notFound | status | unavailable => simp at begins
  | unavailable reason =>
    cases h' with
    | unavailable reason' => exact congrArg _ ((String.append_right_inj _).mp same)
    | notFound | status | http => simp at begins

theorem tells_message_iff (e e' : DirectoryFailure) : Tells e.message e' ↔ e = e' :=
  ⟨fun h => e.tells_message.eq h rfl, fun same => same ▸ e.tells_message⟩

end DirectoryFailure

def LookupFailure.note (e : LookupFailure) : TraceEvent :=
  ⟨"unable to get gateway info", .ofList [("error", e.message)]⟩

def Attributes.joined (a : Attributes) : String :=
  let brand := a.brand.getD ""
  let model := a.model.getD ""
  if brand = "" then model else if model = "" then brand else brand ++ " " ++ model

theorem Attributes.platform_eq_joined (a : Attributes) : a.platform = a.joined := by
  obtain ⟨brand, model, description⟩ := a
  have parts : ∀ s : Option String, s.toList.filter (· ≠ "") =
      if s.getD "" = "" then [] else [s.getD ""] := by
    intro s
    cases s with
    | none => rfl
    | some s => by_cases h : s = "" <;> simp [h]
  simp only [platform, joined, List.filter_append, parts]
  by_cases hb : brand.getD "" = "" <;> by_cases hm : model.getD "" = "" <;>
    simp [hb, hm, String.append_assoc]

theorem LookupFailure.exists_tells (e : LookupFailure) : ∃ text,
    DirectoryFailure.Tells text e.cause ∧
      e.message = "lookup of gateway " ++ e.gatewayId ++ " failed: " ++ text :=
  ⟨e.cause.message, e.cause.tells_message, rfl⟩

structure Uplink.FilledFrom (record : GatewayRecord) (failure : Option LookupFailure)
    (m m' : Uplink) : Prop where
  gatewayId : m'.gatewayId = m.gatewayId
  payload : m'.payload = m.payload
  gps : m'.gps = m.gps.or (record.antennaLocation.map AntennaLocation.narrowed)
  position : m.gps = none → ∀ a ∈ record.antennaLocation, ∃ g, m'.gps = some g ∧ a.NarrowsTo g
  trace : m'.trace = m.trace ++ (failure.map LookupFailure.note).toList ++
    if m.gps = none ∧ m'.gps ≠ none then [injectionNote] else []
  noted : ∀ e ∈ failure, ∃ text, DirectoryFailure.Tells text e.cause ∧
    e.message = "lookup of gateway " ++ e.gatewayId ++ " failed: " ++ text

structure Status.FilledFrom (record : GatewayRecord) (m m' : Status) : Prop where
  gatewayId : m'.gatewayId = m.gatewayId
  gps : m'.gps = m.gps.or (record.antennaLocation.map AntennaLocation.narrowed)
  position : m.gps = none → ∀ a ∈ record.antennaLocation, ∃ g, m'.gps = some g ∧ a.NarrowsTo g
  frequencyPlan : m'.frequencyPlan =
    if m.frequencyPlan = "" then record.frequencyPlan else m.frequencyPlan
  platform : m'.platform = if m.platform = "" then record.attributes.joined else m.platform
  description : m'.description =
    if m.description = "" then record.attributes.description.getD "" else m.description

theorem exists_narrowsTo_of_open {gps : Option Gps} (h : gps = none)
    {location : Option AntennaLocation} : ∀ a ∈ location,
      ∃ g, gps.or (location.map AntennaLocation.narrowed) = some g ∧ a.NarrowsTo g := by
  rintro a rfl
  exact ⟨a.narrowed, by rw [h]; rfl, a.narrowsTo_narrowed⟩

theorem Uplink.trace_enriched (m : Uplink) (info : Info) :
    (m.enriched info).trace = m.trace ++ (info.failure.map LookupFailure.note).toList ++
      if m.gps = none ∧ (m.enriched info).gps ≠ none then [injectionNote] else [] := by
  rw [m.gps_enriched, enriched]
  obtain ⟨g, gps, trace, payload⟩ := m
  have noted : ∀ e : LookupFailure, trace.addEventWith "unable to get gateway info" "error"
      e.message = trace ++ [e.note] := fun _ => rfl
  cases gps with
  | some gps => cases info.failure <;> simp [noted]
  | none =>
    cases info.record.antennaLocation <;> cases info.failure <;>
      simp [noted, Trace.addEvent, injectionNote]

theorem Uplink.filledFrom_enriched (m : Uplink) (info : Info) :
    m.FilledFrom info.record info.failure (m.enriched info) where
  gatewayId := m.gatewayId_enriched info
  payload := m.payload_enriched info
  gps := m.gps_enriched info
  position h := by
    rw [m.gps_enriched]
    exact exists_narrowsTo_of_open h
  trace := m.trace_enriched info
  noted e _ := e.exists_tells

theorem Status.filledFrom_enriched (m : Status) (info : Info) :
    m.FilledFrom info.record (m.enriched info) where
  gatewayId := rfl
  gps := rfl
  position h := exists_narrowsTo_of_open h
  frequencyPlan := rfl
  platform := by
    rw [← info.record.attributes.platform_eq_joined]
    rfl
  description := rfl

namespace Cache

def recordOf (c : Cache) (g : String) : GatewayRecord :=
  ((c.store.entries.get? g).map (·.record)).getD .empty

def failureOf (c : Cache) (g : String) : Option LookupFailure :=
  (c.store.entries.get? g).bind (·.failure)

theorem read_eq_held (c : Cache) (g : String) (now : Nat) :
    (c.read g now).1 = ⟨c.recordOf g, c.failureOf g, (c.read g now).1.needsRefresh⟩ := by
  have read : (c.read g now).1 = (c.store.get g now).1 := rfl
  rw [read, recordOf, failureOf, Store.get]
  cases c.store.entries.get? g with
  | none => rfl
  | some e =>
    dsimp only
    split <;> rfl

/-- A message comes out completed from what the cache holds of its gateway. Only an uplink shows a
failure, and what a status says is kept from then on. -/
theorem messages_filled_from_held (c : Cache) (now : Nat) :
    (∀ m : Uplink, ∃ m', (c.handle (.uplink m) now).1 = some (.uplink m') ∧
      m.FilledFrom (c.recordOf m.gatewayId) (c.failureOf m.gatewayId) m') ∧
    ∀ m : Status, ∃ m', (c.handle (.status m) now).1 = some (.status m') ∧
      m.FilledFrom (c.recordOf m.gatewayId) m' ∧
      (∀ failure needsRefresh, m.enriched ⟨c.recordOf m.gatewayId, failure, needsRefresh⟩ = m') ∧
      ∀ (c' : Cache) (later : Nat), ∃ m'', (c'.handle (.status m') later).1 = some (.status m'') ∧
        (Event.status m').Keeps (.status m'') := by
  constructor
  · intro m
    refine ⟨m.enriched (c.read m.gatewayId now).1, rfl, ?_⟩
    rw [c.read_eq_held]
    exact m.filledFrom_enriched ⟨_, _, _⟩
  · intro m
    refine ⟨m.enriched (c.read m.gatewayId now).1, rfl, ?_, ?_, ?_⟩
    · rw [c.read_eq_held]
      exact m.filledFrom_enriched ⟨_, _, _⟩
    · intro failure needsRefresh
      rw [c.read_eq_held]
      rfl
    · intro c' later
      exact ⟨_, rfl, Status.keeps_enriched _ _⟩

end Cache
end GatewayEnrichment
