import GatewayEnrichment.Proofs.Cache.Enriching
import GatewayEnrichment.Proofs.Message.RoundTrip

/-! What is kept of a message. Enriching it fills in what it leaves open, and writing and reading it
again may change coordinates; all else that it says stays as it is. -/

namespace GatewayEnrichment

open Json

def Gps.Finite (g : Gps) : Prop := g.latitude.isFinite = true ∧ g.longitude.isFinite = true

theorem Gps.exists_reread_iff (g : Gps) : (∃ g', g.reread = .ok g') ↔ g.Finite := by
  rw [Finite, ← Json.exists_reread_iff, ← Json.exists_reread_iff, reread]
  cases (Schema.number .single).reread g.latitude with
  | error m =>
    refine iff_of_false ?_ ?_
    · rintro ⟨g', ⟨⟩⟩
    · rintro ⟨⟨x, ⟨⟩⟩, -⟩
  | ok x =>
    cases (Schema.number .single).reread g.longitude with
    | error m =>
      refine iff_of_false ?_ ?_
      · rintro ⟨g', ⟨⟩⟩
      · rintro ⟨-, y, ⟨⟩⟩
    | ok y => exact iff_of_true ⟨_, rfl⟩ ⟨⟨x, rfl⟩, ⟨y, rfl⟩⟩

namespace Event

def payload? : Event → Option String
  | .uplink m => some m.payload
  | .connect _ | .disconnect _ | .status _ => none

def texts : Event → List String
  | .connect m => [m.gatewayId]
  | .disconnect m => [m.gatewayId]
  | .uplink m => [m.gatewayId, m.payload]
  | .status m => [m.gatewayId, m.frequencyPlan, m.platform, m.description]

structure Keeps (e e' : Event) : Prop where
  kind : e'.kind = e.kind
  gatewayId : e'.gatewayId = e.gatewayId
  payload : e'.payload? = e.payload?
  gps : ∀ g ∈ e.gps?, e'.gps? = some g
  texts : List.Forall₂ (fun s s' => s ≠ "" → s' = s) e.texts e'.texts

theorem exists_withGps_of_reread {e e' : Event} (h : e.reread = .ok e') :
    ∃ gps, e' = e.withGps gps ∧ gps.isSome = e.gps?.isSome := by
  rw [reread] at h
  cases hg : e.gps? with
  | none =>
    rw [hg] at h
    cases h
    exact ⟨none, rfl, rfl⟩
  | some g =>
    rw [hg] at h
    change (g.reread.map some).map e.withGps = _ at h
    cases hr : g.reread with
    | error m =>
      rw [hr] at h
      cases h
    | ok g =>
      rw [hr] at h
      cases h
      exact ⟨some g, rfl, rfl⟩

/-- The same message, but for where exactly its gateway is. -/
structure SameBesidesPlace (e e' : Event) : Prop where
  kind : e'.kind = e.kind
  gatewayId : e'.gatewayId = e.gatewayId
  payload : e'.payload? = e.payload?
  texts : e'.texts = e.texts
  gps : e'.gps?.isSome = e.gps?.isSome

theorem sameBesidesPlace_of_reread {e e' : Event} (h : e.reread = .ok e') :
    e.SameBesidesPlace e' := by
  obtain ⟨gps, rfl, same⟩ := exists_withGps_of_reread h
  cases e with
  | connect m | disconnect m => exact ⟨rfl, rfl, rfl, rfl, rfl⟩
  | uplink m | status m => exact ⟨rfl, rfl, rfl, rfl, same⟩

theorem exists_reread_iff (e : Event) : (∃ e', e.reread = .ok e') ↔ ∀ g ∈ e.gps?, g.Finite := by
  rw [reread]
  cases e.gps? with
  | none =>
    refine iff_of_true ⟨_, rfl⟩ ?_
    rintro g ⟨⟩
  | some g =>
    change (∃ e', (g.reread.map some).map e.withGps = .ok e') ↔ _
    have own : (∀ g' ∈ some g, g'.Finite) ↔ g.Finite := by simp
    rw [own, ← g.exists_reread_iff]
    cases g.reread with
    | error m =>
      refine iff_of_false ?_ ?_
      · rintro ⟨e', ⟨⟩⟩
      · rintro ⟨g', ⟨⟩⟩
    | ok g' => exact iff_of_true ⟨_, rfl⟩ ⟨g', rfl⟩

end Event

theorem orElse_of_ne {s : String} (h : s ≠ "") (other : String) : orElse s other = s := if_neg h

theorem Uplink.gps_enriched (m : Uplink) (info : Info) :
    (m.enriched info).gps =
      m.gps.or (info.record.antennaLocation.map AntennaLocation.narrowed) := by
  rw [enriched]
  cases hg : m.gps with
  | none => cases info.record.antennaLocation <;> rfl
  | some g => rfl

theorem Uplink.gatewayId_enriched (m : Uplink) (info : Info) :
    (m.enriched info).gatewayId = m.gatewayId := by
  rw [enriched]
  split <;> rfl

theorem Uplink.payload_enriched (m : Uplink) (info : Info) :
    (m.enriched info).payload = m.payload := by
  rw [enriched]
  split <;> rfl

theorem Uplink.keeps_enriched (m : Uplink) (info : Info) :
    (Event.uplink m).Keeps (.uplink (m.enriched info)) where
  kind := rfl
  gatewayId := m.gatewayId_enriched info
  payload := congrArg some (m.payload_enriched info)
  gps g hg := by
    have own : m.gps = some g := hg
    exact (m.gps_enriched info).trans (by rw [own, Option.some_or])
  texts := .cons (fun _ => m.gatewayId_enriched info) <|
    .cons (fun _ => m.payload_enriched info) .nil

theorem Status.keeps_enriched (m : Status) (info : Info) :
    (Event.status m).Keeps (.status (m.enriched info)) where
  kind := rfl
  gatewayId := rfl
  payload := rfl
  gps g hg := by
    have own : m.gps = some g := hg
    change m.gps.or _ = some g
    rw [own, Option.some_or]
  texts := .cons (fun _ => rfl) <| .cons (fun h => orElse_of_ne h _) <|
    .cons (fun h => orElse_of_ne h _) <| .cons (fun h => orElse_of_ne h _) .nil

namespace Cache

theorem exists_handle_of_isMessage {e : Event} (h : e.isMessage = true) (c : Cache) (now : Nat) :
    let record := (c.read e.gatewayId now).1.record
    ∃ e', (c.handle e now).1 = some e' ∧ e.Keeps e' ∧
      e'.gps? = e.gps?.or (record.antennaLocation.map AntennaLocation.narrowed) := by
  cases e with
  | connect m | disconnect m => cases h
  | uplink m => exact ⟨_, rfl, m.keeps_enriched _, m.gps_enriched _⟩
  | status m => exact ⟨_, rfl, m.keeps_enriched _, rfl⟩

theorem handle_of_not_isMessage {e : Event} (h : e.isMessage = false) (c : Cache) (now : Nat) :
    (c.handle e now).1 = none := by
  cases e with
  | connect m | disconnect m => rfl
  | uplink m | status m => cases h

end Cache
end GatewayEnrichment
