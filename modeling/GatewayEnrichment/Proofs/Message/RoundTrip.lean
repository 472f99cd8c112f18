import GatewayEnrichment.Message
import GatewayEnrichment.Proofs.Json.Carrying
import GatewayEnrichment.Proofs.Json.Tagging

/-! Reading a written event. All of it comes back as it was but for the coordinates, whose texts
are read as numbers again: an event whose coordinates are carried back to themselves comes back
whole. -/

namespace GatewayEnrichment

open Json

def Gps.CarriedBack (g : Gps) : Prop := g.latitude.CarriedBack ∧ g.longitude.CarriedBack

def Gps.reread (g : Gps) : Except Mismatch Gps := do
  let latitude ← (Schema.number .single).reread g.latitude
  let longitude ← (Schema.number .single).reread g.longitude
  return { g with latitude := latitude, longitude := longitude }

namespace Event

def gps? : Event → Option Gps
  | .uplink m => m.gps
  | .status m => m.gps
  | .connect _ | .disconnect _ => none

def withGps (gps : Option Gps) : Event → Event
  | .uplink m => .uplink { m with gps := gps }
  | .status m => .status { m with gps := gps }
  | e => e

def reread (e : Event) : Except Mismatch Event := (e.gps?.mapM Gps.reread).map e.withGps

end Event

namespace Json

theorem exists_reread_iff (x : Binary .single) :
    (∃ y, (Schema.number .single).reread x = .ok y) ↔ x.isFinite = true := by
  have reread : (Schema.number .single).reread x =
    fitNumeral _ (fun n => .ok (n.toBinary .single)) (numberValue x) := rfl
  by_cases finite : x.isFinite = true
  · obtain ⟨n, value, -⟩ :=
      exists_numeral_of_isFinite (fun _ => exists_literal_of_single) finite
    rw [reread, value]
    exact ⟨fun _ => finite, fun _ => ⟨n.toBinary .single, rfl⟩⟩
  · rw [reread, numberValue_of_not_finite finite]
    refine iff_of_false ?_ finite
    rintro ⟨y, ⟨⟩⟩

theorem reread_gps (g : Gps) : reread g = g.reread := by
  change Except.map _ (Fields.reread (.cons _ _ (.number .single) (.cons _ _ (.number .single) _))
    (g.latitude, g.longitude, _)) = _
  rw [Gps.reread, Fields.reread, Fields.reread]
  cases (Schema.number .single).reread g.latitude with
  | error e => rfl
  | ok x => cases (Schema.number .single).reread g.longitude <;> rfl

theorem sound_gps : (Encoded.schema Gps).Sound :=
  ⟨by decide, legible_single, legible_single, trivial, trivial⟩

theorem sound_connect : (Encoded.schema Connect).Sound := ⟨by decide, trivial, trivial⟩

theorem sound_disconnect : (Encoded.schema Disconnect).Sound := ⟨by decide, trivial, trivial⟩

theorem sound_notes : (Encoded.schema (List TraceEvent)).Sound :=
  ⟨by decide, trivial, trivial, trivial⟩

theorem sound_uplink : (Encoded.schema Uplink).Sound :=
  ⟨by decide, trivial, ⟨rfl, sound_gps⟩, sound_notes, trivial, trivial⟩

theorem sound_status : (Encoded.schema Status).Sound :=
  ⟨by decide, trivial, ⟨rfl, sound_gps⟩, trivial, trivial, trivial, trivial⟩

theorem reread_nullable (g : Option Gps) :
    (Schema.nullable (Encoded.schema Gps)).reread (g.map Encoded.toVal) =
      (g.mapM Gps.reread).map (·.map Encoded.toVal) := by
  cases g with
  | none => rfl
  | some g =>
    have position : ((Encoded.schema Gps).reread (Encoded.toVal g)).map Encoded.ofVal = g.reread :=
      reread_gps g
    change ((Encoded.schema Gps).reread (Encoded.toVal g)).map some = (g.reread.map some).map _
    rw [← position]
    cases (Encoded.schema Gps).reread (Encoded.toVal g) <;> rfl

theorem reread_uplink (m : Uplink) : (reread m).map Event.uplink = (Event.uplink m).reread := by
  obtain ⟨id, gps, trace, payload⟩ := m
  have notes : (Schema.list (Encoded.schema TraceEvent)).reread (trace.map Encoded.toVal) = .ok _ :=
    Schema.reread_of_carried _ sound_notes fun _ _ => ⟨trivial, trivial, trivial⟩
  have position := reread_nullable gps
  change Except.map _ (Except.map _ (Fields.reread
    (.cons _ _ .text (.cons _ _ (.nullable (Encoded.schema Gps))
      (.cons _ _ (.list (Encoded.schema TraceEvent)) (.cons _ _ .text .nil))))
    (id, gps.map Encoded.toVal, trace.map Encoded.toVal, payload, ()))) = _
  simp only [Fields.reread, notes, position]
  change _ = (gps.mapM Gps.reread).map _
  cases gps.mapM Gps.reread with
  | error e => rfl
  | ok gps =>
    let m : Uplink := ⟨id, gps, trace, payload⟩
    have back : Encoded.ofVal (Encoded.toVal m) = m := Encoded.ofVal_toVal m
    exact congrArg (fun m => Except.ok (Event.uplink m)) back

theorem reread_status (m : Status) : (reread m).map Event.status = (Event.status m).reread := by
  obtain ⟨id, gps, plan, platform, description⟩ := m
  have position := reread_nullable gps
  change Except.map _ (Except.map _ (Fields.reread
    (.cons _ _ .text (.cons _ _ (.nullable (Encoded.schema Gps))
      (.cons _ _ .text (.cons _ _ .text (.cons _ _ .text .nil)))))
    (id, gps.map Encoded.toVal, plan, platform, description, ()))) = _
  simp only [Fields.reread, position]
  change _ = (gps.mapM Gps.reread).map _
  cases gps.mapM Gps.reread with
  | error e => rfl
  | ok gps =>
    let m : Status := ⟨id, gps, plan, platform, description⟩
    have back : Encoded.ofVal (Encoded.toVal m) = m := Encoded.ofVal_toVal m
    exact congrArg (fun m => Except.ok (Event.status m)) back

end Json

namespace Event

theorem ofTag_tag (kind : Kind) : family.ofTag kind.tag = .ok kind := by
  cases kind <;> rfl

theorem parse_tagged (kind : Kind) {fs : Fields} (sound : fs.Sound)
    (depth : fs.depth ≤ maxLevels - 1) (fresh : family.key ∉ fs.names) (vs : fs.Vals) :
    parse (writeMembers (writeMember family.key (writeString kind.tag) :: fs.writeMembers vs)) =
      fitting (ofTagged ⟨kind, .object (fs.members vs)⟩) := by
  have tagged : family.read (writeMembers (writeMember family.key (writeString kind.tag) ::
      fs.writeMembers vs)) = .ok (⟨kind, .object (fs.members vs)⟩, []) := by
    rw [← List.append_nil (writeMembers _)]
    exact Family.read_written (ofTag_tag kind) sound depth fresh vs []
  rw [parse, atEnd, read, tagged]
  change ((fitting _).bind _).bind _ = _
  cases ofTagged ⟨kind, .object (fs.members vs)⟩ <;> rfl

theorem parse_write (e : Event) : parse e.write = fitting e.reread := by
  cases e with
  | connect m =>
    have whole : (fit (value m)).map Event.connect = (Event.connect m).reread :=
      congrArg _ (fit_value sound_connect m)
    refine (parse_tagged .connect sound_connect.2 ?_ ?_ (Encoded.toVal m)).trans
      (congrArg fitting whole)
    · decide
    · decide
  | disconnect m =>
    have whole : (fit (value m)).map Event.disconnect = (Event.disconnect m).reread :=
      congrArg _ (fit_value sound_disconnect m)
    refine (parse_tagged .disconnect sound_disconnect.2 ?_ ?_ (Encoded.toVal m)).trans
      (congrArg fitting whole)
    · decide
    · decide
  | uplink m =>
    have whole : (fit (value m)).map Event.uplink = (Event.uplink m).reread := by
      rw [fit_value sound_uplink, reread_uplink]
    refine (parse_tagged .uplink sound_uplink.2 ?_ ?_ (Encoded.toVal m)).trans
      (congrArg fitting whole)
    · decide
    · decide
  | status m =>
    have whole : (fit (value m)).map Event.status = (Event.status m).reread := by
      rw [fit_value sound_status, reread_status]
    refine (parse_tagged .status sound_status.2 ?_ ?_ (Encoded.toVal m)).trans
      (congrArg fitting whole)
    · decide
    · decide

theorem reread_of_carriedBack {e : Event} (h : ∀ g ∈ e.gps?, g.CarriedBack) : e.reread = .ok e := by
  have same : ∀ gps ∈ e.gps?, gps.reread = .ok gps := by
    intro g hg
    obtain ⟨latitude, longitude⟩ := h g hg
    rw [Gps.reread, (reread_eq_ok_iff legible_single _).mpr latitude,
      (reread_eq_ok_iff legible_single _).mpr longitude]
    rfl
  have back : e.withGps e.gps? = e := by
    cases e <;> rfl
  rw [reread]
  cases hg : e.gps? with
  | none =>
    rw [hg] at back
    exact congrArg Except.ok back
  | some g =>
    rw [hg] at back same
    change (g.reread.map some).map e.withGps = _
    rw [same g rfl]
    exact congrArg Except.ok back

/-- An event is read as it was written. -/
theorem parse_write_of_carriedBack (e : Event) (h : ∀ g ∈ e.gps?, g.CarriedBack) :
    parse e.write = .ok e := by
  rw [parse_write, reread_of_carriedBack h]
  rfl

theorem parse_write_of_awkward_texts :
    let g : Gps :=
      ⟨.ofDecimal .single false ⟨5237, -2⟩, .ofDecimal .single true ⟨1, -45⟩, -2147483648⟩
    let e : Event := .uplink {
      gatewayId := "\"type\":\"status\",\n\\u0000\x00\x1f", gps := some g, payload := "gateway_id"
      trace := [⟨"", .empty⟩, ⟨"é€😀\x7f", Table.ofList [("\t", "\r\n"), ("", "\x7d")]⟩] }
    (∀ g ∈ e.gps?, g.CarriedBack) ∧ parse e.write = .ok e := by
  intro g e
  have carried : g.CarriedBack := by
    unfold Gps.CarriedBack Binary.CarriedBack
    decide +kernel
  have all : ∀ g' ∈ e.gps?, g'.CarriedBack := by
    rintro g' ⟨⟩
    exact carried
  exact ⟨all, parse_write_of_carriedBack e all⟩

end Event
end GatewayEnrichment
