import GatewayEnrichment.Message
import GatewayEnrichment.Proofs.Json.Carrying
import GatewayEnrichment.Proofs.Json.Choosing

/-! The two ways of reading a message. One reads the fields of a known kind of message from the text
and passes over whatever else an object has; the other reads all of the text first and chooses the
kind by the tag. On the text of an object the two agree. -/

namespace GatewayEnrichment

open Json

namespace Kind

@[reducible] def Message : Kind → Type
  | .connect => Connect
  | .disconnect => Disconnect
  | .uplink => Uplink
  | .status => Status

instance encodedMessage : (k : Kind) → Encoded k.Message
  | .connect => inferInstanceAs (Encoded Connect)
  | .disconnect => inferInstanceAs (Encoded Disconnect)
  | .uplink => inferInstanceAs (Encoded Uplink)
  | .status => inferInstanceAs (Encoded Status)

def fields (k : Kind) : Fields :=
  match Encoded.schema k.Message with
  | .record _ fs => fs
  | _ => .nil

theorem exists_schema_eq (k : Kind) : ∃ name, Encoded.schema k.Message = .record name k.fields := by
  cases k with
  | connect | disconnect | uplink | status => exact ⟨_, rfl⟩

theorem nodup_names (k : Kind) : (Event.family.key :: k.fields.names).Nodup := by
  cases k with
  | connect | disconnect | uplink | status => decide

end Kind

namespace Event

def of : (k : Kind) → k.Message → Event
  | .connect => .connect
  | .disconnect => .disconnect
  | .uplink => .uplink
  | .status => .status

theorem kind_of (k : Kind) (m : k.Message) : (of k m).kind = k := by
  cases k with
  | connect | disconnect | uplink | status => rfl

theorem of_injective (k : Kind) : Function.Injective (of k) := by
  intro m m' h
  cases k with
  | connect | disconnect | uplink | status => injection h

theorem exists_of (e : Event) : ∃ k m, e = of k m := by
  cases e with
  | connect m => exact ⟨.connect, m, rfl⟩
  | disconnect m => exact ⟨.disconnect, m, rfl⟩
  | uplink m => exact ⟨.uplink, m, rfl⟩
  | status m => exact ⟨.status, m, rfl⟩

theorem ofTagged_eq (t : Tagged Kind) :
    ofTagged t = (Json.fit t.content : Except Mismatch t.kind.Message).map (of t.kind) := by
  obtain ⟨kind, content⟩ := t
  cases kind with
  | connect | disconnect | uplink | status => rfl

def ofValue (v : Value) : Except Mismatch Event := family.fit v >>= ofTagged

end Event

section

variable {o : Octets} {v : Value}

theorem Json.fit_eq_ok_iff {α : Type} [Encoded α] {a : α} :
    Json.fit v = .ok a ↔ (Encoded.schema α).fit v = .ok (Encoded.toVal a) := by
  rw [Json.fit]
  cases (Encoded.schema α).fit v with
  | error e => simp [Except.map]
  | ok w =>
    simp only [Except.map, Except.ok.injEq]
    constructor
    · rintro rfl
      exact (Encoded.toVal_ofVal w).symm
    · rintro rfl
      exact Encoded.ofVal_toVal a

namespace Event

theorem parse_eq_ok_iff_ofValue (whole : atEnd (readValue maxLevels) o = .ok v) (e : Event) :
    parse o = .ok e ↔ ofValue v = .ok e := by
  refine atEnd_eq_ok_iff_of_amounts whole (fun trail taken => ?_) e
  refine (Family.amounts_read taken).bind fun t => ?_
  exact amounts_fitting (ofTagged t) trail

theorem exists_atEnd_of_parse {e : Event} (h : parse o = .ok e) :
    ∃ v, atEnd (readValue maxLevels) o = .ok v := by
  obtain ⟨trail, blank, taken⟩ := atEnd_eq_ok_iff.mp h
  obtain ⟨⟨t, trail'⟩, tagged, h⟩ := exists_of_bind_eq_ok taken
  obtain ⟨e', -, h⟩ := exists_of_bind_eq_ok h
  cases h
  obtain ⟨v, read⟩ := Family.exists_readValue_of_read tagged
  exact ⟨v, atEnd_eq_ok_iff.mpr ⟨trail, blank, read⟩⟩

theorem fitTag_eq_ok_iff {k : Kind} : family.fitTag v = .ok k ↔ v = .text k.tag := by
  constructor
  · intro h
    cases v with
    | text s =>
      unfold Family.fitTag Family.ofTag at h
      dsimp only at h
      split at h
      · next kind found =>
        cases h
        have holds := List.find?_some found
        have named : k.tag = s := of_decide_eq_true holds
        rw [named]
      · cases h
    | _ => cases h
  · rintro rfl
    cases k with
    | connect | disconnect | uplink | status => rfl

theorem ofTagged_eq_ok_iff {kind k : Kind} {content : Value} {m : k.Message} :
    ofTagged ⟨kind, content⟩ = .ok (of k m) ↔ kind = k ∧ Json.fit content = .ok m := by
  rw [ofTagged_eq]
  constructor
  · intro h
    obtain ⟨m', fits, same⟩ := exists_of_map_eq_ok h
    have kinds : kind = k := by
      rw [← kind_of kind m', same, kind_of]
    subst kinds
    rw [← of_injective kind same]
    exact ⟨rfl, fits⟩
  · rintro ⟨rfl, fits⟩
    dsimp only
    rw [fits]
    rfl

theorem ofValue_object_eq_ok_iff {k : Kind} {m : k.Message} {ms : List (String × Value)} :
    ofValue (.object ms) = .ok (of k m) ↔ valuesOf family.key ms = [.text k.tag] ∧
      Json.fit (.object (ms.filter (·.1 ≠ family.key))) = .ok m := by
  constructor
  · intro h
    obtain ⟨⟨kind, content⟩, chosen, h⟩ := exists_of_bind_eq_ok h
    obtain ⟨u, single, fits, rfl⟩ := Family.fit_object_eq_ok_iff.mp chosen
    obtain ⟨rfl, fitted⟩ := ofTagged_eq_ok_iff.mp h
    rw [single, fitTag_eq_ok_iff.mp fits]
    exact ⟨rfl, fitted⟩
  · rintro ⟨single, fitted⟩
    have chosen : family.fit (.object ms) =
        .ok ⟨k, .object (ms.filter (·.1 ≠ family.key))⟩ :=
      Family.fit_object_eq_ok_iff.mpr ⟨_, single, fitTag_eq_ok_iff.mpr rfl, rfl⟩
    rw [ofValue, chosen]
    exact ofTagged_eq_ok_iff.mpr ⟨rfl, fitted⟩

theorem ofValue_array_eq_ok_iff {k : Kind} {m : k.Message} {us : List Value} :
    ofValue (.array (.text k.tag :: us)) = .ok (of k m) ↔ Json.fit (.array us) = .ok m := by
  have tagged : family.fitTag (.text k.tag) = .ok k := fitTag_eq_ok_iff.mpr rfl
  have chosen : family.fit (.array (.text k.tag :: us)) = .ok ⟨k, .array us⟩ := by
    rw [Family.fit, tagged]
    rfl
  rw [ofValue, chosen]
  refine ofTagged_eq_ok_iff.trans ?_
  simp

end Event

section

variable {k : Kind} {m : k.Message} {ms ms' : List (String × Value)}

theorem Kind.fit_object_congr
    (same : ∀ key ∈ k.fields.names, (valuesOf key ms).Perm (valuesOf key ms'))
    (h : Json.fit (.object ms) = .ok m) : Json.fit (.object ms') = .ok m := by
  obtain ⟨name, record⟩ := k.exists_schema_eq
  rw [Json.fit_eq_ok_iff] at h ⊢
  exact Schema.fit_object_congr record (List.nodup_cons.mp k.nodup_names).2 same h

theorem Kind.fit_array_of_lists {us : List Value} (h : Json.fit (.object ms) = .ok m)
    (listed : k.fields.Lists ms us) : Json.fit (.array us) = .ok m := by
  obtain ⟨name, record⟩ := k.exists_schema_eq
  rw [Json.fit_eq_ok_iff] at h ⊢
  exact Schema.fit_array_of_lists record (List.nodup_cons.mp k.nodup_names).2 h listed

theorem Kind.length_valuesOf_le (h : Json.fit (.object ms) = .ok m) :
    ∀ key ∈ k.fields.names, (valuesOf key ms).length ≤ 1 := by
  obtain ⟨name, record⟩ := k.exists_schema_eq
  rw [Json.fit_eq_ok_iff] at h
  exact Schema.length_valuesOf_le record (List.nodup_cons.mp k.nodup_names).2 h

theorem Kind.valuesOf_without_tag {key : String} (h : key ∈ k.fields.names) :
    valuesOf key (ms.filter (·.1 ≠ Event.family.key)) = valuesOf key ms := by
  refine valuesOf_filter fun member _ same => ?_
  have other : member.1 ≠ Event.family.key := by
    intro tag
    rw [same] at tag
    exact (List.nodup_cons.mp k.nodup_names).1 (tag ▸ h)
  simpa using other

namespace Event

theorem ofValue_object_iff : ofValue (.object ms) = .ok (of k m) ↔
    valuesOf family.key ms = [.text k.tag] ∧ Json.fit (.object ms) = .ok m := by
  rw [ofValue_object_eq_ok_iff]
  refine and_congr_right fun _ => ⟨fun h => ?_, fun h => ?_⟩
  · exact k.fit_object_congr (fun key hk => by rw [k.valuesOf_without_tag hk]) h
  · exact k.fit_object_congr (fun key hk => by rw [k.valuesOf_without_tag hk]) h

theorem parse_object_iff (laid : ObjectText (maxLevels - 1) o ms) :
    parse o = .ok (of k m) ↔
      valuesOf family.key ms = [.text k.tag] ∧ Json.fit (.object ms) = .ok m :=
  (parse_eq_ok_iff_ofValue (objectText_iff.mp laid) _).trans ofValue_object_iff

theorem exists_objectText_of_parse {e : Event} (object : ∃ r, skipSpace o = Mark.openObject :: r)
    (h : parse o = .ok e) : ∃ ms, ObjectText (maxLevels - 1) o ms := by
  obtain ⟨r, begins⟩ := object
  obtain ⟨v, whole⟩ := exists_atEnd_of_parse h
  obtain ⟨ms, rfl⟩ := exists_object_of_begins begins whole
  exact ⟨ms, objectText_iff.mpr whole⟩

end Event

end

/-- On the text of an object, what is read as an event is also read as a message of its kind, and
the other way round if the one tag of the object names the kind and all members can be read in
full. -/
theorem parse_event_agrees_with_message (k : Kind) (m : k.Message)
    (object : ∃ r, skipSpace o = Mark.openObject :: r) :
    (Event.parse o = .ok (.of k m) → Json.parse k.Message o = .ok m) ∧
      ∀ ms, Json.parse k.Message o = .ok m → ObjectText (maxLevels - 1) o ms →
        valuesOf "type" ms = [.text k.tag] → Event.parse o = .ok (.of k m) := by
  constructor
  · intro accepted
    obtain ⟨ms, laid⟩ := Event.exists_objectText_of_parse object accepted
    obtain ⟨-, fits⟩ := (Event.parse_object_iff laid).mp accepted
    exact (Json.parse_eq_ok_iff_fit (objectText_iff.mp laid) m).mpr fits
  · intro ms direct laid tagged
    have fits := (Json.parse_eq_ok_iff_fit (objectText_iff.mp laid) m).mp direct
    exact (Event.parse_object_iff laid).mpr ⟨tagged, fits⟩

theorem parse_event_agrees_with_message_of_uplink :
    let o := octets "\x7b\"x\":[1e9,null],\"gps\":null,\"type\":\"uplink\",\"gateway_id\":\"g\"\x7d"
    (∃ r, skipSpace o = Mark.openObject :: r) ∧
      Event.parse o = .ok (.of .uplink { gatewayId := "g" }) ∧
      Json.parse Uplink o = .ok { gatewayId := "g" } := by
  intro o
  have object : ∃ r, skipSpace o = Mark.openObject :: r := ⟨_, rfl⟩
  have accepted : Event.parse o = .ok (.of .uplink { gatewayId := "g" }) := by decide +kernel
  exact ⟨object, accepted, (parse_event_agrees_with_message .uplink _ object).1 accepted⟩

example :
    let o := octets "\x7b\"type\":\"connect\",\"gateway_id\":\"g\",\"x\":1e999\x7d"
    Json.parse Connect o = .ok ⟨"g"⟩ ∧ Event.parse o = .error .malformed := by
  decide +kernel

end

end GatewayEnrichment
