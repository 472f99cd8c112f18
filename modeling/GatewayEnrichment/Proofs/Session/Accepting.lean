import GatewayEnrichment.Proofs.Message.Keeping
import GatewayEnrichment.Proofs.Session.Lines

/-! Whether a session can read what another one has written. A coordinate that is too large for a
single has become an infinity when it is written, an infinity is written as `null`, and `null` is
no coordinate. Every other line that a session writes is a line that a session accepts. -/

namespace GatewayEnrichment

open Json

namespace Event

theorem ofOctets_write_eq_event_iff (e e' : Event) :
    Line.ofOctets (e.write ++ [lineEnd]) = .ok (.event e') ↔ e.reread = .ok e' := by
  rw [ofOctets_write, parse_write]
  cases e.reread with
  | error m =>
    refine iff_of_false ?_ ?_
    · rintro ⟨⟩
    · rintro ⟨⟩
  | ok e => simp [fitting, Except.mapError]

end Event

namespace Session

theorem written_readLine {s : Session} {o : Octets} {e : Event} (opened : s.fault = none)
    (read : Line.ofOctets o = .ok (.event e)) : (s.readLine o).written =
      ((s.schedule.cache.handle e s.schedule.now).1.map Event.write).toList ++ s.written := by
  rw [readLine, opened, read]
  rfl

/-- The line that is written for a message is accepted in its turn, as the same message, exactly
when the coordinates in it are finite. These are the message's own, or else the recorded ones. -/
theorem written_accepted_iff {s : Session} {o : Octets} {e : Event} (opened : s.fault = none)
    (read : Line.ofOctets o = .ok (.event e)) (message : e.isMessage = true) :
    let info := (s.schedule.cache.read e.gatewayId s.schedule.now).1
    ∃ e' : Event, (s.readLine o).written = e'.write :: s.written ∧
      e'.gps? = e.gps?.or (info.record.antennaLocation.map AntennaLocation.narrowed) ∧
      ((∃ e'', Line.ofOctets (e'.write ++ [lineEnd]) = .ok (.event e'')) ↔
        ∀ g ∈ e'.gps?, g.Finite) ∧
      ∀ e'', Line.ofOctets (e'.write ++ [lineEnd]) = .ok (.event e'') →
        e''.kind = e.kind ∧ e''.gatewayId = e.gatewayId ∧ e''.payload? = e.payload? ∧
          e''.gps?.isSome = e'.gps?.isSome ∧ e''.texts = e'.texts := by
  intro info
  obtain ⟨e', answer, keeps, place⟩ :=
    Cache.exists_handle_of_isMessage message s.schedule.cache s.schedule.now
  have written : (s.readLine o).written = e'.write :: s.written := by
    rw [written_readLine opened read, answer]
    rfl
  refine ⟨e', written, place, ?_, ?_⟩
  · rw [← e'.exists_reread_iff]
    simp only [e'.ofOctets_write_eq_event_iff]
  · intro e'' accepted
    have same := Event.sameBesidesPlace_of_reread ((e'.ofOctets_write_eq_event_iff e'').mp accepted)
    exact ⟨same.kind.trans keeps.kind, same.gatewayId.trans keeps.gatewayId,
      same.payload.trans keeps.payload, same.gps, same.texts⟩

theorem written_accepted_with_recorded_position :
    let location : AntennaLocation :=
      ⟨.ofDecimal .double false ⟨523702, -4⟩, .ofDecimal .double true ⟨49, -1⟩, .zero⟩
    let cache := (Cache.start 1 none).run [.issue .connect "gw1", .poll 0 0,
      .complete 0 (.ok { antennaLocation := some location }) 0]
    let s : Session := { schedule := { cache := cache, source := .memory .empty } }
    let line := octets "\x7b\"payload\":\"AQID\",\"type\":\"uplink\",\"gateway_id\":\"gw1\"\x7d\r\n"
    ∃ e' e'' : Event, (s.readLine line).written = [e'.write] ∧
      Line.ofOctets (e'.write ++ [lineEnd]) = .ok (.event e'') ∧
      e''.kind = .uplink ∧ e''.payload? = some "AQID" ∧ e''.gps?.isSome = true := by
  intro location cache s line
  let e : Event := .uplink { gatewayId := "gw1", payload := "AQID" }
  have read : Line.ofOctets line = .ok (.event e) :=
    (Line.ofOctets_octets _).trans (congrArg Except.ok (by decide +kernel))
  obtain ⟨e', written, place, accepted, same⟩ := written_accepted_iff (s := s) rfl read rfl
  have recorded : e'.gps? = some location.narrowed := place
  have finite : location.narrowed.Finite := by
    unfold Gps.Finite
    decide +kernel
  obtain ⟨e'', again⟩ := accepted.mpr fun g hg => Option.some.inj (recorded.symm.trans hg) ▸ finite
  obtain ⟨kind, -, payload, position, -⟩ := same e'' again
  refine ⟨e', e'', written, again, kind, payload, ?_⟩
  rw [position, recorded]
  rfl

theorem written_refused_of_large_latitude :
    let s : Session := { schedule := { cache := Cache.start 1 none, source := .memory .empty } }
    let line := octets ("\x7b\"type\":\"uplink\",\"gateway_id\":\"gw1\"," ++
      "\"gps\":\x7b\"latitude\":1e39,\"longitude\":4.9,\"altitude\":2\x7d\x7d\n")
    let text := octets ("\x7b\"type\":\"uplink\",\"gateway_id\":\"gw1\"," ++
      "\"gps\":\x7b\"latitude\":null,\"longitude\":4.9,\"altitude\":2\x7d,\"payload\":\"\"\x7d")
    (∃ m, Line.ofOctets line = .ok (.event (.uplink m))) ∧ (s.readLine line).written = [text] ∧
      Line.ofOctets (text ++ [lineEnd]) = .ok .malformed := by
  intro s line text
  let g : Gps := ⟨.ofDecimal .single false ⟨1, 39⟩, .ofDecimal .single false ⟨49, -1⟩, 2⟩
  let e : Event := .uplink { gatewayId := "gw1", gps := some g }
  have read : Line.ofOctets line = .ok (.event e) :=
    (Line.ofOctets_octets _).trans (congrArg Except.ok (by decide +kernel))
  have written : e.write = text := by
    decide +kernel
  refine ⟨⟨_, read⟩, ?_, ?_⟩
  · rw [written_readLine rfl read]
    decide +kernel
  · rw [← written, Event.ofOctets_write, written]
    decide +kernel

end Session
end GatewayEnrichment
