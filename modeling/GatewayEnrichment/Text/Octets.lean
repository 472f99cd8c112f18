/-! Texts as sequences of octets. Everything that is read or written is a list of octets; a
`String` is obtained from one exactly when the octets are UTF-8. -/

namespace GatewayEnrichment

abbrev Octets := List UInt8

def octets (s : String) : Octets := s.toByteArray.data.toList

def Octets.text? (o : Octets) : Option String := String.fromUTF8? ⟨o.toArray⟩

theorem Octets.text?_octets (s : String) : (octets s).text? = some s := by
  simp only [Octets.text?, octets, Array.toArray_toList, String.fromUTF8?]
  exact dif_pos s.isValidUTF8

theorem Octets.octets_of_text? {o : Octets} {s : String} (h : o.text? = some s) :
    octets s = o := by
  simp only [Octets.text?, String.fromUTF8?, Option.dite_none_right_eq_some,
    Option.some.injEq] at h
  obtain ⟨_, rfl⟩ := h
  simp [octets, String.fromUTF8]

end GatewayEnrichment
