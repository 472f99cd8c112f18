import GatewayEnrichment.Json.Encoded

/-! Public gateway records, as a directory gives them out. The empty record stands for a gateway of
which nothing is known. -/

namespace GatewayEnrichment

structure AntennaLocation where
  latitude : Binary .double
  longitude : Binary .double
  altitude : Binary .double := .zero
  deriving DecidableEq, Repr

structure Attributes where
  brand : Option String := none
  model : Option String := none
  description : Option String := none
  deriving DecidableEq, Repr

def Attributes.platform (a : Attributes) : String :=
  " ".intercalate ((a.brand.toList ++ a.model.toList).filter (· ≠ ""))

structure GatewayRecord where
  id : String := ""
  frequencyPlan : String := ""
  frequencyPlanUrl : Option String := none
  antennaLocation : Option AntennaLocation := none
  attributes : Attributes := {}
  locationPublic : Bool := false
  statusPublic : Bool := false
  deriving DecidableEq, Repr

namespace GatewayRecord

def empty : GatewayRecord := {}

instance : Inhabited GatewayRecord := ⟨empty⟩

def isEmpty (r : GatewayRecord) : Bool := r == empty

end GatewayRecord

open Json

instance : Encoded AntennaLocation where
  schema := .record "AntennaLocation" <|
    .cons "latitude" .required (.number .double) <|
    .cons "longitude" .required (.number .double) <|
    .cons "altitude" .optional (.number .double) .nil
  toVal a := (a.latitude, a.longitude, a.altitude, ())
  ofVal v := ⟨v.1, v.2.1, v.2.2.1⟩
  ofVal_toVal _ := rfl
  toVal_ofVal _ := rfl

instance : Encoded Attributes where
  schema := .record "Attributes" <|
    .cons "brand" .optional (.nullable .text) <|
    .cons "model" .optional (.nullable .text) <|
    .cons "description" .optional (.nullable .text) .nil
  toVal a := (a.brand, a.model, a.description, ())
  ofVal v := ⟨v.1, v.2.1, v.2.2.1⟩
  ofVal_toVal _ := rfl
  toVal_ofVal _ := rfl

instance : Encoded GatewayRecord where
  schema := .record "GatewayRecord" <|
    .cons "id" .optional .text <|
    .cons "frequency_plan" .optional .text <|
    .cons "frequency_plan_url" .optional (.nullable .text) <|
    .cons "antenna_location" .optional (.nullable (Encoded.schema AntennaLocation)) <|
    .cons "attributes" .optional (Encoded.schema Attributes) <|
    .cons "location_public" .optional .flag <|
    .cons "status_public" .optional .flag .nil
  toVal r := (r.id, r.frequencyPlan, r.frequencyPlanUrl, r.antennaLocation.map Encoded.toVal,
    Encoded.toVal r.attributes, r.locationPublic, r.statusPublic, ())
  ofVal v := ⟨v.1, v.2.1, v.2.2.1, v.2.2.2.1.map Encoded.ofVal, Encoded.ofVal v.2.2.2.2.1,
    v.2.2.2.2.2.1, v.2.2.2.2.2.2.1⟩
  ofVal_toVal r := by
    cases r with
    | mk _ _ _ location => cases location <;> rfl
  toVal_ofVal v := by
    obtain ⟨_, _, _, location, _, _, _, _⟩ := v
    cases location <;> rfl

end GatewayEnrichment
