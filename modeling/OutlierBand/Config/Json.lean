import OutlierBand.Config.Basic
import OutlierBand.Json.Reader
import OutlierBand.Json.Writer

namespace OutlierBand

def Binary64.toJson : Binary64 → Json
  | .finite s m => .number (Decimal.shortest s m)
  | _ => .null

def Binary64.ofJson? : Json → Option Binary64
  | .number d => some d.toBinary64 |>.filter Binary64.isFinite
  | _ => none

def Statistic.ofJson? : Json → Option Statistic
  | .string (some name) => ofName? name
  | .object [(some name, .null)] => ofName? name
  | _ => none

namespace Config

def toJson (c : Config) : Json :=
  .object [(some "deviation_scale", c.deviationScale.toJson), (some "min_tolerance", c.minTolerance.toJson),
    (some "reference", .string (some c.reference.name))]

def toText (c : Config) : String := c.toJson.text

def field? {α : Type} (members : List (JsonText × Json)) (name : String) (read? : Json → Option α) (absent : α) :
    Option α :=
  match members.filter (·.1 = some name) with
  | [] => some absent
  | [(_, value)] => read? value
  | _ => none

def ofMembers? (members : List (JsonText × Json)) : Option Config :=
  if members.all (·.1.isSome) then do
    let deviationScale ← field? members "deviation_scale" Binary64.ofJson? default.deviationScale
    let minTolerance ← field? members "min_tolerance" Binary64.ofJson? default.minTolerance
    let reference ← field? members "reference" Statistic.ofJson? default.reference
    some ⟨deviationScale, minTolerance, reference⟩
  else none

def fieldNames : List JsonText := [some "deviation_scale", some "min_tolerance", some "reference"]

def ofJson? : Json → Option Config
  | .object members => ofMembers? members
  | .array items => if items.length ≤ fieldNames.length then ofMembers? (fieldNames.zip items) else none
  | _ => none

def ofText? (text : String) : Option Config := (Json.read? text).bind ofJson?

end Config

end OutlierBand
