import OutlierBand.Decimal.Basic

namespace OutlierBand

/-- The text of a JSON string; `none` if its escapes name half of a surrogate pair without the other half. -/
abbrev JsonText := Option String

inductive Json where
  | null
  | bool (value : Bool)
  | number (value : Decimal)
  | string (text : JsonText)
  | array (items : List Json)
  | object (members : List (JsonText × Json))

end OutlierBand
