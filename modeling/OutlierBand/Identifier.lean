import OutlierBand.Text.Quoted

namespace OutlierBand

class Identifier (κ : Type) where
  text : κ → String

def Text.decimal (n : Int) : String := if n < 0 then "-" ++ n.natAbs.repr else n.natAbs.repr

/-- An identifier that is a number or a name; the number `1` and the name `"1"` differ. -/
inductive Key where
  | number (n : Int)
  | name (s : String)
deriving DecidableEq

instance : Identifier Int where
  text := Text.decimal

instance : Identifier String where
  text := Text.quoted

instance : Identifier Key where
  text
    | .number n => "Int(" ++ Text.decimal n ++ ")"
    | .name s => "Str(" ++ Text.quoted s ++ ")"

end OutlierBand
