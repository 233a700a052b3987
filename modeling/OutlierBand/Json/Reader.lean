import OutlierBand.Json.Token

/-!
Reading of JSON. A value starts with its first token; arrays and objects hold values in turn. Each call goes one
level deeper or one token further, so as many levels as there are tokens suffice.
-/

namespace OutlierBand.Json

mutual

def readValue? : Nat → List Token → Option (Json × List Token)
  | _ + 1, .null :: ts => some (.null, ts)
  | _ + 1, .bool b :: ts => some (.bool b, ts)
  | _ + 1, .number d :: ts => some (.number d, ts)
  | _ + 1, .string s :: ts => some (.string s, ts)
  | _ + 1, .openArray :: .closeArray :: ts => some (.array [], ts)
  | level + 1, .openArray :: ts => (readItems? level ts).map fun (items, rest) => (.array items, rest)
  | _ + 1, .openObject :: .closeObject :: ts => some (.object [], ts)
  | level + 1, .openObject :: ts => (readMembers? level ts).map fun (members, rest) => (.object members, rest)
  | _, _ => none

def readItems? : Nat → List Token → Option (List Json × List Token)
  | 0, _ => none
  | level + 1, ts => do
    let (item, ts) ← readValue? level ts
    match ts with
    | .closeArray :: ts => some ([item], ts)
    | .comma :: ts => (readItems? level ts).map fun (items, rest) => (item :: items, rest)
    | _ => none

def readMembers? : Nat → List Token → Option (List (JsonText × Json) × List Token)
  | level + 1, .string name :: .colon :: ts => do
    let (value, ts) ← readValue? level ts
    match ts with
    | .closeObject :: ts => some ([(name, value)], ts)
    | .comma :: ts => (readMembers? level ts).map fun (members, rest) => ((name, value) :: members, rest)
    | _ => none
  | _, _ => none

end

def ofTokens? (ts : List Token) : Option Json :=
  match readValue? (ts.length + 1) ts with
  | some (value, []) => some value
  | _ => none

def read? (text : String) : Option Json := (Token.readAll? text.toList).bind ofTokens?

end OutlierBand.Json
