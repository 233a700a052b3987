import OutlierBand.Decimal.Text
import OutlierBand.Json.Basic

namespace OutlierBand.Json

def hex4 (n : Nat) : List Char :=
  let digits := Nat.toDigits 16 n
  List.replicate (4 - digits.length) '0' ++ digits

def escape (c : Char) : List Char :=
  if c = '"' then ['\\', '"']
  else if c = '\\' then ['\\', '\\']
  else if c.toNat < 0x20 then '\\' :: 'u' :: hex4 c.toNat
  else [c]

def textChars : JsonText → List Char
  | some s => '"' :: s.toList.flatMap escape ++ ['"']
  | none => '"' :: '\\' :: 'u' :: hex4 0xd800 ++ ['"']

mutual

def chars : Json → List Char
  | null => ['n', 'u', 'l', 'l']
  | bool true => ['t', 'r', 'u', 'e']
  | bool false => ['f', 'a', 'l', 's', 'e']
  | number d => d.chars
  | string s => textChars s
  | array items => '[' :: itemChars items ++ [']']
  | object members => '\x7b' :: memberChars members ++ ['\x7d']

def itemChars : List Json → List Char
  | [] => []
  | [item] => item.chars
  | item :: items => item.chars ++ ',' :: itemChars items

def memberChars : List (JsonText × Json) → List Char
  | [] => []
  | [(name, value)] => textChars name ++ ':' :: value.chars
  | (name, value) :: members => textChars name ++ ':' :: value.chars ++ ',' :: memberChars members

end

def text (value : Json) : String := .ofList value.chars

end OutlierBand.Json
