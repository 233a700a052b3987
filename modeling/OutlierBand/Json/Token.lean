import OutlierBand.Decimal.Text
import OutlierBand.Json.Basic

namespace OutlierBand

namespace Json

inductive Piece where
  | char (c : Char)
  | half (unit : Nat)

namespace Piece

def ofUnit (unit : Nat) : Piece :=
  if 0xd800 ≤ unit ∧ unit ≤ 0xdfff then half unit else char (.ofNat unit)

def join? : List Piece → Option (List Char)
  | [] => some []
  | char c :: ps => (c :: ·) <$> join? ps
  | half high :: half low :: ps =>
    if high < 0xdc00 ∧ 0xdc00 ≤ low then
      (Char.ofNat (0x10000 + (high - 0xd800) * 0x400 + (low - 0xdc00)) :: ·) <$> join? ps
    else none
  | half _ :: _ => none

end Piece

def hexDigit? (c : Char) : Option Nat :=
  if '0' ≤ c ∧ c ≤ '9' then some (c.toNat - '0'.toNat)
  else if 'a' ≤ c ∧ c ≤ 'f' then some (c.toNat - 'a'.toNat + 10)
  else if 'A' ≤ c ∧ c ≤ 'F' then some (c.toNat - 'A'.toNat + 10)
  else none

def unit? (a b c d : Char) : Option Nat := do
  some (((← hexDigit? a) * 16 + (← hexDigit? b)) * 256 + (← hexDigit? c) * 16 + (← hexDigit? d))

def escaped? (c : Char) : Option Char :=
  if c = '"' ∨ c = '\\' ∨ c = '/' then some c
  else if c = 'b' then some '\x08'
  else if c = 'f' then some '\x0c'
  else if c = 'n' then some '\n'
  else if c = 'r' then some '\r'
  else if c = 't' then some '\t'
  else none

def prepend? (p : Option Piece) (r : Option (List Piece × List Char)) : Option (List Piece × List Char) :=
  match p, r with
  | some p, some (ps, rest) => some (p :: ps, rest)
  | _, _ => none

def readPieces? : List Char → Option (List Piece × List Char)
  | [] => none
  | '"' :: cs => some ([], cs)
  | '\\' :: 'u' :: a :: b :: c :: d :: cs => prepend? ((unit? a b c d).map .ofUnit) (readPieces? cs)
  | '\\' :: e :: cs => prepend? ((escaped? e).map .char) (readPieces? cs)
  | c :: cs => if c.toNat < 0x20 then none else prepend? (some (.char c)) (readPieces? cs)

inductive Token where
  | openArray
  | closeArray
  | openObject
  | closeObject
  | comma
  | colon
  | null
  | bool (value : Bool)
  | number (value : Decimal)
  | string (text : JsonText)
deriving DecidableEq

namespace Token

def isBlank (c : Char) : Bool := c = ' ' ∨ c = '\t' ∨ c = '\n' ∨ c = '\r'

def read? : List Char → Option (Token × List Char)
  | '[' :: cs => some (openArray, cs)
  | ']' :: cs => some (closeArray, cs)
  | '\x7b' :: cs => some (openObject, cs)
  | '\x7d' :: cs => some (closeObject, cs)
  | ',' :: cs => some (comma, cs)
  | ':' :: cs => some (colon, cs)
  | '"' :: cs => (readPieces? cs).map fun (ps, rest) => (string ((Piece.join? ps).map .ofList), rest)
  | 'n' :: 'u' :: 'l' :: 'l' :: cs => some (null, cs)
  | 't' :: 'r' :: 'u' :: 'e' :: cs => some (bool true, cs)
  | 'f' :: 'a' :: 'l' :: 's' :: 'e' :: cs => some (bool false, cs)
  | cs => (Decimal.read? cs).map fun (d, rest) => (number d, rest)

theorem prepend?_eq_some {p : Option Piece} {r : Option (List Piece × List Char)} {ps : List Piece}
    {rest : List Char} (h : prepend? p r = some (ps, rest)) : ∃ qs, r = some (qs, rest) := by
  unfold prepend? at h
  split at h
  · cases h; exact ⟨_, rfl⟩
  · cases h

theorem length_readPieces?_le {cs : List Char} {ps : List Piece} {rest : List Char}
    (h : readPieces? cs = some (ps, rest)) : rest.length ≤ cs.length := by
  fun_induction readPieces? cs generalizing ps with
  | case1 => cases h
  | case2 cs => cases h; simp
  | case3 a b c d cs ih | case4 e cs _ ih =>
    obtain ⟨qs, hq⟩ := prepend?_eq_some h
    have := ih hq
    simp only [List.length_cons]; omega
  | case5 => cases h
  | case6 c cs _ _ _ _ ih =>
    obtain ⟨qs, hq⟩ := prepend?_eq_some h
    have := ih hq
    simp only [List.length_cons]; omega

theorem length_read?_lt {cs : List Char} {t : Token} {rest : List Char} (h : read? cs = some (t, rest)) :
    rest.length < cs.length := by
  unfold read? at h
  split at h
  case h_7 cs =>
    obtain ⟨⟨ps, r⟩, hp, h⟩ := Option.map_eq_some_iff.1 h
    cases h
    exact Nat.lt_succ_of_le (length_readPieces?_le hp)
  case h_11 =>
    obtain ⟨⟨d, r⟩, hd, h⟩ := Option.map_eq_some_iff.1 h
    cases h
    exact Decimal.length_read?_lt hd
  all_goals cases h; simp only [List.length_cons]; omega

def readAll? (cs : List Char) : Option (List Token) :=
  match cs with
  | [] => some []
  | c :: cs =>
    if isBlank c then readAll? cs
    else match h : read? (c :: cs) with
      | none => none
      | some (t, rest) =>
        have := length_read?_lt h
        (t :: ·) <$> readAll? rest
termination_by cs.length
decreasing_by
  · exact Nat.lt_succ_self _
  · assumption

end Token

end Json

end OutlierBand
