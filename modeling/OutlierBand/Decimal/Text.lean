import OutlierBand.Decimal.Shortest

namespace OutlierBand

attribute [local instance (high)] instPowNat

namespace Decimal

def withPoint (digits : List Char) (places : Nat) : List Char :=
  let digits := List.replicate (places + 1 - digits.length) '0' ++ digits
  digits.take (digits.length - places) ++ '.' :: digits.drop (digits.length - places)

def positional (d : Decimal) : List Char :=
  if d.exponent < 0 then withPoint (Nat.toDigits 10 d.significand) (-d.exponent).toNat
  else Nat.toDigits 10 (d.significand * 10 ^ d.exponent.toNat)

def chars (d : Decimal) : List Char := if d.negative then '-' :: d.positional else d.positional

def isWhole : List Char → Bool
  | [] => false
  | [_] => true
  | c :: _ => c != '0'

def readFraction? : List Char → Option (List Char × List Char)
  | '.' :: cs =>
    if cs.takeWhile Char.isDigit = [] then none
    else some (cs.takeWhile Char.isDigit, cs.dropWhile Char.isDigit)
  | cs => some ([], cs)

def readPower? (negative : Bool) (cs : List Char) : Option (Int × List Char) :=
  let digits := cs.takeWhile Char.isDigit
  let power : Int := Nat.ofDigitChars 10 digits 0
  if digits = [] then none else some (if negative then -power else power, cs.dropWhile Char.isDigit)

def readExponent? : List Char → Option (Int × List Char)
  | 'e' :: '-' :: cs | 'E' :: '-' :: cs => readPower? true cs
  | 'e' :: '+' :: cs | 'E' :: '+' :: cs => readPower? false cs
  | 'e' :: cs | 'E' :: cs => readPower? false cs
  | cs => some (0, cs)

def readUnsigned? (negative : Bool) (cs : List Char) : Option (Decimal × List Char) :=
  let whole := cs.takeWhile Char.isDigit
  if isWhole whole then do
    let (fraction, cs) ← readFraction? (cs.dropWhile Char.isDigit)
    let (exponent, cs) ← readExponent? cs
    some (⟨negative, Nat.ofDigitChars 10 (whole ++ fraction) 0, exponent - fraction.length⟩, cs)
  else none

def read? : List Char → Option (Decimal × List Char)
  | '-' :: cs => readUnsigned? true cs
  | cs => readUnsigned? false cs

theorem length_dropWhile_le (p : Char → Bool) (cs : List Char) : (cs.dropWhile p).length ≤ cs.length :=
  (List.dropWhile_suffix p).length_le

theorem length_readFraction?_le {cs digits rest : List Char} (h : readFraction? cs = some (digits, rest)) :
    rest.length ≤ cs.length := by
  unfold readFraction? at h
  split at h
  · split at h
    · cases h
    · cases h; exact Nat.le_succ_of_le (length_dropWhile_le _ _)
  · cases h; exact Nat.le_refl _

theorem length_readPower?_le {negative : Bool} {cs rest : List Char} {e : Int}
    (h : readPower? negative cs = some (e, rest)) : rest.length ≤ cs.length := by
  simp only [readPower?] at h
  split at h
  · cases h
  · cases h; exact length_dropWhile_le _ _

theorem length_readExponent?_le {cs rest : List Char} {e : Int} (h : readExponent? cs = some (e, rest)) :
    rest.length ≤ cs.length := by
  unfold readExponent? at h
  split at h
  case h_7 => cases h; exact Nat.le_refl _
  all_goals have := length_readPower?_le h; simp only [List.length_cons]; omega

theorem length_readUnsigned?_lt {negative : Bool} {cs rest : List Char} {d : Decimal}
    (h : readUnsigned? negative cs = some (d, rest)) : rest.length < cs.length := by
  have hsplit := congrArg List.length (@List.takeWhile_append_dropWhile _ Char.isDigit cs)
  cases hw : cs.takeWhile Char.isDigit with
  | nil => simp [readUnsigned?, hw, isWhole] at h
  | cons c whole =>
    simp only [hw, List.length_append, List.length_cons] at hsplit
    simp only [readUnsigned?] at h
    split at h
    · simp only [bind, Option.bind_eq_some_iff, Prod.exists] at h
      obtain ⟨fraction, r, hf, e, r', he, h⟩ := h
      cases h
      have := length_readFraction?_le hf
      have := length_readExponent?_le he
      omega
    · cases h

theorem length_read?_lt {cs rest : List Char} {d : Decimal} (h : read? cs = some (d, rest)) :
    rest.length < cs.length := by
  unfold read? at h
  split at h
  · exact Nat.lt_succ_of_lt (length_readUnsigned?_lt h)
  · exact length_readUnsigned?_lt h

end Decimal

def Binary64.text : Binary64 → String
  | .nan _ => "NaN"
  | .infinite s => if s then "-inf" else "inf"
  | .finite s m => .ofList (Decimal.shortest s m).chars

end OutlierBand
