import OutlierBand.Decimal.Basic

/-!
The shortest decimal of a binary64 number: the coarsest grid `10 ^ p` on which some multiple reads back as the number,
and of the multiples that do, the nearest. The multiples next to the number on either side are the only candidates.
-/

namespace OutlierBand.Decimal

attribute [local instance (high)] instPowNat

def readsAs (m : Binary64.Magnitude) (k : Nat) (p : Int) : Bool :=
  toBinary64 ⟨false, k, p⟩ = .finite false m

/-- The multiple of `10 ^ p` nearest to `m` that reads back as `m`; of two equally near, the larger. -/
def multiple? (m : Binary64.Magnitude) (p : Int) : Option Nat :=
  let num := m.units * 10 ^ (-p).toNat
  let den := Binary64.unitsInOne * 10 ^ p.toNat
  let below := num / den
  match readsAs m below p, readsAs m (below + 1) p with
  | true, true => some (if 2 * (num % den) < den then below else below + 1)
  | true, false => some below
  | false, true => some (below + 1)
  | false, false => none

def shortestBelow (negative : Bool) (m : Binary64.Magnitude) : Nat → Decimal
  | 0 => ⟨negative, m.units * 5 ^ 1074, -1074⟩
  | steps + 1 =>
    let p : Int := (steps + 1 : Nat) - 1074
    match multiple? m p with
    | some k => ⟨negative, k, p⟩
    | none => shortestBelow negative m steps

/-- An exponent at which the power of ten is more than twice the number, so that no coarser grid has a multiple near
it: `3 / 10` is a little less than the logarithm of two. -/
def coarsest (m : Binary64.Magnitude) : Int := 3 * (m.units.log2 + 2 - 1074) / 10 + 2

def shortest (negative : Bool) (m : Binary64.Magnitude) : Decimal :=
  if m.units = 0 then ⟨negative, 0, 0⟩ else shortestBelow negative m (coarsest m + 1074).toNat

end OutlierBand.Decimal
