import OutlierBand.Samples

/-!
The sum of a column. Rounding makes the order of the additions part of the result; the layout of the matrix decides
it, since a column that lies in one piece is summed in eight lanes.
-/

namespace OutlierBand

namespace Statistics

open Binary64

def sum (xs : List Binary64) : Binary64 := xs.foldl (· + ·) zero

def addToLanes (lanes : List Binary64) : List Binary64 → List Binary64 × List Binary64
  | a :: b :: c :: d :: e :: f :: g :: h :: rest =>
    addToLanes (lanes.zipWith (· + ·) [a, b, c, d, e, f, g, h]) rest
  | rest => (lanes, rest)

def sumInLanes (xs : List Binary64) : Binary64 :=
  let (lanes, rest) := addToLanes (List.replicate 8 zero) xs
  sum ((lanes.take 4).zipWith (· + ·) (lanes.drop 4) ++ rest)

end Statistics

open Statistics in
def Layout.sum (layout : Layout) (width : Nat) (column : List Binary64) : Binary64 :=
  match layout with
  | .rowMajor | .columnMajorStrided => Statistics.sum column
  | .columnMajor => sumInLanes column
  -- A single column is in one piece either way up.
  | .columnMajorReversed => if width = 1 then Statistics.sum column else sumInLanes column.reverse

end OutlierBand
