import OutlierBand.Binary64.Arithmetic

namespace OutlierBand.Statistics

open Binary64

structure Spread where
  count : Nat
  mean : Binary64
  squares : Binary64
deriving DecidableEq

namespace Spread

def empty : Spread := ⟨0, zero, zero⟩

/-- The new mean enters the square once and the old one once; the square is added in one rounding. -/
def push (s : Spread) (x : Binary64) : Spread :=
  let delta := x - s.mean
  let mean := s.mean + delta / ofNat (s.count + 1)
  ⟨s.count + 1, mean, fma (x - mean) delta s.squares⟩

def ofList (xs : List Binary64) : Spread := xs.foldl push empty

def deviation (s : Spread) : Binary64 := sqrt (s.squares / ofNat s.count)

theorem ofList_append (xs : List Binary64) (x : Binary64) : ofList (xs ++ [x]) = (ofList xs).push x := by
  rw [ofList, List.foldl_append]
  rfl

theorem count_ofList (xs : List Binary64) : (ofList xs).count = xs.length := by
  have count_foldl (xs : List Binary64) (s : Spread) : (xs.foldl push s).count = s.count + xs.length := by
    induction xs generalizing s with
    | nil => rfl
    | cons x xs ih => rw [List.foldl_cons, ih, List.length_cons]; simp only [push]; omega
  exact (count_foldl xs empty).trans (Nat.zero_add _)

end Spread

end OutlierBand.Statistics
