import OutlierBand.Decimal.Basic

namespace OutlierBand.Statistics

open Binary64

def insertSorted (x : Binary64) : List Binary64 → List Binary64
  | [] => [x]
  | y :: ys => if x.rank ≤ y.rank then x :: y :: ys else y :: insertSorted x ys

def sorted (xs : List Binary64) : List Binary64 := xs.foldr insertSorted []

def middle (xs : List Binary64) : Binary64 :=
  match xs[xs.length / 2 - 1]?, xs[xs.length / 2]? with
  | some a, some b => if xs.length % 2 = 1 then b else (a + b) / two
  | _, _ => zero

def median (xs : List Binary64) : Binary64 := middle (sorted xs)

/-- Makes the median distance agree with the standard deviation on normally distributed values. -/
def normalFactor : Binary64 := Decimal.toBinary64 ⟨false, 14826, -4⟩

def medianDeviation (centre : Binary64) (xs : List Binary64) : Binary64 :=
  normalFactor * median (xs.map fun x => (x - centre).abs)

theorem perm_insertSorted (x : Binary64) (ys : List Binary64) : (insertSorted x ys).Perm (x :: ys) := by
  induction ys with
  | nil => exact .refl _
  | cons y ys ih =>
    simp only [insertSorted]
    split
    · exact .refl _
    · exact (ih.cons y).trans (.swap x y ys)

theorem perm_sorted (xs : List Binary64) : (sorted xs).Perm xs := by
  induction xs with
  | nil => exact .refl _
  | cons x xs ih => exact (perm_insertSorted x _).trans (ih.cons x)

theorem pairwise_insertSorted (x : Binary64) {ys : List Binary64} (h : ys.Pairwise (·.rank ≤ ·.rank)) :
    (insertSorted x ys).Pairwise (·.rank ≤ ·.rank) := by
  induction ys with
  | nil => simp [insertSorted]
  | cons y ys ih =>
    obtain ⟨hy, hys⟩ := List.pairwise_cons.1 h
    simp only [insertSorted]
    split
    · refine List.pairwise_cons.2 ⟨fun z hz => ?_, h⟩
      rcases List.mem_cons.1 hz with rfl | hz
      · assumption
      · have := hy z hz; omega
    · refine List.pairwise_cons.2 ⟨fun z hz => ?_, ih hys⟩
      rcases List.mem_cons.1 ((perm_insertSorted x ys).mem_iff.1 hz) with rfl | hz
      · omega
      · exact hy z hz

theorem pairwise_sorted (xs : List Binary64) : (sorted xs).Pairwise (·.rank ≤ ·.rank) := by
  induction xs with
  | nil => exact .nil
  | cons x xs ih => exact pairwise_insertSorted x ih

end OutlierBand.Statistics
