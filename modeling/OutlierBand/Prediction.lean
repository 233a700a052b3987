import OutlierBand.Band

namespace OutlierBand

open Binary64

inductive Label where
  | inlier
  | outlier
deriving DecidableEq

namespace Label

def ofScore (score : Binary64) : Label := if score ≤ one then inlier else outlier

def value : Label → Int
  | inlier => 1
  | outlier => -1

def isInlier (l : Label) : Bool := l = inlier

def inlierFraction (labels : List Label) : Binary64 :=
  if labels = [] then zero else .ofNat (labels.count inlier) / .ofNat labels.length

def outlierIndices (labels : List Label) : List Nat :=
  labels.zipIdx.filterMap fun (label, i) => if label.isInlier then none else some i

end Label

structure Prediction where
  scores : List Binary64
deriving DecidableEq

namespace Prediction

def labels (p : Prediction) : List Label := p.scores.map .ofScore

def labelValues (p : Prediction) : List Int := p.labels.map Label.value

def confidence (p : Prediction) : Binary64 := Label.inlierFraction p.labels

def outliers (p : Prediction) : List Nat := Label.outlierIndices p.labels

end Prediction

def Band.predict (b : Band) (xs : Samples) : Prediction := ⟨b.scores xs⟩

end OutlierBand
