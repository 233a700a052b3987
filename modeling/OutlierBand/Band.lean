import OutlierBand.Config.Basic

namespace OutlierBand

open Binary64

structure Feature where
  centre : Binary64
  tolerance : Binary64
deriving DecidableEq

def Config.feature (c : Config) (sensitivity : Binary64) (s : Summary) : Feature :=
  ⟨s.centre, sensitivity * (c.deviationScale * s.dispersion + s.centre.abs.maxNum c.minTolerance)⟩

namespace Feature

def isFinite (f : Feature) : Bool := f.centre.isFinite && f.tolerance.isFinite

def ratio (f : Feature) (x : Binary64) : Binary64 := (x - f.centre).abs / f.tolerance

def same (f g : Feature) : Bool := f.centre.same g.centre && f.tolerance.same g.tolerance

end Feature

structure Band where
  features : List Feature
  sensitivity : Binary64
  sampleCount : Nat
deriving DecidableEq

namespace Band

/-- Fits a band to samples; the first feature whose band is not finite is refused. The configuration is taken as it
is. -/
def fit (xs : Samples) (sensitivity : Binary64) (c : Config) : Except Fault Band := do
  checkSensitivity sensitivity
  xs.check
  let features := (xs.summaries c.reference).map (c.feature sensitivity)
  match features.findIdx? (!·.isFinite) with
  | some j => .error (.overflow j)
  | none => .ok ⟨features, sensitivity, xs.height⟩

theorem fit_eq_ok_iff {xs : Samples} {sensitivity : Binary64} {c : Config} {b : Band} :
    fit xs sensitivity c = .ok b ↔ checkSensitivity sensitivity = .ok () ∧ xs.check = .ok () ∧
      (∀ s ∈ xs.summaries c.reference, (c.feature sensitivity s).isFinite) ∧
      b = ⟨(xs.summaries c.reference).map (c.feature sensitivity), sensitivity, xs.height⟩ := by
  unfold fit
  cases checkSensitivity sensitivity with
  | error => simp [bind, Except.bind]
  | ok =>
    cases xs.check with
    | error => simp [bind, Except.bind]
    | ok =>
      simp only [bind, Except.bind, true_and]
      split
      next j hj =>
        obtain ⟨hlt, hnot, -⟩ := List.findIdx?_eq_some_iff_getElem.1 hj
        simp only [reduceCtorEq, false_iff, not_and]
        intro hall
        simp_all
      next hnone =>
        have hall : ∀ s ∈ xs.summaries c.reference, (c.feature sensitivity s).isFinite := by
          simpa [List.findIdx?_eq_none_iff] using hnone
        exact ⟨fun h => ⟨hall, (Except.ok.inj h).symm⟩, fun h => congrArg _ h.2.symm⟩

def width (b : Band) : Nat := b.features.length

def worse (score ratio : Binary64) : Binary64 := if ratio.isNaN then infinity else score.maxNum ratio

def score (b : Band) (x : List Binary64) : Binary64 :=
  if x.length = b.width then (b.features.zipWith Feature.ratio x).foldl worse zero else infinity

def contains (b : Band) (x : List Binary64) : Bool := b.score x ≤ one

def scores (b : Band) (xs : Samples) : List Binary64 := xs.rows.map b.score

def same (a b : Band) : Bool :=
  a.width == b.width && (a.features.zipWith Feature.same b.features).all id &&
    a.sensitivity.same b.sensitivity && a.sampleCount == b.sampleCount

end Band

end OutlierBand
