import OutlierBand.Statistics.Summary

namespace OutlierBand

structure Config where
  deviationScale : Binary64
  minTolerance : Binary64
  reference : Statistic
deriving DecidableEq

namespace Config

def default : Config := ⟨.ofNat 10, .one, .mean⟩

instance : Inhabited Config := ⟨default⟩

def validate (c : Config) : Except Fault Unit :=
  if !c.deviationScale.isFinite ∨ c.deviationScale < .zero then .error (.deviationScale c.deviationScale)
  else if !c.minTolerance.isFinite ∨ c.minTolerance ≤ .zero then .error (.minTolerance c.minTolerance)
  else .ok ()

theorem validate_eq_ok_iff {c : Config} :
    c.validate = .ok () ↔ (c.deviationScale.isFinite ∧ ¬c.deviationScale < .zero) ∧
      c.minTolerance.isFinite ∧ ¬c.minTolerance ≤ .zero := by
  unfold validate
  grind

end Config

def checkSensitivity (s : Binary64) : Except Fault Unit :=
  if .zero < s ∧ s < .one then .ok () else .error (.sensitivity s)

theorem checkSensitivity_eq_ok_iff {s : Binary64} : checkSensitivity s = .ok () ↔ .zero < s ∧ s < .one := by
  unfold checkSensitivity
  split <;> simp_all

end OutlierBand
