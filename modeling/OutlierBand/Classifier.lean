import OutlierBand.Identifier
import OutlierBand.Prediction
import OutlierBand.Registry

namespace OutlierBand

structure Fitting where
  samples : Samples
  confidence : Binary64
deriving DecidableEq

structure Classifier (κ : Type) where
  config : Config
  bands : Registry κ Band

namespace Classifier

variable {κ : Type} [DecidableEq κ] [Identifier κ]

def new : Classifier κ := ⟨.default, .empty⟩

def withConfig (config : Config) : Except Fault (Classifier κ) := do
  config.validate
  .ok ⟨config, .empty⟩

def band? (c : Classifier κ) (id : κ) : Option Band := c.bands.find? id

def isFitted (c : Classifier κ) (id : κ) : Bool := c.bands.contains id

def size (c : Classifier κ) : Nat := c.bands.size

def isEmpty (c : Classifier κ) : Bool := c.bands.isEmpty

def fit (c : Classifier κ) (id : κ) (xs : Samples) (sensitivity : Binary64) :
    Except Fault (Classifier κ × Fitting) := do
  let band ← Band.fit xs sensitivity c.config
  .ok (⟨c.config, c.bands.insert id band⟩, ⟨xs, (band.predict xs).confidence⟩)

def fitRows (c : Classifier κ) (id : κ) (rows : List (List Binary64)) (sensitivity : Binary64) :
    Except Fault (Classifier κ × Fitting) := do
  c.fit id (← Samples.ofRows rows) sensitivity

/-- An unknown identifier is refused before the samples are looked at, and bad samples before their width. -/
def predict (c : Classifier κ) (id : κ) (xs : Samples) : Except Fault Prediction :=
  match c.band? id with
  | none => .error (.unknownModel (Identifier.text id))
  | some band => do
    xs.check
    if xs.width = band.width then .ok (band.predict xs) else .error (.wrongWidth band.width xs.width)

def predictRows (c : Classifier κ) (id : κ) (rows : List (List Binary64)) : Except Fault Prediction := do
  c.predict id (← Samples.ofRows rows)

def sameBand (c : Classifier κ) (id other : κ) : Bool :=
  match c.band? id, c.band? other with
  | some a, some b => a.same b
  | none, none => true
  | _, _ => false

end Classifier

section

variable {κ : Type}

theorem Classifier.withConfig_eq_ok_iff {config : Config} {c : Classifier κ} :
    withConfig config = .ok c ↔ config.validate = .ok () ∧ c = ⟨config, .empty⟩ := by
  unfold withConfig
  cases config.validate <;> simp [bind, Except.bind, eq_comm]

theorem Classifier.fit_eq_ok_iff [DecidableEq κ] {c c' : Classifier κ} {id : κ} {xs : Samples}
    {sensitivity : Binary64} {fitting : Fitting} :
    c.fit id xs sensitivity = .ok (c', fitting) ↔ ∃ band, Band.fit xs sensitivity c.config = .ok band ∧
      c' = ⟨c.config, c.bands.insert id band⟩ ∧ fitting = ⟨xs, (band.predict xs).confidence⟩ := by
  unfold fit
  cases Band.fit xs sensitivity c.config <;> simp [bind, Except.bind, eq_comm]

theorem Classifier.predict_of_band [DecidableEq κ] [Identifier κ] {c : Classifier κ} {id : κ} {xs : Samples} {b : Band}
    (hb : c.band? id = some b) : c.predict id xs = (do
      xs.check
      if xs.width = b.width then .ok (b.predict xs) else .error (.wrongWidth b.width xs.width)) := by
  rw [predict, hb]

theorem Classifier.predict_eq_ok_iff [DecidableEq κ] [Identifier κ] {c : Classifier κ} {id : κ} {xs : Samples}
    {p : Prediction} : c.predict id xs = .ok p ↔
      ∃ b, c.band? id = some b ∧ xs.check = .ok () ∧ xs.width = b.width ∧ p = b.predict xs := by
  cases hb : c.band? id with
  | none => simp [predict, hb]
  | some b =>
    rw [predict_of_band hb]
    cases xs.check with
    | error fault => simp [bind, Except.bind]
    | ok =>
      simp only [bind, Except.bind, Option.some.injEq, exists_eq_left', true_and]
      split <;> simp_all [eq_comm]

end

end OutlierBand
