import OutlierBand.Classifier

namespace OutlierBand

inductive Batch where
  | rows (rows : List (List Binary64))
  | matrix (samples : Samples)
deriving DecidableEq

inductive Step (κ : Type) where
  | fit (id : κ) (batch : Batch) (sensitivity : Binary64)
  | predict (id : κ) (batch : Batch)
  | band (id : κ)
  | query (id : κ) (rows : List (List Binary64))
  | sameBand (id other : κ)
  | isFitted (id : κ)
  | isEmpty
  | config
  | save (name : String)
  | restore (name : String)

structure Verdict where
  score : Binary64
  contained : Bool
deriving DecidableEq

def Band.verdict (b : Band) (x : List Binary64) : Verdict := ⟨b.score x, b.contains x⟩

inductive Answer where
  | fitted (fitting : Fitting)
  | predicted (prediction : Prediction)
  | band (band : Option Band)
  | verdicts (verdicts : Option (List Verdict))
  | truth (value : Bool)
  | config (config : Config)
  | done
deriving DecidableEq

structure Outcome where
  result : Except Fault Answer
  size : Nat

structure Session (κ : Type) where
  classifier : Classifier κ
  saved : Registry String (Classifier κ)

namespace Session

variable {κ : Type} [DecidableEq κ] [Identifier κ]

def start (c : Classifier κ) : Session κ := ⟨c, .empty⟩

def afterFit (s : Session κ) : Except Fault (Classifier κ × Fitting) → Session κ × Except Fault Answer
  | .ok (c, fitting) => (⟨c, s.saved⟩, .ok (.fitted fitting))
  | .error fault => (s, .error fault)

def perform (s : Session κ) : Step κ → Session κ × Except Fault Answer
  | .fit id (.rows rows) sensitivity => s.afterFit (s.classifier.fitRows id rows sensitivity)
  | .fit id (.matrix xs) sensitivity => s.afterFit (s.classifier.fit id xs sensitivity)
  | .predict id (.rows rows) => (s, .predicted <$> s.classifier.predictRows id rows)
  | .predict id (.matrix xs) => (s, .predicted <$> s.classifier.predict id xs)
  | .band id => (s, .ok (.band (s.classifier.band? id)))
  | .query id rows => (s, .ok (.verdicts ((s.classifier.band? id).map fun b => rows.map b.verdict)))
  | .sameBand id other => (s, .ok (.truth (s.classifier.sameBand id other)))
  | .isFitted id => (s, .ok (.truth (s.classifier.isFitted id)))
  | .isEmpty => (s, .ok (.truth s.classifier.isEmpty))
  | .config => (s, .ok (.config s.classifier.config))
  | .save name => (⟨s.classifier, s.saved.insert name s.classifier⟩, .ok .done)
  | .restore name => (⟨(s.saved.find? name).getD s.classifier, s.saved⟩, .ok .done)

def step (s : Session κ) (a : Step κ) : Session κ × Outcome :=
  let (t, result) := s.perform a
  (t, ⟨result, t.classifier.size⟩)

def run (s : Session κ) : List (Step κ) → Session κ × List Outcome
  | [] => (s, [])
  | a :: as =>
    let (t, outcome) := s.step a
    let (last, outcomes) := t.run as
    (last, outcome :: outcomes)

end Session

end OutlierBand
