import OutlierBand.Proofs.SessionHistory

/-!
Identifiers do not see each other. What the steps about one identifier give depends on these steps alone, and so does
the band it is left with: the steps about the others can be left out, or be done in another order.
-/

namespace OutlierBand

variable {κ : Type}

def Step.subject? : Step κ → Option κ
  | .fit id .. => some id
  | .predict id _ => some id
  | .band id => some id
  | .query id _ => some id
  | .isFitted id => some id
  | _ => none

namespace Session

variable [DecidableEq κ]

def stepsOf (id : κ) (steps : List (Step κ)) : List (Step κ) := steps.filter (·.subject? = some id)

structure AgreeOn (id : κ) (s t : Session κ) : Prop where
  config : s.classifier.config = t.classifier.config
  band : s.classifier.band? id = t.classifier.band? id

theorem AgreeOn.refl (id : κ) (s : Session κ) : AgreeOn id s s := ⟨rfl, rfl⟩

variable [Identifier κ]

def resultsOf (s : Session κ) (id : κ) (steps : List (Step κ)) : List (Except Fault Answer) :=
  ((steps.zip (s.run steps).2).filter (·.1.subject? = some id)).map (·.2.result)

theorem AgreeOn.fit {id : κ} {s t : Session κ} (h : AgreeOn id s t) (batch : Batch) (sensitivity : Binary64) :
    (s.perform (.fit id batch sensitivity)).2 = (t.perform (.fit id batch sensitivity)).2 ∧
      AgreeOn id (s.perform (.fit id batch sensitivity)).1 (t.perform (.fit id batch sensitivity)).1 := by
  rw [perform_fit, perform_fit]
  cases batch.samples with
  | error fault => exact ⟨rfl, h⟩
  | ok xs =>
    simp only [Except.bind, Classifier.fit, h.config]
    cases Band.fit xs sensitivity t.classifier.config with
    | error fault => exact ⟨rfl, h⟩
    | ok band =>
      refine ⟨rfl, rfl, ?_⟩
      exact (Registry.find?_insert_self ..).trans (Registry.find?_insert_self ..).symm

theorem AgreeOn.predict {id : κ} {s t : Session κ} (h : AgreeOn id s t) (batch : Batch) :
    (s.perform (.predict id batch)).2 = (t.perform (.predict id batch)).2 := by
  cases batch <;> simp only [perform, Classifier.predictRows, Classifier.predict, h.band]

theorem AgreeOn.perform {id : κ} {s t : Session κ} (h : AgreeOn id s t) {a : Step κ} (ha : a.subject? = some id) :
    (s.perform a).2 = (t.perform a).2 ∧ AgreeOn id (s.perform a).1 (t.perform a).1 := by
  cases a with
  | fit k batch sensitivity =>
    obtain rfl : k = id := Option.some.inj ha
    exact h.fit batch sensitivity
  | predict k batch =>
    obtain rfl : k = id := Option.some.inj ha
    refine ⟨h.predict batch, ?_⟩
    cases batch <;> exact h
  | band k =>
    obtain rfl : k = id := Option.some.inj ha
    exact ⟨congrArg (Except.ok ∘ Answer.band) h.band, h⟩
  | query k rows =>
    obtain rfl : k = id := Option.some.inj ha
    simp only [Session.perform, h.band, true_and]
    exact h
  | isFitted k =>
    obtain rfl : k = id := Option.some.inj ha
    exact ⟨congrArg (Except.ok ∘ Answer.truth ∘ Option.isSome) h.band, h⟩
  | sameBand => cases ha
  | isEmpty => cases ha
  | config => cases ha
  | save => cases ha
  | restore => cases ha

theorem AgreeOn.perform_other {id : κ} {s t : Session κ} (h : AgreeOn id s t) {a : Step κ} (ha : a.subject? ≠ some id)
    (hrestore : ∀ name, a ≠ .restore name) : AgreeOn id (s.perform a).1 t := by
  cases a with
  | fit k batch sensitivity =>
    have hk : id ≠ k := fun hk => ha (congrArg some hk.symm)
    rw [perform_fit]
    cases batch.samples with
    | error fault => exact h
    | ok xs =>
      simp only [Except.bind, Classifier.fit]
      cases Band.fit xs sensitivity s.classifier.config with
      | error fault => exact h
      | ok band => exact ⟨h.config, (Registry.find?_insert_of_ne _ hk _).trans h.band⟩
  | predict k batch => cases batch <;> exact h
  | save name => exact ⟨h.config, h.band⟩
  | restore name => exact absurd rfl (hrestore name)
  | _ => exact h

theorem AgreeOn.run {id : κ} {s t : Session κ} (h : AgreeOn id s t) {steps : List (Step κ)}
    (hrestore : ∀ name, .restore name ∉ steps) :
    s.resultsOf id steps = (t.run (stepsOf id steps)).2.map Outcome.result ∧
      AgreeOn id (s.run steps).1 (t.run (stepsOf id steps)).1 := by
  induction steps generalizing s t with
  | nil => exact ⟨rfl, h⟩
  | cons a steps ih =>
    have hlater : ∀ name, .restore name ∉ steps := fun name hmem => hrestore name (List.mem_cons_of_mem a hmem)
    by_cases ha : a.subject? = some id
    · obtain ⟨hresult, hnext⟩ := h.perform ha
      obtain ⟨hresults, hlast⟩ := ih hnext hlater
      have hsteps : stepsOf id (a :: steps) = a :: stepsOf id steps := List.filter_cons_of_pos (decide_eq_true ha)
      rw [hsteps]
      refine ⟨?_, hlast⟩
      have hhead : s.resultsOf id (a :: steps) = (s.perform a).2 :: (s.perform a).1.resultsOf id steps := by
        simp [resultsOf, Session.run, step, ha]
      rw [hhead, hresults, hresult]
      rfl
    · have hnext := h.perform_other ha fun name ha => hrestore name (ha ▸ List.mem_cons_self)
      have hsteps : stepsOf id (a :: steps) = stepsOf id steps :=
        List.filter_cons_of_neg (mt of_decide_eq_true ha)
      have hhead : s.resultsOf id (a :: steps) = (s.perform a).1.resultsOf id steps := by
        simp [resultsOf, Session.run, step, ha]
      rw [hsteps, hhead]
      exact ih hnext hlater

/-- Whatever the others do between them, the steps about an identifier give what they give alone, refusals included, and
leave it with the same band. So two runs that keep the order of the steps about each identifier are the same to all. A
step that restores a copy is about every identifier and is left out. -/
theorem identifiers_isolated (s : Session κ) {steps : List (Step κ)} (hrestore : ∀ name, .restore name ∉ steps) :
    (∀ id, s.resultsOf id steps = (s.run (stepsOf id steps)).2.map Outcome.result ∧
        (s.run steps).1.classifier.band? id = (s.run (stepsOf id steps)).1.classifier.band? id) ∧
      ∀ others : List (Step κ), (∀ name, .restore name ∉ others) → (∀ id, stepsOf id steps = stepsOf id others) →
        ∀ id, s.resultsOf id steps = s.resultsOf id others ∧
          (s.run steps).1.classifier.band? id = (s.run others).1.classifier.band? id := by
  constructor
  · intro id
    obtain ⟨hresults, hlast⟩ := (AgreeOn.refl id s).run hrestore
    exact ⟨hresults, hlast.band⟩
  · intro others hothers hsame id
    obtain ⟨hresults, hlast⟩ := (AgreeOn.refl id s).run hrestore
    obtain ⟨hresults', hlast'⟩ := (AgreeOn.refl id s).run hothers
    rw [hsame id] at hresults hlast
    exact ⟨hresults.trans hresults'.symm, hlast.band.trans hlast'.band.symm⟩

def sharedSteps : List (Step Key) :=
  [.predict (.number 1) (.rows [[.one]]), .fit (.name "1") (.rows [[.one], []]) (.one / .two),
    .fit (.number 1) (.rows [[.one]]) (.one / .two), .fit (.name "1") (.rows [[.two, .two]]) (.one / .two),
    .predict (.number 1) (.rows [[.two]]), .fit (.name "1") (.rows [[.two]]) (.one / .two), .band (.number 1)]

def sortedSteps : List (Step Key) := stepsOf (.name "1") sharedSteps ++ stepsOf (.number 1) sharedSteps

theorem identifiers_isolated_number_name :
    let s := start (Classifier.new : Classifier Key)
    (∀ name, .restore name ∉ sharedSteps) ∧
      s.resultsOf (.number 1) sharedSteps = (s.run (stepsOf (.number 1) sharedSteps)).2.map Outcome.result ∧
      s.resultsOf (.number 1) sharedSteps = s.resultsOf (.number 1) sortedSteps := by
  intro s
  have hshared : ∀ name, .restore name ∉ sharedSteps := by simp [sharedSteps]
  have hsorted : ∀ name, .restore name ∉ sortedSteps := by simp [sortedSteps, stepsOf, sharedSteps]
  have hsame : ∀ id, stepsOf id sharedSteps = stepsOf id sortedSteps := by
    intro id
    rcases eq_or_ne id (.number 1) with rfl | hnumber
    · rfl
    · rcases eq_or_ne id (.name "1") with rfl | hname
      · rfl
      · simp [stepsOf, sortedSteps, sharedSteps, Step.subject?, hnumber.symm, hname.symm]
  obtain ⟨halone, hreordered⟩ := identifiers_isolated s hshared
  exact ⟨hshared, (halone (.number 1)).1, (hreordered sortedSteps hsorted hsame (.number 1)).1⟩

end Session

end OutlierBand
