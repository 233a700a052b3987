import OutlierBand.Proofs.FittedBand
import OutlierBand.Proofs.InlierShare
import OutlierBand.Proofs.Isolation
import OutlierBand.Proofs.PredictOutcome

namespace OutlierBand

open Binary64

structure Fitting.Repeats (f : Fitting) (p : Prediction) : Prop where
  confidence_eq : p.confidence = f.confidence
  length_labels : p.labels.length = f.samples.height
  share : f.confidence = ofNat (p.labels.count .inlier) / ofNat f.samples.height

theorem Band.repeats_predict {xs : Samples} (b : Band) (h : xs.height ≠ 0) :
    Fitting.Repeats ⟨xs, (b.predict xs).confidence⟩ (b.predict xs) := by
  refine ⟨rfl, ?_, ?_⟩
  · rw [labels_predict, List.length_map, xs.length_rows]
  · rw [count_inlier_predict, confidence_predict b h]

namespace Classifier

variable {κ : Type} [DecidableEq κ] [Identifier κ] {c : Classifier κ} {id : κ} {xs ys : Samples} {b : Band}

theorem predict_of_fit {config : Config} {s : Binary64} (hfit : Band.fit xs s config = .ok b)
    (hb : c.band? id = some b) (hrows : ys.rows = xs.rows) : c.predict id ys = .ok (b.predict xs) := by
  obtain ⟨-, hcheck, -⟩ := Band.fit_eq_ok_iff.1 hfit
  have hwidth := Samples.width_eq_of_rows_eq hrows.symm (Band.height_ne_zero_of_fit hfit)
  rw [predict_of_rows_eq hrows hwidth.symm]
  exact predict_eq_ok_iff.2 ⟨b, hb, hcheck, (Band.width_of_fit hfit).symm, rfl⟩

theorem predictRows_of_fit {config : Config} {s : Binary64} (hfit : Band.fit xs s config = .ok b)
    (hb : c.band? id = some b) : c.predictRows id xs.rows = .ok (b.predict xs) := by
  have hheight := Nat.pos_of_ne_zero (Band.height_ne_zero_of_fit hfit)
  have hne : xs.rows ≠ [] := List.ne_nil_of_length_pos (xs.length_rows ▸ hheight)
  have hrows := Samples.ofRows_of_length hne fun row => Samples.length_of_mem_rows
  rw [predictRows_of_ofRows hrows]
  exact predict_of_fit hfit hb (Samples.rows_ofRows hrows)

end Classifier

namespace Session

variable {κ : Type} [DecidableEq κ] [Identifier κ]

theorem band?_step {s : Session κ} {id : κ} {a : Step κ} (hrestore : ∀ name, a ≠ .restore name)
    (hfit : (fitted? (a, (s.step a).2)).map Prod.fst ≠ some id) :
    (s.step a).1.classifier.band? id = s.classifier.band? id := by
  cases a with
  | fit k batch sensitivity =>
    cases hresult : (s.step (.fit k batch sensitivity)).2.result with
    | error fault => rw [step_of_error hresult]
    | ok answer =>
      -- The fit succeeded, so by `hfit` it is of another identifier.
      have hk : k ≠ id := by
        rintro rfl
        apply hfit
        generalize (s.step (.fit k batch sensitivity)).2 = outcome at hresult
        cases outcome
        subst hresult
        rfl
      have hsubject : Step.subject? (.fit k batch sensitivity) ≠ some id := fun h => hk (Option.some.inj h)
      exact ((AgreeOn.refl id s).perform_other hsubject hrestore).band
  | predict k batch => rw [step_predict_fst]
  | restore name => exact absurd rfl (hrestore name)
  | _ => rfl

theorem band?_run {s : Session κ} {id : κ} {steps : List (Step κ)} (hrestore : ∀ name, .restore name ∉ steps)
    (hfits : ∀ event ∈ s.events steps, (fitted? event).map Prod.fst ≠ some id) :
    (s.run steps).1.classifier.band? id = s.classifier.band? id := by
  induction steps generalizing s with
  | nil => rfl
  | cons a steps ih =>
    simp only [events_cons, List.mem_append, List.mem_singleton] at hfits
    have hstep := band?_step (fun name ha => hrestore name (ha ▸ List.mem_cons_self)) (hfits _ (.inr rfl))
    have hlater := ih (fun name h => hrestore name (List.mem_cons_of_mem a h)) fun event h => hfits event (.inl h)
    exact hlater.trans hstep

theorem exists_band_of_step_fit {s : Session κ} {id : κ} {batch : Batch} {xs : Samples} {sensitivity : Binary64}
    {fitting : Fitting} (hx : batch.samples = .ok xs)
    (hfit : (s.step (.fit id batch sensitivity)).2.result = .ok (.fitted fitting)) :
    ∃ b, Band.fit xs sensitivity s.classifier.config = .ok b ∧
      (s.step (.fit id batch sensitivity)).1.classifier.band? id = some b ∧
      fitting = ⟨xs, (b.predict xs).confidence⟩ := by
  simp only [step, perform_fit, hx, Except.bind] at hfit ⊢
  cases hc : s.classifier.fit id xs sensitivity with
  | error fault => rw [hc] at hfit; cases hfit
  | ok fitted =>
    obtain ⟨c, f⟩ := fitted
    rw [hc] at hfit
    cases hfit
    obtain ⟨b, hb, rfl, rfl⟩ := Classifier.fit_eq_ok_iff.1 hc
    exact ⟨b, hb, Registry.find?_insert_self .., rfl⟩

/-- After a fit that is not refused, and any steps that neither fit the identifier again nor restore a copy, the samples
that the fit returns are predicted with the confidence that it returns, in whatever layout they are given. -/
theorem predict_after_fit {s : Session κ} {id : κ} {batch : Batch} {xs : Samples} {sensitivity : Binary64}
    {fitting : Fitting} (hx : batch.samples = .ok xs)
    (hfit : (s.step (.fit id batch sensitivity)).2.result = .ok (.fitted fitting)) {steps : List (Step κ)}
    (hrestore : ∀ name, .restore name ∉ steps)
    (hfits : ∀ event ∈ (s.step (.fit id batch sensitivity)).1.events steps, (fitted? event).map Prod.fst ≠ some id) :
    let c := ((s.step (.fit id batch sensitivity)).1.run steps).1.classifier
    fitting.samples.rows = xs.rows ∧
      (∀ ys : Samples, ys.rows = xs.rows → ∃ p, c.predict id ys = .ok p ∧ fitting.Repeats p) ∧
      ∃ p, c.predictRows id xs.rows = .ok p ∧ fitting.Repeats p := by
  intro c
  obtain ⟨b, hb, hband, rfl⟩ := exists_band_of_step_fit hx hfit
  have hlast : c.band? id = some b := (band?_run hrestore hfits).trans hband
  have hrepeats := b.repeats_predict (Band.height_ne_zero_of_fit hb)
  refine ⟨rfl, fun ys hys => ?_, ?_⟩
  · exact ⟨_, Classifier.predict_of_fit hb hlast hys, hrepeats⟩
  · exact ⟨_, Classifier.predictRows_of_fit hb hlast, hrepeats⟩

def reversedSamples : Samples := ⟨2, 1, [one, two], .columnMajorReversed, rfl⟩

def interveningSteps : List (Step Int) :=
  [.save "a", .fit 2 (.rows [[two]]) (one / two), .fit 1 (.rows [[one], []]) (one / two), .predict 1 (.rows [[one]])]

theorem predict_after_fit_reversed :
    let t := (start (Classifier.new : Classifier Int)).step (.fit 1 (.matrix reversedSamples) (one / two))
    t.2.result = .ok (.fitted ⟨reversedSamples, one⟩) ∧ (∀ name, .restore name ∉ interveningSteps) ∧
      (∀ event ∈ t.1.events interveningSteps, (fitted? event).map Prod.fst ≠ some 1) ∧
      ∃ p, (t.1.run interveningSteps).1.classifier.predictRows 1 [[one], [two]] = .ok p ∧ p.confidence = one := by
  intro t
  have hfit : t.2.result = .ok (.fitted ⟨reversedSamples, one⟩) := by decide +kernel
  have hrestore : ∀ name, .restore name ∉ interveningSteps := by simp [interveningSteps]
  have hfits : ∀ event ∈ t.1.events interveningSteps, (fitted? event).map Prod.fst ≠ some 1 := by decide +kernel
  obtain ⟨-, -, p, hp, hrepeats⟩ := predict_after_fit rfl hfit hrestore hfits
  exact ⟨hfit, hrestore, hfits, p, hp, hrepeats.confidence_eq⟩

end Session

end OutlierBand
