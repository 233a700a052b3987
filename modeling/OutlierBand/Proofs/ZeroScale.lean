import OutlierBand.Proofs.FitOutcome

namespace OutlierBand

open Binary64

namespace Config

variable {c : Config} {column : Summary}

theorem isFinite_dispersion_of_fits (h : c.fits column = true) : column.dispersion.isFinite = true := by
  obtain ⟨-, hk⟩ := Bool.and_eq_true _ _ ▸ h
  exact (isFinite_of_mul (isFinite_of_add hk).1).2

theorem scaledDeviation_of_zero_scale (hc : c.validate = .ok ()) (hscale : c.deviationScale.same zero = true)
    (hcentre : column.centre.isFinite = true) (hdispersion : column.dispersion.isFinite = true) :
    c.scaledDeviation column = c.leastDeviation column.centre := by
  obtain ⟨z, hz⟩ := same_zero_iff.1 hscale
  obtain ⟨y, hy⟩ := zero_mul_eq z hdispersion
  change c.deviationScale * column.dispersion + c.leastDeviation column.centre = _
  rw [hz, hy, zero_add_leastDeviation hc hcentre]

theorem fits_of_zero_scale (hc : c.validate = .ok ()) (hscale : c.deviationScale.same zero = true)
    (hcentre : column.centre.isFinite = true) : c.fits column = column.dispersion.isFinite := by
  rw [Bool.eq_iff_iff]
  constructor
  · exact isFinite_dispersion_of_fits
  · intro hdispersion
    rw [fits, scaledDeviation_of_zero_scale hc hscale hcentre hdispersion, hcentre]
    exact isFinite_leastDeviation hc hcentre

end Config

namespace Band

variable {c : Config} {s : Binary64} {xs : Samples}

/-- At scale zero, samples whose centres are finite are fitted exactly when each dispersion is finite too, and then each
tolerance is the sensitivity times the size of the centre, or times the least tolerance where that is more. Else the
first column of which the dispersion is not finite is reported. -/
theorem fit_of_zero_scale (hc : c.validate = .ok ()) (hscale : c.deviationScale.same zero = true)
    (hs : checkSensitivity s = .ok ()) (hxs : xs.check = .ok ())
    (hcentres : ∀ column ∈ xs.summaries c.reference, column.centre.isFinite = true) :
    ((∃ b, fit xs s c = .ok b) ↔ ∀ column ∈ xs.summaries c.reference, column.dispersion.isFinite = true) ∧
      (∀ b, fit xs s c = .ok b → b.features = (xs.summaries c.reference).map fun column =>
        ⟨column.centre, s * column.centre.abs.maxNum c.minTolerance⟩) ∧
      ∀ j column, First (·.dispersion.isFinite = false) (xs.summaries c.reference) j column →
        told (fit xs s c) = some (.invalidInput s!"samples overflow the band statistics at column {j}") := by
  have hfits : ∀ column ∈ xs.summaries c.reference, c.fits column = column.dispersion.isFinite := by
    intro column hcolumn
    exact Config.fits_of_zero_scale hc hscale (hcentres column hcolumn)
  refine ⟨?_, ?_, ?_⟩
  · simp only [fit_eq_ok_iff, Config.isFinite_feature hs, hs, hxs, exists_and_left, exists_eq, true_and, and_true]
    apply forall₂_congr
    intro column hcolumn
    rw [hfits column hcolumn]
  · intro b hb
    obtain ⟨-, -, hfinite, rfl⟩ := fit_eq_ok_iff.1 hb
    apply List.map_congr_left
    intro column hcolumn
    have hdispersion : column.dispersion.isFinite = true := by
      rw [← hfits column hcolumn, ← Config.isFinite_feature hs]
      exact hfinite column hcolumn
    have hscaled := Config.scaledDeviation_of_zero_scale hc hscale (hcentres column hcolumn) hdispersion
    exact congrArg (Feature.mk column.centre <| s * ·) hscaled
  · intro j column hfirst
    have hmem := List.mem_of_getElem? hfirst.getElem?
    rw [told_fit]
    refine .overflow (checkSensitivity_eq_ok_iff.1 hs) (Samples.check_eq_ok_iff_defect.1 hxs) ⟨hfirst.getElem?, ?_, ?_⟩
    · exact (hfits column hmem).trans hfirst.holds
    · intro k hk earlier hearlier
      rw [hfits earlier (List.mem_of_getElem? hearlier)]
      exact hfirst.before k hk earlier hearlier

theorem fit_of_zero_scale_wide :
    let c : Config := ⟨-zero, one, .median⟩
    let wide := Decimal.toBinary64 ⟨false, 1, 300⟩
    let xs : Samples := ⟨2, 1, [wide, -wide], .rowMajor, rfl⟩
    c.validate = .ok () ∧ c.deviationScale.same zero = true ∧ checkSensitivity (one / two) = .ok () ∧
      xs.check = .ok () ∧ (∀ column ∈ xs.summaries c.reference, column.centre.isFinite = true) ∧
      ∃ b, fit xs (one / two) c = .ok b ∧ b.features = [⟨zero, one / two⟩] := by
  intro c wide xs
  have hc : c.validate = .ok () := by decide +kernel
  have hscale : c.deviationScale.same zero = true := by decide +kernel
  have hs : checkSensitivity (one / two) = .ok () := by decide +kernel
  have hxs : xs.check = .ok () := by decide +kernel
  have hcentres : ∀ column ∈ xs.summaries c.reference, column.centre.isFinite = true := by decide +kernel
  have hdispersions : ∀ column ∈ xs.summaries c.reference, column.dispersion.isFinite = true := by decide +kernel
  obtain ⟨hok, hfeatures, -⟩ := fit_of_zero_scale hc hscale hs hxs hcentres
  obtain ⟨b, hb⟩ := hok.2 hdispersions
  refine ⟨hc, hscale, hs, hxs, hcentres, b, hb, ?_⟩
  rw [hfeatures b hb]
  decide +kernel

theorem refused_at_zero_scale :
    let c : Config := ⟨zero, one, .mean⟩
    let huge := Decimal.toBinary64 ⟨false, 1, 200⟩
    let xs : Samples := ⟨2, 1, [huge, -huge], .rowMajor, rfl⟩
    c.validate = .ok () ∧ c.deviationScale.same zero = true ∧ checkSensitivity (one / two) = .ok () ∧
      xs.check = .ok () ∧ (∀ column ∈ xs.summaries c.reference, column.centre.isFinite = true) ∧
      fit xs (one / two) c = .error (.overflow 0) ∧ ¬∃ b, fit xs (one / two) c = .ok b := by
  -- The squares of the distances from the centre overflow, and zero times an infinite dispersion is no number.
  intro c huge xs
  have hrefused : fit xs (one / two) c = .error (.overflow 0) := by decide +kernel
  refine ⟨by decide +kernel, by decide +kernel, by decide +kernel, by decide +kernel, by decide +kernel, hrefused, ?_⟩
  rintro ⟨b, hb⟩
  cases hrefused.symm.trans hb

end Band

end OutlierBand
