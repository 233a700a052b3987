import OutlierBand.Proofs.ColumnBounds

namespace OutlierBand

open Binary64

namespace Config

variable {c : Config} {s : Binary64}

theorem within_deviationScale (hc : c.validate = .ok ()) {bound : ℚ} (h : c.deviationScale.value ≤ bound) :
    Within bound c.deviationScale := by
  obtain ⟨⟨hfinite, -⟩, -⟩ := validate_eq_ok_iff.1 hc
  exact within_of_value_le hfinite (zero_le_deviationScale hc) h

theorem within_minTolerance (hc : c.validate = .ok ()) {bound : ℚ} (h : c.minTolerance.value ≤ bound) :
    Within bound c.minTolerance := by
  obtain ⟨-, hfinite, -⟩ := validate_eq_ok_iff.1 hc
  exact within_of_value_le hfinite (le_of_lt (zero_lt_minTolerance hc)) h

theorem isFinite_feature_of_bounded {e k : ℕ} (he : k + e ≤ 1020) (hscale : Within (2 ^ k) c.deviationScale)
    (hleast : Within (2 ^ e) c.minTolerance) (hs : Within 1 s) {column : Summary} (h : column.Bounded e) :
    (c.feature s column).isFinite = true := by
  have hproduct : Within (2 ^ (k + e + 2)) (c.deviationScale * column.dispersion) :=
    hscale.mul h.dispersion (exact_two_pow (by omega)) (by rw [← pow_add, Nat.add_assoc])
  have hlarger : Within (2 ^ e) (column.centre.abs.maxNum c.minTolerance) := h.centre.abs.maxNum hleast
  have hroom : (2 ^ (k + e + 2) + 2 ^ e : ℚ) ≤ 2 ^ (k + e + 3) := by
    rw [pow_succ _ (k + e + 2), mul_two]
    gcongr
    · exact one_le_two
    · omega
  have hscaled : Within (2 ^ (k + e + 3)) (c.scaledDeviation column) :=
    hproduct.add hlarger (exact_two_pow (by omega)) hroom
  have htolerance : Within (2 ^ (k + e + 3)) (c.feature s column).tolerance :=
    hs.mul hscaled (exact_two_pow (by omega)) (one_mul _).le
  exact Bool.and_eq_true _ _ ▸ ⟨h.centre.isFinite, htolerance.isFinite⟩

end Config

theorem Samples.bounded_summaries {e : ℕ} (he : e ≤ 500) {xs : Samples} (h0 : xs.height ≠ 0)
    (hheight : xs.height ≤ 2 ^ 20) (hentries : ∀ x ∈ xs.entries, Within (2 ^ e) x) (statistic : Statistic) :
    ∀ column ∈ xs.summaries statistic, column.Bounded e := by
  intro column hcolumn
  obtain ⟨values, hvalues, rfl⟩ := List.mem_map.1 hcolumn
  apply statistic.bounded_summary he xs.layout xs.width
  · exact fun x hx => hentries x (mem_entries_of_mem_columns hvalues hx)
  · exact ne_nil_of_mem_columns h0 hvalues
  · rwa [length_of_mem_columns hvalues]

namespace Band

variable {c : Config} {s : Binary64} {xs : Samples}

theorem fit_of_moderate (hc : c.validate = .ok ()) (hscale : c.deviationScale.value ≤ 2 ^ 100)
    (hleast : c.minTolerance.value ≤ 2 ^ 500) (hs : checkSensitivity s = .ok ()) (h0 : 1 ≤ xs.height)
    (hheight : xs.height ≤ 2 ^ 20) (hwidth : 1 ≤ xs.width)
    (hentries : ∀ x ∈ xs.entries, x.isFinite = true ∧ |x.value| ≤ 2 ^ 500) : ∃ b, fit xs s c = .ok b := by
  have hcheck : xs.check = .ok () :=
    Samples.check_eq_ok_iff.2 ⟨⟨by omega, by omega⟩, fun x hx => (hentries x hx).1⟩
  have hwithin : ∀ x ∈ xs.entries, Within (2 ^ 500) x := fun x hx => ⟨(hentries x hx).1, (hentries x hx).2⟩
  refine ⟨_, fit_eq_ok_iff.2 ⟨hs, hcheck, fun column hcolumn => ?_, rfl⟩⟩
  apply Config.isFinite_feature_of_bounded (by decide) (Config.within_deviationScale hc hscale)
    (Config.within_minTolerance hc hleast) (within_sensitivity hs)
  exact Samples.bounded_summaries (by decide) (by omega) hheight hwithin c.reference column hcolumn

theorem fit_of_moderate_opposite :
    let huge := Decimal.toBinary64 ⟨false, 1, 150⟩
    let c : Config := ⟨Decimal.toBinary64 ⟨false, 1, 30⟩, huge, .mean⟩
    let xs : Samples := ⟨2, 1, [huge, neg huge], .columnMajor, rfl⟩
    c.validate = .ok () ∧ c.deviationScale.value ≤ 2 ^ 100 ∧ c.minTolerance.value ≤ 2 ^ 500 ∧
      checkSensitivity (one / two) = .ok () ∧ (∀ x ∈ xs.entries, x.isFinite = true ∧ |x.value| ≤ 2 ^ 500) ∧
      ∃ b, fit xs (one / two) c = .ok b := by
  intro huge c xs
  have hc : c.validate = .ok () := by decide +kernel
  have hscale : c.deviationScale.value ≤ 2 ^ 100 := by decide +kernel
  have hleast : c.minTolerance.value ≤ 2 ^ 500 := by decide +kernel
  have hs : checkSensitivity (one / two) = .ok () := by decide +kernel
  have hentries : ∀ x ∈ xs.entries, x.isFinite = true ∧ |x.value| ≤ 2 ^ 500 := by decide +kernel
  exact ⟨hc, hscale, hleast, hs, hentries,
    fit_of_moderate hc hscale hleast hs (by decide) (by decide) (by decide) hentries⟩

end Band

end OutlierBand
