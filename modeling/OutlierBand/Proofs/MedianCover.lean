import OutlierBand.Classifier
import OutlierBand.Proofs.BandEdge
import OutlierBand.Proofs.MedianRank
import OutlierBand.Proofs.OpenBand
import OutlierBand.Proofs.RoundingError

namespace OutlierBand

open Binary64

namespace Statistics

theorem five_fourths_le_normalFactor : 5 / 4 ≤ normalFactor.value := by
  have hplace : normalFactor.place?.any (fun x => 5 * (unitsInOne : Int) ≤ 4 * x) = true := by decide +kernel
  obtain ⟨s, m, hm⟩ := exists_finite (x := normalFactor) (by decide +kernel)
  rw [hm, place?_finite, Option.any_some, decide_eq_true_eq] at hplace
  have hunits : (5 * unitsInOne : ℚ) ≤ 4 * signed s m.units := by exact_mod_cast hplace
  rw [hm]
  apply le_of_mul_le_mul_right _ cast_unitsInOne_pos
  rw [value_finite_mul]
  linarith

theorem length_le_two_mul_countP_distance {xs : List Binary64} {centre tolerance : Binary64}
    (hxs : ∀ x ∈ xs, x.isFinite = true) (hcentre : centre.isFinite = true)
    (hfinite : (median (xs.map fun x => (x - centre).abs)).isFinite = true)
    (h : median (xs.map fun x => (x - centre).abs) ≤ tolerance) :
    xs.length ≤ 2 * xs.countP fun x => (x - centre).abs ≤ tolerance := by
  have hrank := (halves_median (List.forall_mem_map.2 fun x hx => isNaN_abs_sub (hxs x hx) hcentre) hfinite).below
  rw [List.length_map, List.countP_map] at hrank
  refine hrank.trans (Nat.mul_le_mul_left 2 (List.countP_mono_left fun x _ hx => ?_))
  exact decide_eq_true (Binary64.le_trans (of_decide_eq_true hx) h)

end Statistics

theorem Binary64.le_mul_of_errors {s scale factor d m p : ℚ} (hs0 : 0 ≤ s) (hs1 : s ≤ 1) (hscale : 1 ≤ s * scale)
    (hscale0 : 0 ≤ scale) (hfactor : 5 / 4 ≤ factor) (hm0 : 0 ≤ m) (hd : 2 ^ 4 * halfUnit ≤ d)
    (hm : |m - factor * d| ≤ roundoff * |factor * d| + halfUnit)
    (hp : |p - scale * m| ≤ roundoff * |scale * m| + halfUnit) : d ≤ s * p := by
  -- Two errors of one rounding each eat up less than the factor gives.
  have hhalf := halfUnit_pos
  have hd0 : 0 ≤ d := (by positivity : (0 : ℚ) ≤ 2 ^ 4 * halfUnit).trans hd
  have hround : 19 / 20 ≤ 1 - roundoff := by norm_num [roundoff]
  rw [abs_of_nonneg (mul_nonneg (by linarith) hd0)] at hm
  rw [abs_of_nonneg (mul_nonneg hscale0 hm0)] at hp
  have hlowm : 19 / 20 * (5 / 4 * d) - halfUnit ≤ m := by
    have hfactor' : 5 / 4 * d ≤ factor * d := mul_le_mul_of_nonneg_right hfactor hd0
    have hscaled := mul_le_mul hround hfactor' (by positivity) (by linarith)
    linarith [(abs_le.1 hm).1]
  have hlowp : 19 / 20 * (scale * m) - halfUnit ≤ p := by
    have hscaled := mul_le_mul_of_nonneg_right hround (mul_nonneg hscale0 hm0)
    linarith [(abs_le.1 hp).1]
  have hproduct : m ≤ s * scale * m := le_mul_of_one_le_left hm0 hscale
  have hunit : s * halfUnit ≤ halfUnit := mul_le_of_le_one_left hhalf.le hs1
  calc d ≤ 19 / 20 * (19 / 20 * (5 / 4 * d) - halfUnit) - halfUnit := by linarith
    _ ≤ 19 / 20 * m - halfUnit := by linarith
    _ ≤ 19 / 20 * (s * scale * m) - s * halfUnit := by linarith
    _ = s * (19 / 20 * (scale * m) - halfUnit) := by ring
    _ ≤ s * p := mul_le_mul_of_nonneg_left hlowp hs0

structure Config.Covers (c : Config) (s : Binary64) : Prop where
  valid : c.validate = .ok ()
  reference : c.reference = .median
  sensitivity : checkSensitivity s = .ok ()
  minTolerance : 1 / 2 ^ 500 ≤ c.minTolerance.value
  value_sensitivity : 1 / 2 ^ 500 ≤ s.value
  product : 1 ≤ s.value * c.deviationScale.value

namespace Config.Covers

variable {c : Config} {s : Binary64}

theorem value_nonneg (h : c.Covers s) : 0 ≤ s.value :=
  value_nonneg_of_zero_le (le_of_lt (checkSensitivity_eq_ok_iff.1 h.sensitivity).1)

theorem value_le_one (h : c.Covers s) : s.value ≤ 1 :=
  (le_abs_self _).trans (within_sensitivity h.sensitivity).abs_value_le

theorem two_pow_mul_halfUnit_le (h : c.Covers s) {column : Summary} (hd : 0 ≤ column.dispersion.value)
    (hfinite : (c.feature s column).isFinite = true) :
    2 ^ 4 * halfUnit ≤ s.value * (c.scaledDeviation column).value := by
  have hleast := minTolerance_le_scaledDeviation h.valid hd hfinite
  rw [le_iff_value_le (validate_eq_ok_iff.1 h.valid).2.1 (isFinite_of_isFinite_feature hfinite).2.1] at hleast
  calc 2 ^ 4 * halfUnit ≤ 1 / 2 ^ (500 + 500) := Binary64.two_pow_mul_halfUnit_le (by decide)
    _ = 1 / 2 ^ 500 * (1 / 2 ^ 500) := by rw [pow_add, one_div_mul_one_div]
    _ ≤ s.value * (c.scaledDeviation column).value :=
      mul_le_mul h.value_sensitivity (h.minTolerance.trans hleast) (by positivity) h.value_nonneg

theorem le_tolerance (h : c.Covers s) {centre d : Binary64} (hd : 0 ≤ d.value)
    (hfinite : (c.feature s ⟨centre, Statistics.normalFactor * d⟩).isFinite = true) :
    d ≤ (c.feature s ⟨centre, Statistics.normalFactor * d⟩).tolerance := by
  obtain ⟨hcentre, hk, hproduct, hdispersion⟩ := isFinite_of_isFinite_feature hfinite
  have hfd := (isFinite_of_mul hdispersion).2
  have hfs := isFinite_of_checkSensitivity h.sensitivity
  have hfactor := Statistics.five_fourths_le_normalFactor
  have hm0 : 0 ≤ (Statistics.normalFactor * d).value := value_mul_nonneg (by linarith) hd
  obtain ⟨z, hz⟩ := exists_mul_eq_nearest hfs hk
  rw [tolerance_feature, hz]
  apply le_nearest_of_value_le hfd
  -- The least tolerance covers the distances that are not much above the error of a rounding.
  rcases le_total d.value (2 ^ 4 * halfUnit) with hsmall | hlarge
  · exact hsmall.trans (h.two_pow_mul_halfUnit_le hm0 hfinite)
  · have hscale0 := value_nonneg_of_zero_le (zero_le_deviationScale h.valid)
    have hle := le_mul_of_errors h.value_nonneg h.value_le_one h.product hscale0 hfactor hm0 hlarge
      (abs_value_mul_sub_le hdispersion) (abs_value_mul_sub_le hproduct)
    refine hle.trans (mul_le_mul_of_nonneg_left ?_ h.value_nonneg)
    have hfleast := (isFinite_of_add hk).2
    have hleast : 0 ≤ (c.leastDeviation centre).value := value_nonneg_of_zero_le
      (Binary64.le_trans (le_of_lt (zero_lt_minTolerance h.valid)) (minTolerance_le_leastDeviation h.valid hcentre))
    rw [← le_iff_value_le hproduct hk]
    exact le_add_of_value_le hproduct hfleast hproduct (le_add_of_nonneg_right hleast)

theorem zero_lt_tolerance (h : c.Covers s) {column : Summary} (hd : 0 ≤ column.dispersion.value)
    (hfinite : (c.feature s column).isFinite = true) : zero < (c.feature s column).tolerance := by
  rw [zero_lt_tolerance_iff hfinite]
  linarith [h.two_pow_mul_halfUnit_le hd hfinite, halfUnit_pos]

theorem half_within_tolerance (h : c.Covers s) {column : List Binary64} (hcolumn : ∀ x ∈ column, x.isFinite = true)
    {sum : List Binary64 → Binary64} {f : Feature} (hf : f = c.feature s (Statistic.median.summary sum column))
    (hfinite : f.isFinite = true) : column.length ≤ 2 * column.countP fun x => (x - f.centre).abs ≤ f.tolerance := by
  subst hf
  obtain ⟨hcentre, -, -, hdispersion⟩ := isFinite_of_isFinite_feature hfinite
  apply Statistics.length_le_two_mul_countP_distance hcolumn hcentre (isFinite_of_mul hdispersion).2
  apply h.le_tolerance _ hfinite
  apply Statistics.value_median_nonneg
  refine List.forall_mem_map.2 fun x _ => ?_
  rw [value_abs]
  exact abs_nonneg _

end Config.Covers

namespace Band

variable {c : Config} {s : Binary64} {xs : Samples} {b : Band}

theorem forall₂_half_within (h : c.Covers s) (hfit : fit xs s c = .ok b) : List.Forall₂ (fun column f =>
    xs.height ≤ 2 * column.countP fun x => (x - f.centre).abs ≤ f.tolerance) xs.columns b.features := by
  obtain ⟨-, hxs, hfinite, rfl⟩ := fit_eq_ok_iff.1 hfit
  rw [h.reference, Samples.summaries, List.forall_mem_map] at hfinite
  rw [h.reference, Samples.summaries, List.map_map, List.forall₂_map_right_iff, List.forall₂_same]
  intro column hcolumn
  rw [← Samples.length_of_mem_columns hcolumn]
  exact h.half_within_tolerance (fun x hx => Samples.isFinite_of_mem_columns hxs hcolumn hx) rfl
    (hfinite column hcolumn)

theorem contains_singleton (h : c.Covers s) (hfit : fit xs s c = .ok b) {f : Feature} (hf : b.features = [f])
    {x : Binary64} (hx : (x - f.centre).abs ≤ f.tolerance) : b.contains [x] = true := by
  have hmem : f ∈ b.features := hf ▸ List.mem_singleton_self f
  have hroom : ∀ g ∈ b.features, zero < g.tolerance := by
    rw [forall_features_of_fit hfit]
    intro column hcolumn
    obtain ⟨hfinite, hdispersion⟩ := isFinite_feature_of_fit hfit hcolumn
    exact h.zero_lt_tolerance hdispersion hfinite
  rw [contains_iff, width, hf, forall_mem_zipWith_iff]
  refine ⟨rfl, fun v hv => ?_⟩
  obtain rfl : v = (f, x) := List.mem_singleton.1 hv
  exact (Feature.excess_le_one_iff (exists_tolerance_of_fit h.valid hfit hmem).2 x).2 ⟨hroom f hmem, hx⟩

theorem half_le_countP_contains (h : c.Covers s) (hfit : fit xs s c = .ok b) (hwidth : xs.width = 1) :
    xs.height ≤ 2 * xs.rows.countP b.contains := by
  have hhalf := forall₂_half_within h hfit
  rw [Samples.columns_of_width_one hwidth] at hhalf
  obtain ⟨f, fs, hcount, hrest, hfeatures⟩ := List.forall₂_cons_left_iff.1 hhalf
  cases hrest
  rw [Samples.rows_of_width_one hwidth, List.countP_map]
  refine hcount.trans (Nat.mul_le_mul_left 2 (List.countP_mono_left fun x _ hx => ?_))
  exact contains_singleton h hfit hfeatures (of_decide_eq_true hx)

end Band

theorem Classifier.fit_covers_half {κ : Type} [DecidableEq κ] (c : Classifier κ) (id : κ) {s : Binary64} {xs : Samples}
    {b : Band} (h : c.config.Covers s) (hfit : Band.fit xs s c.config = .ok b) :
    List.Forall₂ (fun column f => xs.height ≤ 2 * column.countP fun x => (x - f.centre).abs ≤ f.tolerance)
      xs.columns b.features ∧
    (xs.width = 1 → xs.height < 2 ^ 64 →
      ∃ d fitting, c.fit id xs s = .ok (d, fitting) ∧ one / two ≤ fitting.confidence) := by
  refine ⟨Band.forall₂_half_within h hfit, fun hwidth hrows => ?_⟩
  refine ⟨_, _, fit_eq_ok_iff.2 ⟨b, hfit, rfl, rfl⟩, ?_⟩
  exact Band.half_le_confidence_predict (Band.height_ne_zero_of_fit hfit) hrows
    (Band.half_le_countP_contains h hfit hwidth)

theorem Classifier.fit_covers_half_two :
    let c : Classifier Int := ⟨⟨two, one, .median⟩, .empty⟩
    let xs : Samples := ⟨4, 1, [neg (ofNat 8), one, ofNat 8, neg one], .columnMajor, rfl⟩
    c.config.Covers (one / two) ∧ (c.fit 1 xs (one / two)).toOption.map (·.2.confidence) = some (one / two) ∧
      ∃ d fitting, c.fit 1 xs (one / two) = .ok (d, fitting) ∧ one / two ≤ fitting.confidence := by
  intro c xs
  have hhalf : (one / two).value = 1 / 2 := by
    have hfinite : (one / two).isFinite = true := by decide +kernel
    have hdouble : one / two + one / two = one := by decide +kernel
    have hvalue := value_add_self hfinite (by rw [hdouble]; exact isFinite_one)
    rw [hdouble, value_one] at hvalue
    linarith
  have h : c.config.Covers (one / two) := by
    refine ⟨by decide +kernel, rfl, by decide +kernel, ?_, ?_, ?_⟩
    · exact (div_le_one₀ (by positivity)).2 (one_le_pow₀ one_le_two) |>.trans value_one.ge
    · rw [hhalf]
      exact one_div_le_one_div_of_le two_pos (le_self_pow₀ one_le_two (by decide))
    · have hscale : c.config.deviationScale.value = 2 := value_two
      rw [hhalf, hscale]
      norm_num
  have hxs : xs.check = .ok () := by decide +kernel
  have hfit : Band.fit xs (one / two) c.config = .ok _ :=
    Band.fit_eq_ok_iff.2 ⟨h.sensitivity, hxs, by decide +kernel, rfl⟩
  exact ⟨h, by decide +kernel, (fit_covers_half c 1 h hfit).2 rfl (by decide)⟩

end OutlierBand
