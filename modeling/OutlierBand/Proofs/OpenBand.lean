import OutlierBand.Proofs.FittedBand

namespace OutlierBand

open Binary64

theorem Feature.excess_of_same {f : Feature} (hc : f.centre.isFinite = true) (ht : ∃ n, f.tolerance = finite false n)
    {x : Binary64} (hx : x.same f.centre = true) : f.excess x = if zero < f.tolerance then zero else infinity := by
  obtain ⟨n, hn⟩ := ht
  have hunits : Magnitude.zero.units = 0 := rfl
  have hmultiple := multiple_finite .zero n
  have hfinite := isFinite_of_same hx hc
  obtain ⟨z, hz⟩ := sub_eq_zero_of_value_eq hfinite hc ((same_iff_value_eq hfinite hc).1 hx)
  rw [excess, hz, abs_finite, hn]
  by_cases h0 : n.units = 0
  · rw [if_pos h0] at hmultiple
    rw [if_neg (mt zero_lt_finite_iff.1 (not_not.2 h0))]
    exact hmultiple
  · rw [if_neg h0, hunits, Nat.zero_mul, round_eq_zero false (by omega)] at hmultiple
    rw [if_pos (zero_lt_finite_iff.2 h0)]
    exact hmultiple

namespace Band

def centres (b : Band) : List Binary64 := b.features.map Feature.centre

structure Open (b : Band) : Prop where
  tolerances : ∀ f ∈ b.features, zero < f.tolerance
  score_centres : b.score b.centres = zero
  contains_centres : b.contains b.centres = true

theorem score_centres_eq {b : Band}
    (h : ∀ f ∈ b.features, f.centre.isFinite = true ∧ ∃ n, f.tolerance = finite false n) :
    b.score b.centres = if ∀ f ∈ b.features, zero < f.tolerance then zero else infinity := by
  have hexcess : b.features.zipWith Feature.excess b.centres =
      b.features.map fun f => if zero < f.tolerance then zero else infinity := by
    rw [centres, List.zipWith_map_right, List.zipWith_self]
    apply List.map_congr_left
    intro f hf
    have hself : f.centre.same f.centre = true := (same_iff_value_eq (h f hf).1 (h f hf).1).2 rfl
    exact Feature.excess_of_same (h f hf).1 (h f hf).2 hself
  have hlength : b.centres.length = b.width := List.length_map ..
  rw [score_eq_foldl hlength, hexcess]
  split_ifs with hall
  · apply foldl_maxNum_eq_zero
    intro e he
    obtain ⟨f, hf, rfl⟩ := List.mem_map.1 he
    exact if_pos (hall f hf)
  · apply foldl_maxNum_eq_infinity
    push Not at hall
    obtain ⟨f, hf, hclosed⟩ := hall
    exact List.mem_map.2 ⟨f, hf, if_neg hclosed⟩

end Band

namespace Config

variable {c : Config} {s : Binary64} {column : Summary}

theorem zero_lt_tolerance_iff (h : (c.feature s column).isFinite = true) :
    zero < (c.feature s column).tolerance ↔ halfUnit < s.value * (c.scaledDeviation column).value := by
  obtain ⟨-, ht⟩ := Bool.and_eq_true _ _ ▸ h
  obtain ⟨hs, hk⟩ := isFinite_of_mul ht
  exact zero_lt_mul_iff hs hk

theorem scaledDeviation_zero (hc : c.validate = .ok ()) : c.scaledDeviation ⟨zero, zero⟩ = c.minTolerance := by
  have hmax : zero.abs.maxNum c.minTolerance = c.minTolerance := if_pos (zero_lt_minTolerance hc)
  exact (scaledDeviation_of_zero hc isFinite_zero false).trans hmax

end Config

def originSamples : Samples := ⟨1, 1, [zero], .rowMajor, rfl⟩

theorem summaries_originSamples (statistic : Statistic) : originSamples.summaries statistic = [⟨zero, zero⟩] := by
  cases statistic <;> decide +kernel

namespace Band

variable {c : Config} {s : Binary64} {xs : Samples} {b : Band}

theorem score_centres_of_fit (hc : c.validate = .ok ()) (h : fit xs s c = .ok b) :
    b.score b.centres = if ∀ f ∈ b.features, zero < f.tolerance then zero else infinity := by
  apply score_centres_eq
  intro f hf
  exact exists_tolerance_of_fit hc h hf

theorem open_iff_of_fit (hc : c.validate = .ok ()) (h : fit xs s c = .ok b) :
    b.Open ↔ ∀ column ∈ xs.summaries c.reference, halfUnit < s.value * (c.scaledDeviation column).value := by
  have hscore := score_centres_of_fit hc h
  have htolerances : (∀ f ∈ b.features, zero < f.tolerance) ↔
      ∀ column ∈ xs.summaries c.reference, halfUnit < s.value * (c.scaledDeviation column).value := by
    rw [forall_features_of_fit h]
    apply forall₂_congr
    intro column hcolumn
    exact Config.zero_lt_tolerance_iff (isFinite_feature_of_fit h hcolumn).1
  rw [← htolerances]
  constructor
  · exact Open.tolerances
  · intro hall
    rw [if_pos hall] at hscore
    refine ⟨hall, hscore, ?_⟩
    rw [contains, hscore]
    decide +kernel

theorem not_open_of_fit (hc : c.validate = .ok ()) (h : fit xs s c = .ok b) (hclosed : ¬b.Open) :
    b.score b.centres = infinity ∧ b.contains b.centres = false := by
  have hscore := score_centres_of_fit hc h
  have hnot : ¬∀ f ∈ b.features, zero < f.tolerance := by
    intro hall
    apply hclosed
    rw [open_iff_of_fit hc h]
    rw [forall_features_of_fit h] at hall
    intro column hcolumn
    exact (Config.zero_lt_tolerance_iff (isFinite_feature_of_fit h hcolumn).1).1 (hall column hcolumn)
  rw [if_neg hnot] at hscore
  refine ⟨hscore, ?_⟩
  rw [contains, hscore]
  decide +kernel

theorem exists_fit_originSamples (hc : c.validate = .ok ()) (hs : checkSensitivity s = .ok ()) :
    ∃ b, fit originSamples s c = .ok b := by
  refine ⟨_, fit_eq_ok_iff.2 ⟨hs, by decide +kernel, ?_, rfl⟩⟩
  intro column hcolumn
  rw [summaries_originSamples, List.mem_singleton] at hcolumn
  subst hcolumn
  apply Bool.and_eq_true _ _ ▸ And.intro isFinite_zero _
  rw [Config.tolerance_feature, Config.scaledDeviation_zero hc]
  rw [isFinite_sensitivity_mul hs]
  exact (Config.validate_eq_ok_iff.1 hc).2.1

end Band

/-- The band of a matrix is open exactly when the sensitivity times each scaled deviation is above half of the least
number; a closed one keeps out its own centres. All bands are open exactly when this holds for the least tolerance. -/
theorem Band.open_iff {c : Config} {s : Binary64} (hc : c.validate = .ok ()) (hs : checkSensitivity s = .ok ()) :
    (∀ xs b, Band.fit xs s c = .ok b →
      (b.Open ↔ ∀ column ∈ xs.summaries c.reference, halfUnit < s.value * (c.scaledDeviation column).value) ∧
      (¬b.Open → b.score b.centres = infinity ∧ b.contains b.centres = false)) ∧
    ((∀ xs b, Band.fit xs s c = .ok b → b.Open) ↔ halfUnit < s.value * c.minTolerance.value) := by
  refine ⟨fun xs b h => ⟨open_iff_of_fit hc h, not_open_of_fit hc h⟩, ?_⟩
  constructor
  · intro hall
    obtain ⟨b, hb⟩ := exists_fit_originSamples hc hs
    have hopen := (open_iff_of_fit hc hb).1 (hall _ b hb) ⟨zero, zero⟩ (by simp [summaries_originSamples])
    rwa [Config.scaledDeviation_zero hc] at hopen
  · intro hleast xs b h
    rw [open_iff_of_fit hc h]
    intro column hcolumn
    obtain ⟨hfinite, hdispersion⟩ := isFinite_feature_of_fit h hcolumn
    obtain ⟨-, hk, -, -⟩ := Config.isFinite_of_isFinite_feature hfinite
    have hle := Config.minTolerance_le_scaledDeviation hc hdispersion hfinite
    rw [le_iff_value_le (Config.validate_eq_ok_iff.1 hc).2.1 hk] at hle
    have hpos : 0 < s.value :=
      (zero_lt_iff (isFinite_of_checkSensitivity hs)).1 (checkSensitivity_eq_ok_iff.1 hs).1
    exact hleast.trans_le (mul_le_mul_of_nonneg_left hle hpos.le)

theorem Band.open_default_half :
    Config.default.validate = .ok () ∧ checkSensitivity (one / two) = .ok () ∧
      halfUnit < (one / two).value * Config.default.minTolerance.value ∧
      ∀ xs b, Band.fit xs (one / two) .default = .ok b → b.Open := by
  have hc : Config.default.validate = .ok () := by decide +kernel
  have hs : checkSensitivity (one / two) = .ok () := by decide +kernel
  have hhalf : (one / two).isFinite = true := by decide +kernel
  have hleast : Config.default.minTolerance.isFinite = true := by decide +kernel
  have hroom : halfUnit < (one / two).value * Config.default.minTolerance.value :=
    (zero_lt_mul_iff hhalf hleast).1 (by decide +kernel)
  exact ⟨hc, hs, hroom, (Band.open_iff hc hs).2.2 hroom⟩

def tiny : Binary64 := Decimal.toBinary64 ⟨false, 1, -200⟩

theorem Band.closed_tiny :
    let c : Config := ⟨ofNat 10, tiny, .mean⟩
    c.validate = .ok () ∧ checkSensitivity tiny = .ok () ∧ ∃ b, Band.fit originSamples tiny c = .ok b ∧
      ¬(∀ f ∈ b.features, zero < f.tolerance) ∧ b.score b.centres = infinity ∧ b.contains b.centres = false := by
  -- The square of `1e-200` is rounded to zero.
  intro c
  have hc : c.validate = .ok () := by decide +kernel
  have hs : checkSensitivity tiny = .ok () := by decide +kernel
  obtain ⟨b, hb⟩ := exists_fit_originSamples hc hs
  have hclosed : ¬∀ f ∈ b.features, zero < f.tolerance := by
    rw [forall_features_of_fit hb]
    intro hall
    have hroom := hall ⟨zero, zero⟩ (by simp [c, summaries_originSamples])
    revert hroom
    decide +kernel
  obtain ⟨hscore, hcontains⟩ := not_open_of_fit hc hb fun hopen => hclosed hopen.tolerances
  exact ⟨hc, hs, b, hb, hclosed, hscore, hcontains⟩

end OutlierBand
