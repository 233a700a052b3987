import OutlierBand.Proofs.MedianRank
import OutlierBand.Proofs.OpenBand

namespace OutlierBand

open Binary64

namespace Statistics

def Majority (v : Binary64) (column : List Binary64) : Prop := column.length < 2 * column.countP (·.same v)

variable {xs : List Binary64} {v : Binary64}

theorem countP_lt_add_countP_same_le (v : Binary64) (xs : List Binary64) :
    xs.countP (· < v) + xs.countP (·.same v) ≤ xs.length := by
  have hdisjoint : xs.countP (· < v) ≤ xs.countP fun x => ¬x.same v := by
    apply List.countP_mono_left
    intro x _ hlt
    simp only [decide_eq_true_eq] at hlt ⊢
    intro hsame
    obtain ⟨p, hx, hv⟩ := same_iff.1 hsame
    exact lt_irrefl p ((lt_iff_place_lt hx hv).1 hlt)
  have htotal := List.length_eq_countP_add_countP (·.same v) (l := xs)
  omega

theorem sorted_same_of_majority (hxs : ∀ x ∈ xs, x.isNaN = false) (h : Majority v xs) {k : ℕ} {a : Binary64}
    (ha : (sorted xs)[k]? = some a) (hlow : 2 * k ≤ xs.length) (hhigh : xs.length ≤ 2 * k + 2) : a.same v = true := by
  unfold Majority at h
  have hsame : xs.countP (·.same v) ≤ xs.countP (· ≤ v) := by
    apply List.countP_mono_left
    intro x _ hx
    exact decide_eq_true (le_of_same hx)
  have hbelow := countP_lt_add_countP_same_le v xs
  apply same_of_le_of_not_lt
  · rw [sorted_le_iff hxs v ha]
    omega
  · rw [sorted_lt_iff hxs v ha]
    omega

theorem same_average {a b : Binary64} (ha : a.same v = true) (hb : b.same v = true)
    (hv : Within (greatest.value / 2) v) : ((a + b) / two).same v = true := by
  have within {x : Binary64} (hx : x.same v = true) : Within (greatest.value / 2) x ∧ x.value = v.value := by
    have hfinite := isFinite_of_same hx hv.isFinite
    have hvalue := (same_iff_value_eq hfinite hv.isFinite).1 hx
    exact ⟨⟨hfinite, hvalue ▸ hv.abs_value_le⟩, hvalue⟩
  obtain ⟨hwa, hva⟩ := within ha
  obtain ⟨hwb, hvb⟩ := within hb
  have hfinite := isFinite_average hwa hwb
  obtain ⟨hlow, hhigh⟩ := average_between (hva.trans hvb.symm).le hfinite
  rw [same_iff_value_eq hfinite hv.isFinite]
  linarith

theorem median_same_of_majority (hxs : ∀ x ∈ xs, x.isNaN = false) (hv : Within (greatest.value / 2) v)
    (h : Majority v xs) : (median xs).same v = true := by
  have hlength := (perm_sorted xs).length_eq
  have hne : sorted xs ≠ [] := by
    rw [← List.length_pos_iff, hlength]
    have hcount := xs.countP_le_length (p := (·.same v))
    unfold Majority at h
    omega
  rcases middle_cases hne with ⟨k, b, hk, hb, hmiddle⟩ | ⟨k, a, b, hk, ha, hb, hmiddle⟩
  · rw [median, hmiddle]
    exact sorted_same_of_majority hxs h hb (by omega) (by omega)
  · rw [median, hmiddle]
    apply same_average _ _ hv
    · exact sorted_same_of_majority hxs h ha (by omega) (by omega)
    · exact sorted_same_of_majority hxs h hb (by omega) (by omega)

theorem majority_distances {centre : Binary64} (hv : v.isFinite = true) (hcentre : centre.same v = true)
    (h : Majority v xs) : Majority zero (xs.map fun x => (x - centre).abs) := by
  unfold Majority at *
  rw [List.length_map, List.countP_map]
  have hcount : xs.countP (·.same v) ≤ xs.countP ((·.same zero) ∘ fun x => (x - centre).abs) := by
    apply List.countP_mono_left
    intro x _ hx
    have hfx := isFinite_of_same hx hv
    have hfc := isFinite_of_same hcentre hv
    rw [same_iff_value_eq hfx hv] at hx
    rw [same_iff_value_eq hfc hv] at hcentre
    obtain ⟨z, hz⟩ := sub_eq_zero_of_value_eq hfx hfc (hx.trans hcentre.symm)
    rw [Function.comp_apply, hz]
    exact same_zero_iff.2 ⟨false, rfl⟩
  omega

theorem medianDeviation_of_majority (hxs : ∀ x ∈ xs, x.isFinite = true) {centre : Binary64} (hv : v.isFinite = true)
    (hcentre : centre.same v = true) (h : Majority v xs) : ∃ z, medianDeviation centre xs = finite z .zero := by
  have hdistances : ∀ y ∈ xs.map fun x => (x - centre).abs, y.isNaN = false :=
    List.forall_mem_map.2 fun x hx => isNaN_abs_sub (hxs x hx) (isFinite_of_same hcentre hv)
  have hmedian := median_same_of_majority hdistances within_half_zero (majority_distances hv hcentre h)
  obtain ⟨z, hz⟩ := same_zero_iff.1 hmedian
  rw [medianDeviation, hz]
  exact mul_zero_eq (by decide +kernel) z

end Statistics

structure Summary.Decided (column : Summary) (v : Binary64) : Prop where
  centre : column.centre.same v = true
  dispersion : column.dispersion.same zero = true

theorem Statistic.decided_of_majority {xs : List Binary64} {v : Binary64} (hxs : ∀ x ∈ xs, x.isFinite = true)
    (hv : Within (greatest.value / 2) v) (h : Statistics.Majority v xs) (sum : List Binary64 → Binary64) :
    (median.summary sum xs).Decided v := by
  have hcentre := Statistics.median_same_of_majority (fun x hx => isNaN_of_isFinite (hxs x hx)) hv h
  exact ⟨hcentre, same_zero_iff.2 (Statistics.medianDeviation_of_majority hxs hv.isFinite hcentre h)⟩

theorem Config.feature_of_decided {c : Config} {s v : Binary64} {column : Summary} (hc : c.validate = .ok ())
    (hs : checkSensitivity s = .ok ()) (hv : v.isFinite = true) (h : column.Decided v) :
    (c.feature s column).isFinite = true ∧ (c.feature s column).centre.same v = true ∧
      (c.feature s column).tolerance = s * v.abs.maxNum c.minTolerance := by
  obtain ⟨centre, dispersion⟩ := column
  obtain ⟨z, rfl⟩ := same_zero_iff.1 h.dispersion
  have hcentre : centre.isFinite = true := isFinite_of_same h.centre hv
  have htolerance : (c.feature s ⟨centre, finite z .zero⟩).tolerance = s * v.abs.maxNum c.minTolerance := by
    rw [tolerance_feature, scaledDeviation_of_zero hc hcentre, leastDeviation, abs_eq_of_same h.centre hv]
  refine ⟨?_, h.centre, htolerance⟩
  have hleast := (validate_eq_ok_iff.1 hc).2.1
  rw [Feature.isFinite, htolerance, isFinite_sensitivity_mul hs, isFinite_maxNum (by rwa [isFinite_abs]) hleast,
    Bool.and_true]
  exact hcentre

namespace Band

theorem forall₂_same_centre {x vs : List Binary64} {fs : List Feature}
    (hx : List.Forall₂ (fun a v => a.same v = true) x vs)
    (hfs : List.Forall₂ (fun f v => f.centre.same v = true) fs vs) :
    List.Forall₂ (fun f a => a.same f.centre = true) fs x := by
  induction hx generalizing fs with
  | nil =>
    cases hfs
    exact .nil
  | cons hav _ ih =>
    cases hfs with
    | cons hfv hrest =>
      obtain ⟨p, ha, hv⟩ := same_iff.1 hav
      obtain ⟨q, hf, hv'⟩ := same_iff.1 hfv
      obtain rfl : p = q := Option.some.inj (hv.symm.trans hv')
      exact .cons (same_iff.2 ⟨p, ha, hf⟩) (ih hrest)

theorem score_eq_zero_of_same {b : Band} {x : List Binary64} (hb : ∀ f ∈ b.features, f.isFinite = true)
    (hroom : ∀ f ∈ b.features, zero < f.tolerance)
    (hx : List.Forall₂ (fun f a => a.same f.centre = true) b.features x) : b.score x = zero := by
  rw [score_eq_foldl hx.length_eq.symm]
  apply foldl_maxNum_eq_zero
  rw [forall_mem_zipWith_iff]
  intro v hv
  have hf := (List.of_mem_zip hv).1
  obtain ⟨hcentre, htolerance⟩ := Bool.and_eq_true _ _ ▸ hb v.1 hf
  obtain ⟨n, hn, -⟩ := exists_finite_of_zero_lt htolerance (hroom v.1 hf)
  rw [Feature.excess_of_same hcentre ⟨n, hn⟩ ((List.forall₂_iff_zip.1 hx).2 hv), if_pos (hroom v.1 hf)]

/-- Where more than half of a column are one number, the centre is that number and the dispersion zero, whatever the
others are. Where every column has such a number, a fit with medians succeeds, the tolerances are what is left without
dispersion, and if there is room, a row of these numbers scores zero. -/
theorem fit_of_majorities {xs : Samples} (hxs : xs.check = .ok ()) :
    (∀ j < xs.width, ∀ v, Within (greatest.value / 2) v → Statistics.Majority v (xs.column j) →
      ∃ column, (xs.summaries .median)[j]? = some column ∧ column.Decided v) ∧
    ∀ (c : Config) (s : Binary64) (vs : List Binary64),
      c.validate = .ok () → c.reference = .median → checkSensitivity s = .ok () →
      List.Forall₂ (fun v column => Within (greatest.value / 2) v ∧ Statistics.Majority v column) vs xs.columns →
      ∃ b, fit xs s c = .ok b ∧
        List.Forall₂ (fun f v => f.centre.same v = true ∧ f.tolerance = s * v.abs.maxNum c.minTolerance) b.features vs ∧
        ((∀ f ∈ b.features, zero < f.tolerance) →
          ∀ x, List.Forall₂ (fun a v => a.same v = true) x vs → b.score x = zero) := by
  have hfinite : ∀ column ∈ xs.columns, ∀ x ∈ column, x.isFinite = true :=
    fun column hcolumn x hx => Samples.isFinite_of_mem_columns hxs hcolumn hx
  constructor
  · intro j hj v hv hmajority
    have hcolumn : xs.columns[j]? = some (xs.column j) := by
      rw [Samples.columns, List.getElem?_map, List.getElem?_range hj, Option.map_some]
    refine ⟨_, by rw [Samples.summaries, List.getElem?_map, hcolumn, Option.map_some], ?_⟩
    exact Statistic.decided_of_majority (hfinite _ (List.mem_of_getElem? hcolumn)) hv hmajority _
  · intro c s vs hc hreference hs hvs
    have hfeatures : List.Forall₂ (fun f v => f.isFinite = true ∧ f.centre.same v = true ∧
        f.tolerance = s * v.abs.maxNum c.minTolerance) ((xs.summaries c.reference).map (c.feature s)) vs := by
      rw [hreference, Samples.summaries, List.map_map, List.forall₂_map_left_iff]
      refine ((List.forall₂_and_left _ _).2 ⟨hfinite, hvs.flip⟩).imp ?_
      rintro column v ⟨hcolumn, hv, hmajority⟩
      exact Config.feature_of_decided hc hs hv.isFinite (Statistic.decided_of_majority hcolumn hv hmajority _)
    obtain ⟨hall, hrest⟩ := (List.forall₂_and_left _ _).1 hfeatures
    refine ⟨_, fit_eq_ok_iff.2 ⟨hs, hxs, List.forall_mem_map.1 hall, rfl⟩, hrest, fun hroom x hx => ?_⟩
    exact score_eq_zero_of_same hall hroom (forall₂_same_centre hx (hrest.imp fun _ _ h => h.1))

theorem fit_of_majorities_overflow :
    let half := greatest / two
    let xs : Samples := ⟨3, 2, [zero, half, greatest, neg greatest, neg zero, half], .columnMajor, rfl⟩
    let c : Config := ⟨one, one, .median⟩
    xs.check = .ok () ∧ (neg greatest - half).abs = infinity ∧ ∃ b, fit xs (one / two) c = .ok b ∧
      b.features.map Feature.tolerance = [one / two, half / two] ∧ b.score [neg zero, half] = zero := by
  intro half xs c
  have hxs : xs.check = .ok () := by decide +kernel
  have hzero : Within (greatest.value / 2) zero :=
    within_zero (half_pos ((zero_lt_iff rfl).1 (by decide +kernel))).le
  have hhalf : Within (greatest.value / 2) half := by
    have hfinite : half.isFinite = true := by decide +kernel
    have hdouble : half + half = greatest := by decide +kernel
    have hvalue := value_add_self hfinite (by rw [hdouble]; rfl)
    rw [hdouble] at hvalue
    exact within_of_value_le hfinite (by decide +kernel) (by linarith)
  have hvs : List.Forall₂ (fun v column => Within (greatest.value / 2) v ∧ Statistics.Majority v column)
      [zero, half] xs.columns :=
    .cons ⟨hzero, by unfold Statistics.Majority; decide +kernel⟩
      (.cons ⟨hhalf, by unfold Statistics.Majority; decide +kernel⟩ .nil)
  obtain ⟨b, hb, hfeatures, hscore⟩ := (fit_of_majorities hxs).2 c (one / two) _ (by decide +kernel) rfl
    (by decide +kernel) hvs
  have htolerances : b.features.map Feature.tolerance = [one / two, half / two] := by
    have hleast : [one / two, half / two] = [zero, half].map fun v => one / two * v.abs.maxNum one := by decide +kernel
    rw [hleast, ← List.forall₂_eq_eq_eq, List.forall₂_map_left_iff, List.forall₂_map_right_iff]
    exact hfeatures.imp fun _ _ h => h.2
  have hroom : ∀ t ∈ [one / two, half / two], zero < t := by decide +kernel
  rw [← htolerances, List.forall_mem_map] at hroom
  exact ⟨hxs, by decide +kernel, b, hb, htolerances,
    hscore hroom _ (.cons (by decide +kernel) (.cons (by decide +kernel) .nil))⟩

end Band

end OutlierBand
