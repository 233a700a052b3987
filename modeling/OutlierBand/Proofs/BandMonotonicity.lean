import OutlierBand.Classifier
import OutlierBand.Proofs.FittedBand
import OutlierBand.Proofs.InlierShare

namespace OutlierBand

open Binary64

structure Config.Tighter (c d : Config) : Prop where
  reference : c.reference = d.reference
  deviationScale : c.deviationScale ≤ d.deviationScale
  minTolerance : c.minTolerance ≤ d.minTolerance

structure Feature.Tighter (f g : Feature) : Prop where
  centre : f.centre = g.centre
  tolerance : ∃ m n, f.tolerance = finite false m ∧ g.tolerance = finite false n ∧ m.units ≤ n.units

structure Band.Tighter (a b : Band) : Prop where
  centres : a.features.map Feature.centre = b.features.map Feature.centre
  tolerances : List.Forall₂ (· ≤ ·) (a.features.map Feature.tolerance) (b.features.map Feature.tolerance)
  score_le : ∀ x, b.score x ≤ a.score x
  contains : ∀ x, a.contains x = true → b.contains x = true

namespace Feature.Tighter

variable {f g : Feature}

theorem tolerance_le (h : f.Tighter g) : f.tolerance ≤ g.tolerance := by
  obtain ⟨m, n, hf, hg, hmn⟩ := h.tolerance
  rw [hf, hg]
  exact finite_false_le_iff.2 hmn

theorem excess_le (h : f.Tighter g) (x : Binary64) : g.excess x ≤ f.excess x := by
  obtain ⟨m, n, hf, hg, hmn⟩ := h.tolerance
  rw [excess, excess, hf, hg, h.centre]
  exact multiple_le_multiple _ hmn

end Feature.Tighter

theorem Config.Tighter.feature {c d : Config} {s t : Binary64} {column : Summary} (h : c.Tighter d)
    (hc : c.validate = .ok ()) (hd : d.validate = .ok ()) (hs : checkSensitivity s = .ok ())
    (ht : checkSensitivity t = .ok ()) (hst : s ≤ t) (h0 : 0 ≤ column.dispersion.value)
    (hf : (d.feature t column).isFinite = true) :
    (c.feature s column).isFinite = true ∧ (c.feature s column).Tighter (d.feature t column) := by
  obtain ⟨hcentre, hsum, hproduct, hdispersion⟩ := isFinite_of_isFinite_feature hf
  obtain ⟨-, htolerance⟩ := Bool.and_eq_true _ _ ▸ hf
  obtain ⟨⟨hscale, -⟩, hleast, -⟩ := validate_eq_ok_iff.1 hd
  have habs : column.centre.abs.isFinite = true := by rwa [isFinite_abs]
  -- The tolerance is built from the settings by operations that keep the order of numbers above zero.
  have hproducts : Below (c.deviationScale * column.dispersion) (d.deviationScale * column.dispersion) :=
    Below.mul ⟨zero_le_deviationScale hc, h.deviationScale, hscale⟩
      (.refl ((zero_le_iff hdispersion).2 h0) hdispersion) hproduct
  have hleasts : Below (column.centre.abs.maxNum c.minTolerance) (column.centre.abs.maxNum d.minTolerance) :=
    Below.maxNum (.refl (zero_le_abs hcentre) habs)
      ⟨le_of_lt (zero_lt_minTolerance hc), h.minTolerance, hleast⟩
  have hsens : Below s t :=
    ⟨le_of_lt (checkSensitivity_eq_ok_iff.1 hs).1, hst, isFinite_of_checkSensitivity ht⟩
  have hbelow : Below (c.feature s column).tolerance (d.feature t column).tolerance :=
    hsens.mul (hproducts.add hleasts hsum) htolerance
  have hfinite : (c.feature s column).isFinite = true := Bool.and_eq_true _ _ ▸ ⟨hcentre, hbelow.isFinite_left⟩
  obtain ⟨m, hm⟩ := exists_tolerance hc hs h0 hfinite
  obtain ⟨n, hn⟩ := exists_tolerance hd ht h0 hf
  refine ⟨hfinite, rfl, m, n, hm, hn, ?_⟩
  rw [← finite_false_le_iff, ← hm, ← hn]
  exact hbelow.le

namespace Band

theorem forall₂_excess {fs gs : List Feature} (h : List.Forall₂ Feature.Tighter fs gs) (x : List Binary64) :
    List.Forall₂ (· ≤ ·) (gs.zipWith Feature.excess x) (fs.zipWith Feature.excess x) := by
  induction h generalizing x with
  | nil => exact .nil
  | cons hfg _ ih =>
    cases x with
    | nil => exact .nil
    | cons v x => exact .cons (hfg.excess_le v) (ih x)

theorem tighter_of_forall₂ {a b : Band} (h : List.Forall₂ Feature.Tighter a.features b.features) : a.Tighter b := by
  have hwidth : a.width = b.width := h.length_eq
  have hscore (x : List Binary64) : b.score x ≤ a.score x := by
    by_cases hx : x.length = b.width
    · rw [score_eq_foldl hx, score_eq_foldl (hx.trans hwidth.symm)]
      exact foldl_maxNum_le_foldl (forall₂_excess h x) (by decide +kernel)
    · rw [score, score, hwidth, if_neg hx, if_neg hx]
      exact le_infinity rfl
  refine ⟨?_, ?_, hscore, ?_⟩
  · rw [← List.forall₂_eq_eq_eq, List.forall₂_map_left_iff, List.forall₂_map_right_iff]
    exact h.imp fun _ _ h => h.centre
  · rw [List.forall₂_map_left_iff, List.forall₂_map_right_iff]
    exact h.imp fun _ _ h => h.tolerance_le
  · intro x hx
    exact decide_eq_true (Binary64.le_trans (hscore x) (of_decide_eq_true hx))

theorem exists_fit_of_tighter {c d : Config} {xs : Samples} {s t : Binary64} {b : Band} (hc : c.validate = .ok ())
    (hd : d.validate = .ok ()) (hcd : c.Tighter d) (hs : checkSensitivity s = .ok ()) (hst : s ≤ t)
    (h : fit xs t d = .ok b) : ∃ a, fit xs s c = .ok a ∧ a.Tighter b := by
  obtain ⟨ht, hxs, -, hb⟩ := fit_eq_ok_iff.1 h
  have hfeature {column : Summary} (hcolumn : column ∈ xs.summaries d.reference) :
      (c.feature s column).isFinite = true ∧ (c.feature s column).Tighter (d.feature t column) := by
    obtain ⟨hfinite, hdispersion⟩ := isFinite_feature_of_fit h hcolumn
    exact hcd.feature hc hd hs ht hst hdispersion hfinite
  refine ⟨_, fit_eq_ok_iff.2 ⟨hs, hxs, ?_, rfl⟩, ?_⟩
  · intro column hcolumn
    rw [hcd.reference] at hcolumn
    exact (hfeature hcolumn).1
  · apply tighter_of_forall₂
    rw [hb, hcd.reference, List.forall₂_map_left_iff, List.forall₂_map_right_iff, List.forall₂_same]
    intro column hcolumn
    exact (hfeature hcolumn).2

end Band

/-- Under tighter settings and a lower sensitivity a matrix that fitted still fits. The band has the same centres and
no greater tolerance, every row scores at least as much and every row in it was in the other, and the confidence is at
most the other's. A matrix has at most as many rows as a machine word can count. -/
theorem Classifier.fit_of_tighter {κ : Type} [DecidableEq κ] {c d d' : Classifier κ} {id : κ} {xs : Samples}
    {s t : Binary64} {loose : Fitting} (hc : c.config.validate = .ok ()) (hd : d.config.validate = .ok ())
    (hcd : c.config.Tighter d.config) (hs : checkSensitivity s = .ok ()) (hst : s ≤ t) (hrows : xs.height < 2 ^ 64)
    (h : d.fit id xs t = .ok (d', loose)) :
    ∃ c' tight a b, c.fit id xs s = .ok (c', tight) ∧ c'.band? id = some a ∧ d'.band? id = some b ∧
      a.Tighter b ∧ tight.confidence ≤ loose.confidence := by
  obtain ⟨b, hb, rfl, rfl⟩ := fit_eq_ok_iff.1 h
  obtain ⟨a, ha, hab⟩ := Band.exists_fit_of_tighter hc hd hcd hs hst hb
  refine ⟨_, _, a, b, fit_eq_ok_iff.2 ⟨a, ha, rfl, rfl⟩, ?_, ?_, hab, ?_⟩
  · exact Registry.find?_insert_self ..
  · exact Registry.find?_insert_self ..
  · have hheight : xs.height ≠ 0 := by
      intro h0
      have hxs := (Band.fit_eq_ok_iff.1 hb).2.1
      rw [Samples.check, if_pos (.inl h0)] at hxs
      cases hxs
    exact Band.confidence_predict_le hheight hrows fun x _ => hab.contains x

def pairSamples : Samples := ⟨2, 1, [zero, ofNat 3], .rowMajor, rfl⟩

theorem Classifier.fit_of_tighter_pair :
    let c : Classifier Int := ⟨⟨zero, one, .mean⟩, .empty⟩
    let d : Classifier Int := new
    c.config.Tighter d.config ∧ ∃ d' loose c' tight a b, d.fit 0 pairSamples (one / two) = .ok (d', loose) ∧
      c.fit 0 pairSamples (one / two) = .ok (c', tight) ∧ c'.band? 0 = some a ∧ d'.band? 0 = some b ∧
      a.Tighter b ∧ tight.confidence ≤ loose.confidence := by
  intro c d
  have hcd : c.config.Tighter d.config := ⟨rfl, by decide +kernel, by decide +kernel⟩
  refine ⟨hcd, ?_⟩
  cases h : d.fit 0 pairSamples (one / two) with
  | error fault =>
    have hok : (d.fit 0 pairSamples (one / two)).toOption.isSome = true := by decide +kernel
    rw [h] at hok
    cases hok
  | ok r =>
    have hc : c.config.validate = .ok () := by decide +kernel
    have hd : d.config.validate = .ok () := by decide +kernel
    have hs : checkSensitivity (one / two) = .ok () := by decide +kernel
    have hst : one / two ≤ one / two := by decide +kernel
    have hrows : pairSamples.height < 2 ^ 64 := by decide
    obtain ⟨c', tight, a, b, hfit, ha, hb, htighter, hconfidence⟩ := fit_of_tighter hc hd hcd hs hst hrows h
    exact ⟨r.1, r.2, c', tight, a, b, rfl, hfit, ha, hb, htighter, hconfidence⟩

end OutlierBand
