import OutlierBand.Proofs.MirroredNumbers
import OutlierBand.Proofs.PredictOutcome
import OutlierBand.Proofs.StoredBands

namespace OutlierBand

open Binary64

namespace Binary64

theorem same_iff_place?_eq {a b : Binary64} (ha : a.isNaN = false) : a.same b = true ↔ a.place? = b.place? := by
  obtain ⟨x, hx⟩ := exists_place ha
  rw [same_iff]
  constructor
  · rintro ⟨y, hy, hb⟩
    exact hy.trans hb.symm
  · intro h
    exact ⟨x, hx, h ▸ hx⟩

theorem mirrors_of_place?_eq {a b : Binary64} (ha : a.isFinite = true) (hb : b.isFinite = true)
    (h : a.place? = b.place?) : Mirrors false a b := by
  have hsame := (same_iff_place?_eq (isNaN_of_isFinite ha)).2 h
  have habs := abs_eq_of_same hsame hb
  obtain ⟨s, m, rfl⟩ := exists_finite ha
  obtain ⟨t, n, rfl⟩ := exists_finite hb
  obtain rfl : m = n := (finite.inj habs).2
  have hsigned : signed s m.units = signed t m.units := Option.some.inj h
  by_cases h0 : m.units = 0
  · exact .finite (.inl h0)
  · refine .finite (.inr ?_)
    cases s <;> cases t <;> simp [signed] at hsigned ⊢ <;> omega

end Binary64

def Feature.places (f : Feature) : Option Int × Option Int := (f.centre.place?, f.tolerance.place?)

theorem Feature.same_iff_places_eq {f g : Feature} (hf : f.isFinite = true) :
    f.same g = true ↔ f.places = g.places := by
  obtain ⟨hcentre, htolerance⟩ := Bool.and_eq_true _ _ ▸ hf
  rw [same, Bool.and_eq_true, same_iff_place?_eq (isNaN_of_isFinite hcentre),
    same_iff_place?_eq (isNaN_of_isFinite htolerance), places, places, Prod.mk.injEq]

theorem Feature.ratio_eq_of_places_eq {f g : Feature} (hf : f.centre.isFinite = true ∧ ∃ n, f.tolerance = finite false n)
    (hg : g.centre.isFinite = true ∧ ∃ n, g.tolerance = finite false n) (h : f.places = g.places) (x : Binary64) :
    f.ratio x = g.ratio x := by
  -- A tolerance never has a minus sign, so equal tolerances are one number; which zero a centre is does not count
  -- in a difference.
  obtain ⟨hcf, m, hm⟩ := hf
  obtain ⟨hcg, n, hn⟩ := hg
  obtain ⟨hcentre, htolerance⟩ := Prod.mk.inj h
  have hdistance := ((mirrors_refl x).sub (mirrors_of_place?_eq hcf hcg hcentre)).abs_eq
  have hmirrors : Binary64.Mirrors false f.tolerance g.tolerance :=
    mirrors_of_place?_eq (by rw [hm]; rfl) (by rw [hn]; rfl) htolerance
  have htolerance : f.tolerance = g.tolerance := by
    have habs := hmirrors.abs_eq
    rw [hm, hn] at habs ⊢
    exact habs
  rw [ratio, ratio, hdistance, htolerance]

namespace Band

def places (b : Band) : List (Option Int × Option Int) × Option Int × Nat :=
  (b.features.map Feature.places, b.sensitivity.place?, b.sampleCount)

theorem features_same_iff {fs gs : List Feature} (hfs : ∀ f ∈ fs, f.isFinite = true) :
    (fs.length = gs.length ∧ ∀ v ∈ fs.zip gs, v.1.same v.2 = true) ↔ fs.map Feature.places = gs.map Feature.places := by
  rw [← List.forall₂_eq_eq_eq, List.forall₂_map_left_iff, List.forall₂_map_right_iff, List.forall₂_iff_zip]
  refine and_congr_right fun _ => ⟨fun h f g hfg => ?_, fun h v hv => ?_⟩
  · exact (Feature.same_iff_places_eq (hfs f (List.of_mem_zip hfg).1)).1 (h _ hfg)
  · exact (Feature.same_iff_places_eq (hfs v.1 (List.of_mem_zip hv).1)).2 (h hv)

variable {c : Config} {a b : Band}

theorem same_iff_places_eq (ha : a.WellFormed c) : a.same b = true ↔ a.places = b.places := by
  have hsensitivity : a.sensitivity.isNaN = false := isNaN_of_le (le_of_lt ha.sensitivity.1)
  rw [places, places, Prod.mk.injEq, Prod.mk.injEq, ← features_same_iff ha.isFinite, ← same_iff_place?_eq hsensitivity]
  simp only [same, width, Bool.and_eq_true, beq_iff_eq, List.all_eq_true, forall_mem_zipWith_iff, id_eq, and_assoc]

theorem forall₂_features_of_places_eq (h : a.places = b.places) :
    List.Forall₂ (fun f g => f.places = g.places) a.features b.features := by
  have hplaces : a.features.map Feature.places = b.features.map Feature.places := congrArg Prod.fst h
  rwa [← List.forall₂_eq_eq_eq, List.forall₂_map_left_iff, List.forall₂_map_right_iff] at hplaces

theorem score_eq_of_places_eq (ha : ∀ f ∈ a.features, f.centre.isFinite = true ∧ ∃ n, f.tolerance = finite false n)
    (hb : ∀ f ∈ b.features, f.centre.isFinite = true ∧ ∃ n, f.tolerance = finite false n) (h : a.places = b.places) :
    a.score = b.score := by
  obtain ⟨hlength, hplaces⟩ := List.forall₂_iff_zip.1 (forall₂_features_of_places_eq h)
  have hratios : List.Forall₂ (fun f g => ∀ v, f.ratio (id v) = g.ratio v) a.features b.features := by
    refine List.forall₂_iff_zip.2 ⟨hlength, fun {f g} hfg => ?_⟩
    obtain ⟨hf, hg⟩ := List.of_mem_zip hfg
    exact Feature.ratio_eq_of_places_eq (ha f hf) (hb g hg) (hplaces hfg)
  funext x
  rw [← score_map_eq hratios, List.map_id]

end Band

namespace Classifier

variable {κ : Type} [DecidableEq κ] {c : Classifier κ} {a b : κ}

theorem sameBand_iff (hc : ∀ id b, c.band? id = some b → b.WellFormed c.config) :
    c.sameBand a b = true ↔ (c.band? a).map Band.places = (c.band? b).map Band.places := by
  unfold sameBand
  cases ha : c.band? a with
  | none => cases c.band? b <;> simp
  | some x =>
    cases c.band? b with
    | none => simp
    | some y => exact (Band.same_iff_places_eq (hc a x ha)).trans (Option.some_inj).symm

theorem predict_eq_of_bands [Identifier κ] {x y : Band} (ha : c.band? a = some x) (hb : c.band? b = some y)
    (hwidth : x.width = y.width) (hscore : x.score = y.score) (xs : Samples) : c.predict a xs = c.predict b xs := by
  rw [predict_of_band ha, predict_of_band hb, Band.predict, Band.predict, Band.scores, Band.scores, hwidth, hscore]

end Classifier

namespace Session

variable {κ : Type} [DecidableEq κ]

theorem Reflects.sameBand {config : Config} {past : List (Event κ)} {c : Classifier κ} (h : Reflects config past c)
    (hbands : ∀ id b, c.band? id = some b → b.WellFormed c.config) {a b : κ} {batch batch' : Batch} {s : Binary64}
    {xs : Samples} (ha : latestFit? a past = some (batch, s)) (hb : latestFit? b past = some (batch', s))
    (hxs : batch.samples = .ok xs) (hxs' : batch'.samples = .ok xs) : c.sameBand a b = true := by
  have heq : (c.band? a).map Except.ok = (c.band? b).map (Except.ok (ε := Fault)) := by
    rw [h.bands a, h.bands b, ha, hb, Option.map_some, Option.map_some, refit, refit, hxs, hxs']
  have hband : c.band? a = c.band? b := Option.map_injective (fun _ _ => Except.ok.inj) heq
  rw [Classifier.sameBand_iff hbands, hband]

variable [Identifier κ]

/-- Wherever a session stands, comparing the bands of identifiers is an equivalence; identifiers with equal bands predict
the same, bit for bit, or are refused for the same; and equal fits leave equal bands. -/
theorem sameBand_indistinguishable {c : Classifier κ}
    (hc : c = .new ∨ ∃ config, Classifier.withConfig config = .ok c) (steps : List (Step κ)) :
    let t := ((start c).run steps).1.classifier
    let past := (start c).events steps
    Equivalence (fun a b => t.sameBand a b = true) ∧
      (∀ a b, t.isFitted a = true → t.sameBand a b = true →
        (∀ xs, t.predict a xs = t.predict b xs) ∧ ∀ rows, t.predictRows a rows = t.predictRows b rows) ∧
      ∀ a b batch batch' s xs, latestFit? a past = some (batch, s) → latestFit? b past = some (batch', s) →
        batch.samples = .ok xs → batch'.samples = .ok xs → t.sameBand a b = true := by
  intro t past
  obtain ⟨hvalid, hreflects⟩ := reflects_run hc steps
  have hfit (id : κ) (x : Band) (hx : t.band? id = some x) : ∃ xs, Band.fit xs x.sensitivity t.config = .ok x := by
    obtain ⟨-, xs, -, -, h⟩ := hreflects.exists_fit hx
    exact ⟨xs, h⟩
  have hbands (id : κ) (x : Band) (hx : t.band? id = some x) : x.WellFormed t.config := by
    obtain ⟨xs, h⟩ := hfit id x hx
    exact Band.wellFormed_of_fit hvalid h
  have hsame (a b : κ) := Classifier.sameBand_iff (a := a) (b := b) hbands
  refine ⟨?_, fun a b hfitted hab => ?_, fun a b batch batch' s xs => hreflects.sameBand hbands⟩
  · simp only [hsame]
    exact eq_equivalence.comap fun id => (t.band? id).map Band.places
  · obtain ⟨x, hx⟩ := Classifier.isFitted_iff.1 hfitted
    have hplaces := (hsame a b).1 hab
    rw [hx, Option.map_some, eq_comm, Option.map_eq_some_iff] at hplaces
    obtain ⟨y, hy, hyx⟩ := hplaces
    obtain ⟨xs, hxfit⟩ := hfit a x hx
    obtain ⟨ys, hyfit⟩ := hfit b y hy
    have hscore := Band.score_eq_of_places_eq (fun f => Band.exists_tolerance_of_fit hvalid hxfit)
      (fun f => Band.exists_tolerance_of_fit hvalid hyfit) hyx.symm
    have hpredict := Classifier.predict_eq_of_bands hx hy (Band.forall₂_features_of_places_eq hyx.symm).length_eq hscore
    exact ⟨hpredict, fun rows => by simp only [Classifier.predictRows, hpredict]⟩

def zeroSteps : List (Step Int) :=
  [.fit 1 (.rows [[zero]]) (one / two), .fit 2 (.matrix originSamples) (one / two),
    .fit 3 (.rows [[-zero]]) (one / two)]

theorem sameBand_indistinguishable_zeros :
    let config : Config := ⟨ofNat 10, one, .median⟩
    let c : Classifier Int := ⟨config, .empty⟩
    let t := ((start c).run zeroSteps).1.classifier
    Classifier.withConfig config = .ok c ∧ t.sameBand 1 2 = true ∧ t.sameBand 1 3 = true ∧ t.band? 1 ≠ t.band? 3 ∧
      t.predict 1 originSamples = t.predict 3 originSamples ∧ t.sameBand 2 3 = true := by
  intro config c t
  have hc : Classifier.withConfig config = .ok c := Classifier.withConfig_eq_ok_iff.2 ⟨by decide +kernel, rfl⟩
  obtain ⟨hequivalence, hpredict, hlatest⟩ := sameBand_indistinguishable (.inr ⟨config, hc⟩) zeroSteps
  have h12 : t.sameBand 1 2 = true := hlatest 1 2 (.rows [[zero]]) (.matrix originSamples) (one / two) originSamples
    (by decide +kernel) (by decide +kernel) rfl rfl
  have h13 : t.sameBand 1 3 = true := by decide +kernel
  have hfitted : t.isFitted 1 = true := by decide +kernel
  exact ⟨hc, h12, h13, by decide +kernel, (hpredict 1 3 hfitted h13).1 originSamples,
    hequivalence.trans (hequivalence.symm h12) h13⟩

end Session

end OutlierBand
