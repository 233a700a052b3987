import OutlierBand.Proofs.OpenBand
import OutlierBand.Proofs.SessionHistory

namespace OutlierBand

open Binary64

theorem Config.below_tolerance {c : Config} {s : Binary64} {column : Summary} (hc : c.validate = .ok ())
    (hs : checkSensitivity s = .ok ()) (hd : 0 ≤ column.dispersion.value) (h : (c.feature s column).isFinite = true) :
    Below (s * c.leastDeviation column.centre) (c.feature s column).tolerance := by
  obtain ⟨-, ht⟩ := Bool.and_eq_true _ _ ▸ h
  have hpos := le_of_lt (checkSensitivity_eq_ok_iff.1 hs).1
  have hsensitivity : Below s s := .refl hpos (isFinite_of_checkSensitivity hs)
  exact hsensitivity.mul (below_scaledDeviation hc hd h) ht

namespace Band

structure WellFormed (c : Config) (b : Band) : Prop where
  width_pos : 0 < b.width
  length_centres : b.centres.length = b.width
  length_tolerances : (b.features.map Feature.tolerance).length = b.width
  sampleCount_pos : 0 < b.sampleCount
  sensitivity : zero < b.sensitivity ∧ b.sensitivity < one
  isFinite : ∀ f ∈ b.features, f.isFinite = true
  least_le_tolerance : ∀ f ∈ b.features, b.sensitivity * c.leastDeviation f.centre ≤ f.tolerance
  tolerance : ∀ f ∈ b.features, f.tolerance.isNaN = false ∧ zero ≤ f.tolerance

structure FittedTo (c : Config) (xs : Samples) (b : Band) : Prop where
  width_eq : b.width = xs.width
  sampleCount_eq : b.sampleCount = xs.height
  tolerance_eq : ∀ (j : Nat) (column : Summary) (f : Feature), (xs.summaries c.reference)[j]? = some column →
    b.features[j]? = some f → column.dispersion.same zero = true →
      f.tolerance = b.sensitivity * c.leastDeviation f.centre

variable {c : Config} {s : Binary64} {xs : Samples} {b : Band}

theorem wellFormed_of_fit (hc : c.validate = .ok ()) (h : fit xs s c = .ok b) : b.WellFormed c := by
  obtain ⟨hs, hcheck, hfinite, hb⟩ := fit_eq_ok_iff.1 h
  obtain ⟨⟨hheight, hwidth⟩, -⟩ := Samples.check_eq_ok_iff.1 hcheck
  have hsensitivity : b.sensitivity = s := hb ▸ rfl
  have hcount : b.sampleCount = xs.height := hb ▸ rfl
  have hbelow : ∀ f ∈ b.features, Below (s * c.leastDeviation f.centre) f.tolerance := by
    rw [forall_features_of_fit h]
    intro column hcolumn
    obtain ⟨hfeature, hdispersion⟩ := isFinite_feature_of_fit h hcolumn
    exact Config.below_tolerance hc hs hdispersion hfeature
  constructor
  case width_pos => exact width_of_fit h ▸ Nat.pos_of_ne_zero hwidth
  case length_centres => exact List.length_map ..
  case length_tolerances => exact List.length_map ..
  case sampleCount_pos => exact hcount ▸ Nat.pos_of_ne_zero hheight
  case sensitivity => exact hsensitivity ▸ checkSensitivity_eq_ok_iff.1 hs
  case isFinite => exact (forall_features_of_fit h).2 hfinite
  case least_le_tolerance => exact fun f hf => hsensitivity ▸ (hbelow f hf).le
  case tolerance =>
    intro f hf
    exact ⟨isNaN_of_isFinite (hbelow f hf).isFinite_right, Binary64.le_trans (hbelow f hf).zero_le (hbelow f hf).le⟩

theorem fittedTo_of_fit (hc : c.validate = .ok ()) (h : fit xs s c = .ok b) : b.FittedTo c xs := by
  have hwidth := width_of_fit h
  obtain ⟨hs, -, hfinite, rfl⟩ := fit_eq_ok_iff.1 h
  refine ⟨hwidth, rfl, fun j column f hcolumn hf hzero => ?_⟩
  rw [List.getElem?_map, hcolumn] at hf
  obtain rfl : c.feature s column = f := Option.some.inj hf
  obtain ⟨hcentre, -⟩ := Config.isFinite_of_isFinite_feature (hfinite column (List.mem_of_getElem? hcolumn))
  obtain ⟨z, hz⟩ := same_zero_iff.1 hzero
  have hscaled := Config.scaledDeviation_of_zero hc hcentre z
  rw [← hz] at hscaled
  exact congrArg (s * ·) hscaled

end Band

theorem Classifier.withConfig_default {κ : Type} : withConfig Config.default = .ok (new : Classifier κ) :=
  withConfig_eq_ok_iff.2 ⟨by decide +kernel, rfl⟩

namespace Session

variable {κ : Type} [DecidableEq κ]

theorem Reflects.exists_fit {config : Config} {past : List (Event κ)} {c : Classifier κ} (h : Reflects config past c)
    {id : κ} {b : Band} (hb : c.band? id = some b) : ∃ batch xs,
      latestFit? id past = some (batch, b.sensitivity) ∧ batch.samples = .ok xs ∧
        Band.fit xs b.sensitivity config = .ok b := by
  have hbands := h.bands id
  rw [hb, Option.map_some, eq_comm, Option.map_eq_some_iff] at hbands
  obtain ⟨⟨batch, s⟩, hlatest, hrefit⟩ := hbands
  unfold refit at hrefit
  cases hx : batch.samples with
  | error fault => rw [hx] at hrefit; cases hrefit
  | ok xs =>
    rw [hx] at hrefit
    obtain ⟨-, -, -, rfl⟩ := Band.fit_eq_ok_iff.1 hrefit
    exact ⟨batch, xs, hlatest, hx, hrefit⟩

variable [Identifier κ]

theorem reflects_run {c : Classifier κ} (hc : c = .new ∨ ∃ config, Classifier.withConfig config = .ok c)
    (steps : List (Step κ)) :
    let t := ((start c).run steps).1.classifier
    t.config.validate = .ok () ∧ Reflects t.config ((start c).events steps) t := by
  intro t
  obtain ⟨config, hconfig⟩ : ∃ config, Classifier.withConfig config = .ok c := by
    rcases hc with rfl | hc
    · exact ⟨_, Classifier.withConfig_default⟩
    · exact hc
  have hvalid := (Classifier.withConfig_eq_ok_iff.1 hconfig).1
  have hreflects := ((follows_start hconfig).run steps).current
  rw [List.append_nil] at hreflects
  rw [hreflects.config_eq]
  exact ⟨hvalid, hreflects⟩

theorem bands_wellFormed {c : Classifier κ} (hc : c = .new ∨ ∃ config, Classifier.withConfig config = .ok c)
    (steps : List (Step κ)) :
    let t := ((start c).run steps).1.classifier
    t.config.validate = .ok () ∧ ∀ id b, t.band? id = some b → b.WellFormed t.config ∧ ∃ batch xs,
      latestFit? id ((start c).events steps) = some (batch, b.sensitivity) ∧ batch.samples = .ok xs ∧
        b.FittedTo t.config xs := by
  intro t
  obtain ⟨hvalid, hreflects⟩ := reflects_run hc steps
  refine ⟨hvalid, fun id b hb => ?_⟩
  obtain ⟨batch, xs, hlatest, hx, hfit⟩ := hreflects.exists_fit hb
  exact ⟨Band.wellFormed_of_fit hvalid hfit, batch, xs, hlatest, hx, Band.fittedTo_of_fit hvalid hfit⟩

theorem bands_wellFormed_restored :
    let t := ((start (Classifier.new : Classifier Int)).run restoredSteps).1.classifier
    let b : Band := ⟨[⟨one, one / two⟩, ⟨two, one⟩], one / two, 1⟩
    ((Classifier.new : Classifier Int) = .new ∨ ∃ config, Classifier.withConfig config = .ok (.new : Classifier Int)) ∧
      t.config.validate = .ok () ∧ t.band? 1 = some b ∧ b.WellFormed t.config := by
  intro t b
  obtain ⟨hvalid, hbands⟩ := bands_wellFormed (.inl rfl) restoredSteps
  have hb : t.band? 1 = some b := by decide +kernel
  exact ⟨.inl rfl, hvalid, hb, (hbands 1 b hb).1⟩

end Session

end OutlierBand
