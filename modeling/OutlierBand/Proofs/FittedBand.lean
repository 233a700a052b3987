import OutlierBand.Proofs.BandScore
import OutlierBand.Proofs.ColumnSummary
import OutlierBand.Proofs.MagnitudeBound

namespace OutlierBand

open Binary64

theorem findIdx?_eq_of_forall₂ {α β : Type} {p : α → Bool} {q : β → Bool} {l : List α} {l' : List β}
    (h : List.Forall₂ (fun a b => p a = q b) l l') : l.findIdx? p = l'.findIdx? q := by
  induction h with
  | nil => rfl
  | cons hab _ ih => rw [List.findIdx?_cons, List.findIdx?_cons, hab, ih]

theorem isFinite_of_checkSensitivity {s : Binary64} (h : checkSensitivity s = .ok ()) : s.isFinite = true := by
  obtain ⟨h0, h1⟩ := checkSensitivity_eq_ok_iff.1 h
  exact isFinite_of_le_of_le isFinite_zero isFinite_one (le_of_lt h0) (le_of_lt h1)

theorem within_sensitivity {s : Binary64} (h : checkSensitivity s = .ok ()) : Within 1 s := by
  have hfinite := isFinite_of_checkSensitivity h
  obtain ⟨h0, h1⟩ := checkSensitivity_eq_ok_iff.1 h
  have hle := le_of_lt h1
  rw [le_iff_value_le hfinite isFinite_one, value_one] at hle
  exact within_of_value_le hfinite (le_of_lt h0) hle

theorem isFinite_sensitivity_mul {s : Binary64} (h : checkSensitivity s = .ok ()) (k : Binary64) :
    (s * k).isFinite = k.isFinite := by
  rw [Bool.eq_iff_iff]
  constructor
  · exact fun hproduct => (isFinite_of_mul hproduct).2
  · intro hk
    have hexact : Exact |k.value| := ⟨k.abs, by rwa [isFinite_abs], value_abs k⟩
    exact ((within_sensitivity h).mul ⟨hk, le_refl _⟩ hexact (one_mul _).le).isFinite

namespace Config

variable {c : Config} {s : Binary64} {column : Summary}

theorem zero_le_deviationScale (h : c.validate = .ok ()) : zero ≤ c.deviationScale := by
  obtain ⟨⟨hf, h⟩, -⟩ := validate_eq_ok_iff.1 h
  exact zero_le_of_not_lt hf h

theorem zero_lt_minTolerance (h : c.validate = .ok ()) : zero < c.minTolerance := by
  obtain ⟨-, hf, h⟩ := validate_eq_ok_iff.1 h
  exact zero_lt_of_not_le hf h

def scaledDeviation (c : Config) (column : Summary) : Binary64 :=
  c.deviationScale * column.dispersion + column.centre.abs.maxNum c.minTolerance

theorem tolerance_feature (c : Config) (s : Binary64) (column : Summary) :
    (c.feature s column).tolerance = s * c.scaledDeviation column := rfl

def leastDeviation (c : Config) (centre : Binary64) : Binary64 := centre.abs.maxNum c.minTolerance

theorem minTolerance_le_leastDeviation (hc : c.validate = .ok ()) {centre : Binary64}
    (hcentre : centre.isFinite = true) : c.minTolerance ≤ c.leastDeviation centre := by
  obtain ⟨-, hleast, -⟩ := validate_eq_ok_iff.1 hc
  exact le_maxNum_right (isNaN_of_isFinite (by rwa [isFinite_abs])) (isNaN_of_isFinite hleast)

theorem isFinite_leastDeviation (hc : c.validate = .ok ()) {centre : Binary64} (hcentre : centre.isFinite = true) :
    (c.leastDeviation centre).isFinite = true :=
  isFinite_maxNum (by rwa [isFinite_abs]) (validate_eq_ok_iff.1 hc).2.1

theorem zero_add_leastDeviation (hc : c.validate = .ok ()) {centre : Binary64} (hcentre : centre.isFinite = true)
    (y : Bool) : finite y .zero + c.leastDeviation centre = c.leastDeviation centre := by
  have hpos : zero < c.leastDeviation centre :=
    lt_of_lt_of_le (zero_lt_minTolerance hc) (minTolerance_le_leastDeviation hc hcentre)
  obtain ⟨m, hm, -⟩ := exists_finite_of_zero_lt (isFinite_leastDeviation hc hcentre) hpos
  rw [hm, add_finite, value_finite_zero, zero_add, Bool.and_false, nearest_value]

theorem scaledDeviation_of_zero (hc : c.validate = .ok ()) {centre : Binary64} (hcentre : centre.isFinite = true)
    (z : Bool) : c.scaledDeviation ⟨centre, finite z .zero⟩ = c.leastDeviation centre := by
  obtain ⟨⟨hscale, -⟩, -⟩ := validate_eq_ok_iff.1 hc
  obtain ⟨y, hy⟩ := mul_zero_eq hscale z
  change c.deviationScale * finite z .zero + c.leastDeviation centre = _
  rw [hy, zero_add_leastDeviation hc hcentre]

theorem isFinite_of_isFinite_feature (h : (c.feature s column).isFinite = true) :
    column.centre.isFinite = true ∧ (c.scaledDeviation column).isFinite = true ∧
      (c.deviationScale * column.dispersion).isFinite = true ∧ column.dispersion.isFinite = true := by
  obtain ⟨hc, ht⟩ := Bool.and_eq_true _ _ ▸ h
  have hk := (isFinite_of_mul ht).2
  have hd := (isFinite_of_add hk).1
  exact ⟨hc, hk, hd, (isFinite_of_mul hd).2⟩

theorem below_scaledDeviation (hc : c.validate = .ok ()) (hd : 0 ≤ column.dispersion.value)
    (h : (c.feature s column).isFinite = true) : Below (c.leastDeviation column.centre) (c.scaledDeviation column) := by
  obtain ⟨hcentre, hk, hproduct, hdispersion⟩ := isFinite_of_isFinite_feature h
  obtain ⟨⟨hscale, -⟩, hleast, -⟩ := validate_eq_ok_iff.1 hc
  have habs : column.centre.abs.isFinite = true := by rwa [isFinite_abs]
  have hscaled : Below c.deviationScale c.deviationScale := .refl (zero_le_deviationScale hc) hscale
  have hnonneg := (hscaled.mul (.refl ((zero_le_iff hdispersion).2 hd) hdispersion) hproduct).zero_le
  refine ⟨?_, le_add_of_zero_le hnonneg hproduct (isFinite_maxNum habs hleast), hk⟩
  exact Binary64.le_trans (le_of_lt (zero_lt_minTolerance hc)) (minTolerance_le_leastDeviation hc hcentre)

theorem minTolerance_le_scaledDeviation (hc : c.validate = .ok ()) (hd : 0 ≤ column.dispersion.value)
    (h : (c.feature s column).isFinite = true) : c.minTolerance ≤ c.scaledDeviation column :=
  Binary64.le_trans (minTolerance_le_leastDeviation hc (isFinite_of_isFinite_feature h).1)
    (below_scaledDeviation hc hd h).le

theorem zero_lt_scaledDeviation (hc : c.validate = .ok ()) (hd : 0 ≤ column.dispersion.value)
    (h : (c.feature s column).isFinite = true) : zero < c.scaledDeviation column :=
  lt_of_lt_of_le (zero_lt_minTolerance hc) (minTolerance_le_scaledDeviation hc hd h)

theorem exists_tolerance (hc : c.validate = .ok ()) (hs : checkSensitivity s = .ok ())
    (hd : 0 ≤ column.dispersion.value) (h : (c.feature s column).isFinite = true) :
    ∃ n, (c.feature s column).tolerance = finite false n := by
  obtain ⟨-, ht⟩ := Bool.and_eq_true _ _ ▸ h
  exact exists_finite_mul (checkSensitivity_eq_ok_iff.1 hs).1 (zero_lt_scaledDeviation hc hd h) ht

end Config

namespace Band

variable {c : Config} {s : Binary64} {xs : Samples} {b : Band}

theorem fit_of_check (hs : checkSensitivity s = .ok ()) (hxs : xs.check = .ok ()) : fit xs s c =
    match ((xs.summaries c.reference).map (c.feature s)).findIdx? (!·.isFinite) with
    | some j => .error (.overflow j)
    | none => .ok ⟨(xs.summaries c.reference).map (c.feature s), s, xs.height⟩ := by
  rw [fit, hs, hxs]
  rfl

theorem height_ne_zero_of_fit (h : fit xs s c = .ok b) : xs.height ≠ 0 :=
  (Samples.check_eq_ok_iff.1 (fit_eq_ok_iff.1 h).2.1).1.1

theorem width_of_fit (h : fit xs s c = .ok b) : b.width = xs.width := by
  obtain ⟨-, -, -, rfl⟩ := fit_eq_ok_iff.1 h
  exact (List.length_map _).trans (xs.length_summaries c.reference)

theorem forall_features_of_fit {p : Feature → Prop} (h : fit xs s c = .ok b) :
    (∀ f ∈ b.features, p f) ↔ ∀ column ∈ xs.summaries c.reference, p (c.feature s column) := by
  obtain ⟨-, -, -, rfl⟩ := fit_eq_ok_iff.1 h
  exact List.forall_mem_map

theorem isFinite_feature_of_fit (h : fit xs s c = .ok b) {column : Summary}
    (hcolumn : column ∈ xs.summaries c.reference) :
    (c.feature s column).isFinite = true ∧ 0 ≤ column.dispersion.value := by
  obtain ⟨-, -, hfinite, -⟩ := fit_eq_ok_iff.1 h
  refine ⟨hfinite column hcolumn, ?_⟩
  obtain ⟨values, -, rfl⟩ := List.mem_map.1 hcolumn
  exact c.reference.value_dispersion_nonneg _ _

theorem exists_tolerance_of_fit (hc : c.validate = .ok ()) (h : fit xs s c = .ok b) {f : Feature}
    (hf : f ∈ b.features) : f.centre.isFinite = true ∧ ∃ n, f.tolerance = finite false n := by
  revert f
  rw [forall_features_of_fit h]
  intro column hcolumn
  obtain ⟨hfinite, hdispersion⟩ := isFinite_feature_of_fit h hcolumn
  exact ⟨(Config.isFinite_of_isFinite_feature hfinite).1,
    Config.exists_tolerance hc (fit_eq_ok_iff.1 h).1 hdispersion hfinite⟩

end Band

end OutlierBand
