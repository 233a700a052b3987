import OutlierBand.Proofs.InlierShare
import OutlierBand.Proofs.PredictOutcome
import OutlierBand.Proofs.RoundingError

namespace OutlierBand

open Binary64

namespace Label

theorem mem_outlierIndices_iff {labels : List Label} {i : Nat} :
    i ∈ outlierIndices labels ↔ labels[i]? = some outlier := by
  unfold outlierIndices
  rw [List.mem_filterMap]
  constructor
  · rintro ⟨⟨label, j⟩, hmem, h⟩
    rw [List.mk_mem_zipIdx_iff_getElem?] at hmem
    cases label with
    | inlier => cases h
    | outlier =>
      obtain rfl : j = i := Option.some.inj h
      exact hmem
  · intro h
    exact ⟨(outlier, i), List.mk_mem_zipIdx_iff_getElem?.2 h, rfl⟩

theorem pairwise_outlierIndices (labels : List Label) : (outlierIndices labels).Pairwise (· < ·) := by
  have hplaces : labels.zipIdx.Pairwise fun a b => a.2 < b.2 := by
    rw [← List.pairwise_map, List.zipIdx_map_snd]
    exact List.pairwise_lt_range' 1
  apply hplaces.filterMap
  rintro ⟨label, i⟩ ⟨label', j⟩ hij a ha b hb
  cases label with
  | inlier => cases ha
  | outlier =>
    cases label' with
    | inlier => cases hb
    | outlier =>
      cases ha
      cases hb
      exact hij

theorem length_outlierIndices (labels : List Label) : (outlierIndices labels).length = labels.count outlier := by
  unfold outlierIndices
  rw [List.length_filterMap_eq_countP]
  conv_rhs => rw [← List.zipIdx_map_fst 0 labels, List.count, List.countP_map]
  apply List.countP_congr
  rintro ⟨label, i⟩ -
  cases label <;> simp [isInlier]

theorem count_inlier_add_count_outlier (labels : List Label) :
    labels.count inlier + labels.count outlier = labels.length := by
  rw [List.length_eq_countP_add_countP (· == inlier)]
  congr 1
  apply List.countP_congr
  rintro label -
  cases label <;> decide

theorem value_eq_one_iff {label : Label} : label.value = 1 ↔ label = inlier := by
  cases label <;> decide

theorem ne_outlier_iff {label : Label} : label ≠ outlier ↔ label = inlier := by
  cases label <;> decide

end Label

namespace Binary64

theorem ne_of_lt {a b : Binary64} (h : a < b) : a ≠ b := by
  rintro rfl
  exact not_lt_of_le (le_of_lt h) h

theorem nearest_mem_unit (z : Bool) {q : ℚ} (h0 : 0 ≤ q) (h1 : q ≤ 1) :
    (nearest z q).isFinite = true ∧ zero ≤ nearest z q ∧ nearest z q ≤ one := by
  have hlow := zero_le_nearest z h0
  have hhigh : nearest z q ≤ one := by
    have h := nearest_le_nearest z false h1
    rwa [← Nat.cast_one, ← ofNat_eq_nearest] at h
  exact ⟨isFinite_of_le_of_le isFinite_zero isFinite_one hlow hhigh, hlow, hhigh⟩

theorem abs_value_nearest_sub_le_of_unit (z : Bool) {q : ℚ} (h0 : 0 ≤ q) (h1 : q ≤ 1) :
    |(nearest z q).value - q| ≤ roundoff * q + halfUnit := by
  have h := abs_value_nearest_sub_le (nearest_mem_unit z h0 h1).1
  rwa [abs_of_nonneg h0] at h

theorem two_mul_halfUnit_le : 2 * halfUnit ≤ roundoff * roundoff := by
  have h := two_pow_mul_halfUnit_le (a := 1) (e := 106) (by decide)
  rw [roundoff]
  linarith

variable {k l n : Nat} {r : ℚ}

theorem share_add_le_share (hkl : k < l) (h0 : 0 < n) (hr : n * r ≤ 1) : (k : ℚ) / n + r ≤ l / n := by
  have hn : (0 : ℚ) < n := Nat.cast_pos.2 h0
  have hstep : (k : ℚ) + 1 ≤ l := by exact_mod_cast hkl
  rw [div_add' _ _ _ hn.ne']
  apply div_le_div_of_nonneg_right _ hn.le
  linarith

theorem share_nonneg (k n : Nat) : (0 : ℚ) ≤ k / n := div_nonneg (Nat.cast_nonneg k) (Nat.cast_nonneg n)

theorem share_le_one (hk : k ≤ n) : (k : ℚ) / n ≤ 1 :=
  div_le_one_of_le₀ (Nat.cast_le.2 hk) (Nat.cast_nonneg n)

theorem nearest_share_lt_one (hk : k < n) (hn : n ≤ 2 ^ 53) : nearest false (k / n) < one := by
  -- The share that is next to one is a number itself, or there are numbers between it and one.
  have hn0 := Nat.zero_lt_of_lt hk
  have hstep := share_add_le_share hk hn0 (mul_roundoff_le_one hn)
  rw [div_self (Nat.cast_ne_zero.2 hn0.ne')] at hstep
  obtain ⟨hfinite, -⟩ := nearest_mem_unit false (share_nonneg k n) (share_le_one hk.le)
  have herror := (abs_le.1 (abs_value_nearest_sub_le_of_unit false (share_nonneg k n) (share_le_one hk.le))).2
  have htiny := two_mul_halfUnit_le
  have hpos := halfUnit_pos
  have hscaled := mul_le_mul_of_nonneg_left hstep roundoff_pos.le
  rw [lt_iff_value_lt hfinite isFinite_one, value_one]
  linarith

theorem zero_lt_nearest_share (hk : 0 < k) (h0 : 0 < n) (hn : n ≤ 2 ^ 53) : zero < nearest false (k / n) := by
  have hstep := share_add_le_share hk h0 (mul_roundoff_le_one hn)
  have hunit : roundoff * roundoff ≤ roundoff := mul_le_of_le_one_left roundoff_pos.le (by norm_num [roundoff])
  have htiny := two_mul_halfUnit_le
  have hpos := halfUnit_pos
  rw [zero_lt_nearest_iff]
  rw [Nat.cast_zero, zero_div, zero_add] at hstep
  linarith

theorem nearest_share_eq_one_iff (hk : k ≤ n) (h0 : n ≠ 0) (hn : n ≤ 2 ^ 53) :
    nearest false (k / n) = one ↔ k = n := by
  constructor
  · intro h
    by_contra hne
    exact ne_of_lt (nearest_share_lt_one (Nat.lt_of_le_of_ne hk hne) hn) h
  · rintro rfl
    rw [div_self (Nat.cast_ne_zero.2 h0), one, ofNat_eq_nearest, Nat.cast_one]

theorem nearest_share_eq_zero_iff (h0 : 0 < n) (hn : n ≤ 2 ^ 53) : nearest false (k / n) = zero ↔ k = 0 := by
  constructor
  · intro h
    by_contra hne
    exact ne_of_lt (zero_lt_nearest_share (Nat.pos_of_ne_zero hne) h0 hn) h.symm
  · rintro rfl
    rw [Nat.cast_zero, zero_div, nearest_zero]
    rfl

theorem nearest_share_lt_nearest_share (hkl : k < l) (hl : l ≤ n) (hn : n ≤ 2 ^ 52) :
    nearest false (k / n) < nearest false (l / n) := by
  have hn0 := (Nat.zero_lt_of_lt hkl).trans_le hl
  have hroom : n * (2 * roundoff) ≤ 1 := by
    have h := mul_roundoff_le_one (n := 2 * n) (by omega)
    rw [Nat.cast_mul, Nat.cast_ofNat] at h
    linarith
  have hstep := share_add_le_share hkl hn0 hroom
  have hp1 := share_le_one (hkl.le.trans hl)
  have hq1 := share_le_one hl
  obtain ⟨hp, -⟩ := nearest_mem_unit false (share_nonneg k n) hp1
  obtain ⟨hq, -⟩ := nearest_mem_unit false (share_nonneg l n) hq1
  have hlow := (abs_le.1 (abs_value_nearest_sub_le_of_unit false (share_nonneg k n) hp1)).2
  have hhigh := (abs_le.1 (abs_value_nearest_sub_le_of_unit false (share_nonneg l n) hq1)).1
  have htiny := two_mul_halfUnit_le
  have hpos := halfUnit_pos
  -- Each is moved by at most half of the step, and the lower one by less.
  have hscaled := mul_le_mul_of_nonneg_left (add_le_add hstep hq1) roundoff_pos.le
  have hupper := mul_le_mul_of_nonneg_left hq1 roundoff_pos.le
  rw [lt_iff_value_lt hp hq]
  linarith

end Binary64

namespace Band

variable {b : Band} {xs : Samples}

theorem getElem?_labels_predict (b : Band) {i : Nat} {row : List Binary64} (h : xs.rows[i]? = some row) :
    (b.predict xs).labels[i]? = some (.ofScore (b.score row)) := by
  rw [labels_predict, List.getElem?_map, h, Option.map_some]

structure Views (b : Band) (xs : Samples) (p : Prediction) : Prop where
  length_scores : p.scores.length = xs.height
  length_labels : p.labels.length = xs.height
  length_labelValues : p.labelValues.length = xs.height
  row_tfae : ∀ (i : Nat) (row : List Binary64), xs.rows[i]? = some row →
    [p.labels[i]? = some .inlier, ∃ score, p.scores[i]? = some score ∧ score ≤ one, b.contains row = true,
      p.labelValues[i]? = some 1, i ∉ p.outliers].TFAE
  pairwise_outliers : p.outliers.Pairwise (· < ·)
  lt_of_mem_outliers : ∀ i ∈ p.outliers, i < xs.height
  confidence_eq : p.confidence = nearest false ((xs.height - p.outliers.length) / xs.height)
  confidence_mem : zero ≤ p.confidence ∧ p.confidence ≤ one
  confidence_eq_one_iff : p.confidence = one ↔ p.outliers = []
  confidence_eq_zero_iff : p.confidence = zero ↔ ∀ i < xs.height, i ∈ p.outliers

theorem row_tfae_predict (b : Band) {i : Nat} {row : List Binary64} (h : xs.rows[i]? = some row) :
    [(b.predict xs).labels[i]? = some .inlier, ∃ score, (b.predict xs).scores[i]? = some score ∧ score ≤ one,
      b.contains row = true, (b.predict xs).labelValues[i]? = some 1, i ∉ (b.predict xs).outliers].TFAE := by
  have hlabel := b.getElem?_labels_predict h
  have hscore : (b.predict xs).scores[i]? = some (b.score row) := by
    rw [predict, scores, List.getElem?_map, h, Option.map_some]
  have hvalue : (b.predict xs).labelValues[i]? = some (Label.ofScore (b.score row)).value := by
    rw [Prediction.labelValues, List.getElem?_map, hlabel, Option.map_some]
  apply List.tfae_of_forall (b.score row ≤ one)
  simp only [List.forall_mem_cons, List.not_mem_nil, false_implies, implies_true, and_true]
  refine ⟨?_, ?_, ?_, ?_, ?_⟩
  · rw [hlabel, Option.some_inj, Label.ofScore_eq_inlier_iff]
  · simp only [hscore, Option.some.injEq, exists_eq_left']
  · rw [contains, decide_eq_true_eq]
  · rw [hvalue, Option.some_inj, Label.value_eq_one_iff, Label.ofScore_eq_inlier_iff]
  · rw [Prediction.outliers, Label.mem_outlierIndices_iff, hlabel, Option.some_inj, ← ne_eq, Label.ne_outlier_iff,
      Label.ofScore_eq_inlier_iff]

theorem countP_contains_add_length_outliers (b : Band) (xs : Samples) :
    xs.rows.countP b.contains + (b.predict xs).outliers.length = xs.height := by
  rw [← count_inlier_predict, Prediction.outliers, Label.length_outlierIndices, Label.count_inlier_add_count_outlier,
    labels_predict, List.length_map, xs.length_rows]

theorem confidence_predict_eq_nearest (b : Band) (h0 : xs.height ≠ 0) (hn : xs.height ≤ 2 ^ 53) :
    (b.predict xs).confidence = nearest false (xs.rows.countP b.contains / xs.height) := by
  have hle : xs.rows.countP b.contains ≤ xs.height := List.countP_le_length.trans_eq xs.length_rows
  rw [confidence_predict b h0, ofNat_div_ofNat (hle.trans hn) hn h0]

theorem forall_mem_outliers_iff (b : Band) (xs : Samples) :
    (∀ i < xs.height, i ∈ (b.predict xs).outliers) ↔ xs.rows.countP b.contains = 0 := by
  rw [List.countP_eq_zero]
  constructor
  · intro hall row hrow
    obtain ⟨i, hi⟩ := List.getElem?_of_mem hrow
    have houtlier := hall i (Samples.lt_height_of_getElem?_rows hi)
    exact mt ((b.row_tfae_predict hi).out 2 4).1 (not_not.2 houtlier)
  · intro hnone i hi
    have hrow := List.getElem?_eq_getElem (xs.length_rows ▸ hi : i < xs.rows.length)
    exact not_not.1 (mt ((b.row_tfae_predict hrow).out 2 4).2 (hnone _ (List.getElem_mem _)))

theorem views_predict (b : Band) (h0 : xs.height ≠ 0) (hn : xs.height ≤ 2 ^ 53) : b.Views xs (b.predict xs) := by
  have hlength : (b.predict xs).scores.length = xs.height := (List.length_map _).trans xs.length_rows
  have hlabels : (b.predict xs).labels.length = xs.height := (List.length_map _).trans hlength
  have hlt : ∀ i ∈ (b.predict xs).outliers, i < xs.height := by
    intro i hi
    rw [← hlabels]
    exact (List.getElem?_eq_some_iff.1 (Label.mem_outlierIndices_iff.1 hi)).1
  have hcount := countP_contains_add_length_outliers b xs
  have hinliers : (xs.rows.countP b.contains : ℚ) = xs.height - (b.predict xs).outliers.length := by
    rw [← hcount]
    push_cast
    ring
  have hconfidence := b.confidence_predict_eq_nearest h0 hn
  constructor
  case length_scores => exact hlength
  case length_labels => exact hlabels
  case length_labelValues => exact (List.length_map _).trans hlabels
  case row_tfae => exact fun i row => b.row_tfae_predict
  case pairwise_outliers => exact Label.pairwise_outlierIndices _
  case lt_of_mem_outliers => exact hlt
  case confidence_eq => rw [hconfidence, hinliers]
  case confidence_mem =>
    rw [hconfidence]
    exact (nearest_mem_unit false (share_nonneg _ _) (share_le_one (by omega))).2
  case confidence_eq_one_iff =>
    rw [hconfidence, nearest_share_eq_one_iff (by omega) h0 hn, ← List.length_eq_zero_iff]
    omega
  case confidence_eq_zero_iff =>
    rw [hconfidence, nearest_share_eq_zero_iff (Nat.pos_of_ne_zero h0) hn, forall_mem_outliers_iff]

end Band

namespace Classifier

variable {κ : Type} [DecidableEq κ] [Identifier κ] {c : Classifier κ} {id : κ} {xs : Samples} {p : Prediction}

/-- All views of a prediction for up to `2 ^ 53` rows agree with each other and with the band of the identifier; and of
two predictions for equally many rows, up to `2 ^ 52`, the one with more inliers has the greater confidence. -/
theorem predict_views (h : c.predict id xs = .ok p) (hn : xs.height ≤ 2 ^ 53) :
    (∃ b, c.band? id = some b ∧ b.Views xs p) ∧
      ∀ (d : Classifier κ) (other : κ) (ys : Samples) (q : Prediction), d.predict other ys = .ok q →
        ys.height = xs.height → xs.height ≤ 2 ^ 52 → p.labels.count .inlier < q.labels.count .inlier →
          p.confidence < q.confidence := by
  obtain ⟨b, hb, hxs, -, rfl⟩ := predict_eq_ok_iff.1 h
  have h0 := (Samples.check_eq_ok_iff.1 hxs).1.1
  refine ⟨⟨b, hb, b.views_predict h0 hn⟩, fun d other ys q hq hheight hroom hlt => ?_⟩
  obtain ⟨a, -, -, -, rfl⟩ := predict_eq_ok_iff.1 hq
  have hle : ys.rows.countP a.contains ≤ xs.height :=
    (List.countP_le_length.trans_eq ys.length_rows).trans_eq hheight
  rw [Band.count_inlier_predict, Band.count_inlier_predict] at hlt
  rw [b.confidence_predict_eq_nearest h0 hn,
    a.confidence_predict_eq_nearest (hheight.trans_ne h0) (hheight.trans_le hn), hheight]
  exact nearest_share_lt_nearest_share hlt hle hroom

theorem predict_views_three_rows :
    let b : Band := ⟨[⟨one, one / two⟩], one / two, 1⟩
    let c : Classifier Int := ⟨.default, Registry.empty.insert 1 b⟩
    let xs : Samples := ⟨3, 1, [one, two, zero], .rowMajor, rfl⟩
    let ys : Samples := ⟨3, 1, [one, two, one], .columnMajor, rfl⟩
    ∃ p q, c.predict 1 xs = .ok p ∧ c.predict 1 ys = .ok q ∧ p.outliers = [1, 2] ∧ q.outliers = [1] ∧
      b.Views xs p ∧ b.Views ys q ∧ p.confidence < q.confidence := by
  intro b c xs ys
  have hb : c.band? 1 = some b := Registry.find?_insert_self ..
  have hp : c.predict 1 xs = .ok (b.predict xs) := predict_eq_ok_iff.2 ⟨b, hb, by decide +kernel, rfl, rfl⟩
  have hq : c.predict 1 ys = .ok (b.predict ys) := predict_eq_ok_iff.2 ⟨b, hb, by decide +kernel, rfl, rfl⟩
  obtain ⟨⟨b₁, hb₁, hxs⟩, hgreater⟩ := predict_views hp (by decide)
  obtain ⟨⟨b₂, hb₂, hys⟩, -⟩ := predict_views hq (by decide)
  obtain rfl : b = b₁ := Option.some.inj (hb.symm.trans hb₁)
  obtain rfl : b = b₂ := Option.some.inj (hb.symm.trans hb₂)
  exact ⟨_, _, hp, hq, by decide +kernel, by decide +kernel, hxs, hys,
    hgreater c 1 ys _ hq rfl (by decide) (by decide +kernel)⟩

end Classifier

end OutlierBand
