import OutlierBand.Prediction
import OutlierBand.Proofs.NumberOrder

namespace OutlierBand

open Binary64

namespace Binary64

theorem div_le_div_right {a b c : Binary64} (ha : a.isFinite = true) (hb : b.isFinite = true) (hc : c.isFinite = true)
    (hpos : 0 < c.value) (h : a ≤ b) : a / c ≤ b / c := by
  obtain ⟨y, hy⟩ := exists_div_eq_nearest ha hc hpos.ne'
  obtain ⟨z, hz⟩ := exists_div_eq_nearest hb hc hpos.ne'
  rw [hy, hz]
  apply nearest_le_nearest
  exact div_le_div_of_nonneg_right ((le_iff_value_le ha hb).1 h) hpos.le

theorem div_self_eq_one {a : Binary64} (ha : a.isFinite = true) (h0 : a.value ≠ 0) : a / a = one := by
  obtain ⟨s, m, rfl⟩ := exists_finite ha
  have hm := (value_ne_zero_iff s m).1 h0
  rw [div_def, div, if_neg hm, bne_self_eq_false, one, ofNat]
  apply round_congr false (Nat.pos_of_ne_zero hm) Nat.one_pos
  ring

theorem value_ofNat_mul {n : Nat} (h : (ofNat n).isFinite = true) :
    (ofNat n).value * unitsInOne = roundUnits (n * unitsInOne) 1 := by
  unfold ofNat round at h ⊢
  split_ifs at h ⊢
  · rw [value_finite_mul]
    rfl
  · cases h

theorem value_ofNat_le_two_mul {m n : Nat} (hm : (ofNat m).isFinite = true) (hn : (ofNat n).isFinite = true)
    (h0 : m ≠ 0) (h : n ≤ 2 * m) : (ofNat n).value ≤ 2 * (ofNat m).value := by
  have hlarge : 2 ^ 52 ≤ m * unitsInOne / 1 := by
    rw [Nat.div_one]
    exact (two_pow_le_unitsInOne (by decide)).trans (Nat.le_mul_of_pos_left _ (Nat.pos_of_ne_zero h0))
  have hround : roundUnits (n * unitsInOne) 1 ≤ 2 * roundUnits (m * unitsInOne) 1 := by
    rw [← roundUnits_two_mul Nat.one_pos hlarge, ← Nat.mul_assoc]
    exact roundUnits_mono Nat.one_pos Nat.one_pos (Nat.mul_le_mul_right _ (Nat.mul_le_mul_right _ h))
  apply le_of_mul_le_mul_right _ cast_unitsInOne_pos
  rw [mul_assoc, value_ofNat_mul hm, value_ofNat_mul hn]
  exact_mod_cast hround

theorem ofNat_zero_div {n : Nat} (h0 : 0 < n) (hn : n < 2 ^ 64) : ofNat 0 / ofNat n = zero := by
  have hzero : ofNat 0 = zero := round_eq_zero false (by omega)
  rw [hzero, zero_div_ofNat h0 hn]

theorem ofNat_div_ofNat {m n : Nat} (hm : m ≤ 2 ^ 53) (hn : n ≤ 2 ^ 53) (h0 : n ≠ 0) :
    ofNat m / ofNat n = nearest false (m / n) := by
  obtain ⟨p, hp, -⟩ := exists_ofNat hm
  obtain ⟨q, hq, hunits⟩ := exists_ofNat hn
  have hq0 : q.units ≠ 0 := hunits ▸ Nat.mul_ne_zero h0 unitsInOne_pos.ne'
  rw [← value_ofNat hm, ← value_ofNat hn, hp, hq, div_finite false false p hq0, bne_self_eq_false]

end Binary64

theorem Label.ofScore_eq_inlier_iff {score : Binary64} : ofScore score = inlier ↔ score ≤ one := by
  unfold ofScore
  split_ifs with h <;> simp [h]

namespace Band

theorem labels_predict (b : Band) (xs : Samples) :
    (b.predict xs).labels = xs.rows.map fun x => Label.ofScore (b.score x) := List.map_map

theorem count_inlier_predict (b : Band) (xs : Samples) :
    (b.predict xs).labels.count .inlier = xs.rows.countP b.contains := by
  rw [labels_predict, List.count, List.countP_map]
  apply List.countP_congr
  intro x _
  simp [Label.ofScore_eq_inlier_iff, contains]

theorem confidence_predict (b : Band) {xs : Samples} (h : xs.height ≠ 0) :
    (b.predict xs).confidence = ofNat (xs.rows.countP b.contains) / ofNat xs.height := by
  have hlength : (b.predict xs).labels.length = xs.height := by
    rw [labels_predict, List.length_map, xs.length_rows]
  have hne : (b.predict xs).labels ≠ [] := by
    rw [← List.length_pos_iff, hlength]
    exact Nat.pos_of_ne_zero h
  rw [Prediction.confidence, Label.inlierFraction, if_neg hne, count_inlier_predict, hlength]

theorem half_le_confidence_predict {b : Band} {xs : Samples} (h0 : xs.height ≠ 0) (hrows : xs.height < 2 ^ 64)
    (h : xs.height ≤ 2 * xs.rows.countP b.contains) : one / two ≤ (b.predict xs).confidence := by
  have hcount : xs.rows.countP b.contains < 2 ^ 64 := (List.countP_le_length.trans_eq xs.length_rows).trans_lt hrows
  have hfinite := isFinite_ofNat_of_lt hcount
  have hpos := value_ofNat_pos (Nat.pos_of_ne_zero h0) hrows
  obtain ⟨y, hy⟩ := exists_div_eq_nearest isFinite_one isFinite_two (by rw [value_two]; exact two_ne_zero)
  obtain ⟨z, hz⟩ := exists_div_eq_nearest hfinite (isFinite_ofNat_of_lt hrows) hpos.ne'
  rw [confidence_predict b h0, hy, hz, value_one, value_two]
  apply nearest_le_nearest
  rw [div_le_div_iff₀ two_pos hpos, one_mul, mul_comm]
  exact value_ofNat_le_two_mul hfinite (isFinite_ofNat_of_lt hrows) (by omega) h

theorem confidence_predict_le {a b : Band} {xs : Samples} (h0 : xs.height ≠ 0) (hrows : xs.height < 2 ^ 64)
    (h : ∀ x ∈ xs.rows, a.contains x = true → b.contains x = true) :
    (a.predict xs).confidence ≤ (b.predict xs).confidence := by
  have count_lt (c : Band) : xs.rows.countP c.contains < 2 ^ 64 :=
    (List.countP_le_length.trans_eq xs.length_rows).trans_lt hrows
  rw [confidence_predict a h0, confidence_predict b h0]
  apply div_le_div_right (isFinite_ofNat_of_lt (count_lt a)) (isFinite_ofNat_of_lt (count_lt b))
    (isFinite_ofNat_of_lt hrows) (value_ofNat_pos (Nat.pos_of_ne_zero h0) hrows)
  exact ofNat_le_ofNat (List.countP_mono_left h)

end Band

end OutlierBand
