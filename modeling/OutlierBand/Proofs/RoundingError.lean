import OutlierBand.Proofs.NumberOrder

namespace OutlierBand.Binary64

def roundoff : ℚ := 1 / 2 ^ 53

theorem roundoff_pos : 0 < roundoff := div_pos one_pos (pow_pos two_pos 53)

theorem mul_roundoff_le_one {n : ℕ} (hn : n ≤ 2 ^ 53) : n * roundoff ≤ 1 := by
  have hn' : (n : ℚ) ≤ 2 ^ 53 := by exact_mod_cast hn
  rw [roundoff, mul_one_div]
  exact div_le_one_of_le₀ hn' (by positivity)

theorem value_nearest_of_isFinite {z : Bool} {q : ℚ} (h : (nearest z q).isFinite = true) :
    (nearest z q).value * unitsInOne = signed (q < 0) (roundUnits (q.num.natAbs * unitsInOne) q.den) := by
  obtain ⟨s, m, hm⟩ := exists_finite h
  have hplace := place?_nearest z q
  have hbound := abs_signed_lt s m
  rw [hm, place?_finite, Option.some_inj] at hplace
  rw [hm, value_finite_mul, hplace, Int.cast_inj]
  rw [hplace] at hbound
  unfold nearestPlace signed at hbound ⊢
  split_ifs at hbound ⊢ <;> omega

theorem abs_value_nearest_sub {z : Bool} {q : ℚ} (h : (nearest z q).isFinite = true) :
    |(nearest z q).value - q| * unitsInOne =
      |(roundUnits (q.num.natAbs * unitsInOne) q.den : ℚ) - |q| * unitsInOne| := by
  have hv := value_nearest_of_isFinite h
  generalize roundUnits (q.num.natAbs * unitsInOne) q.den = r at hv ⊢
  rw [← abs_of_pos cast_unitsInOne_pos, ← abs_mul, abs_of_pos cast_unitsInOne_pos, sub_mul, hv]
  generalize (unitsInOne : ℚ) = u
  by_cases hq : q < 0
  · rw [abs_of_neg hq, ← abs_neg]
    simp only [signed, hq, decide_true, if_true, Int.cast_neg, Int.cast_natCast]
    congr 1
    ring
  · rw [abs_of_nonneg (not_lt.1 hq)]
    simp only [signed, hq, decide_false, Bool.false_eq_true, if_false, Int.cast_natCast]

theorem abs_roundUnits_sub_le (q : ℚ) : ∃ grain : ℚ, (grain = 1 ∨ 2 ^ 52 * grain ≤ |q| * unitsInOne) ∧
    2 * |(roundUnits (q.num.natAbs * unitsInOne) q.den : ℚ) - |q| * unitsInOne| ≤ grain := by
  obtain ⟨grain, hlow, hhigh, hgrain⟩ := roundUnits_near (q.num.natAbs * unitsInOne) q.den_pos
  generalize roundUnits (q.num.natAbs * unitsInOne) q.den = r at *
  have hd : (0 : ℚ) < q.den := Nat.cast_pos.2 q.den_pos
  have hsize : (q.num.natAbs : ℚ) = |q| * q.den := by
    rw [Nat.cast_natAbs, Int.cast_abs, ← Rat.mul_den_eq_num, abs_mul, Nat.abs_cast]
  rw [← Nat.cast_le (α := ℚ)] at hlow hhigh
  push_cast [hsize] at hlow hhigh
  refine ⟨grain, ?_, ?_⟩
  · rcases hgrain with rfl | hgrain
    · exact .inl Nat.cast_one
    · right
      rw [← Nat.cast_le (α := ℚ)] at hgrain
      push_cast [hsize] at hgrain
      nlinarith
  · have hlow' : |q| * unitsInOne - r ≤ grain / 2 := by nlinarith
    have hhigh' : r - |q| * unitsInOne ≤ grain / 2 := by nlinarith
    have habs : |(r : ℚ) - |q| * unitsInOne| ≤ grain / 2 := abs_le.2 ⟨by linarith, hhigh'⟩
    linarith

theorem abs_value_nearest_sub_le {z : Bool} {q : ℚ} (h : (nearest z q).isFinite = true) :
    |(nearest z q).value - q| ≤ roundoff * |q| + halfUnit := by
  obtain ⟨grain, hgrain, herror⟩ := abs_roundUnits_sub_le q
  rw [← abs_value_nearest_sub h] at herror
  have hu := cast_unitsInOne_pos
  have hq := abs_nonneg q
  have hhalf : halfUnit * unitsInOne = 1 / 2 := by
    unfold halfUnit
    field_simp
  apply le_of_mul_le_mul_right _ hu
  rw [add_mul, hhalf, roundoff]
  rcases hgrain with rfl | hgrain
  · have : 0 ≤ 1 / 2 ^ 53 * |q| * unitsInOne := by positivity
    linarith
  · linarith

theorem natCast_eq_of_abs_sub_le {r k : Nat} (h : 2 * |(r : ℚ) - k| ≤ 1) : (r : ℚ) = k := by
  have hle : 2 * |(r : Int) - k| ≤ 1 := by exact_mod_cast h
  have h1 := le_abs_self ((r : Int) - k)
  have h2 := neg_abs_le ((r : Int) - k)
  have h0 : r = k := by omega
  rw [h0]

theorem abs_value_nearest_sub_le_of_int {z : Bool} {q : ℚ} {i : Int} (hi : q * unitsInOne = i)
    (h : (nearest z q).isFinite = true) : |(nearest z q).value - q| ≤ roundoff * |q| := by
  obtain ⟨grain, hgrain, herror⟩ := abs_roundUnits_sub_le q
  have hu := cast_unitsInOne_pos
  have habs : |q| * unitsInOne = i.natAbs := by
    rw [Nat.cast_natAbs, Int.cast_abs, ← hi, abs_mul, abs_of_pos hu]
  apply le_of_mul_le_mul_right _ hu
  rw [abs_value_nearest_sub h, mul_assoc]
  rw [habs] at hgrain herror ⊢
  generalize roundUnits (q.num.natAbs * unitsInOne) q.den = r at herror ⊢
  have hi0 : (0 : ℚ) ≤ i.natAbs := Nat.cast_nonneg _
  rcases hgrain with rfl | hgrain
  · -- Both are whole numbers, and less than one apart.
    rw [natCast_eq_of_abs_sub_le herror, sub_self, abs_zero]
    exact mul_nonneg roundoff_pos.le hi0
  · generalize (i.natAbs : ℚ) = k at *
    rw [roundoff]
    linarith

theorem abs_value_add_sub_le {a b : Binary64} (h : (a + b).isFinite = true) :
    |(a + b).value - (a.value + b.value)| ≤ roundoff * |a.value + b.value| := by
  obtain ⟨ha, hb⟩ := isFinite_of_add h
  obtain ⟨z, hz⟩ := exists_add_eq_nearest ha hb
  obtain ⟨s, m, rfl⟩ := exists_finite ha
  obtain ⟨t, n, rfl⟩ := exists_finite hb
  rw [hz] at h ⊢
  apply abs_value_nearest_sub_le_of_int (i := signed s m.units + signed t n.units) _ h
  rw [add_mul, value_finite_mul, value_finite_mul, Int.cast_add]

theorem abs_value_mul_sub_le {a b : Binary64} (h : (a * b).isFinite = true) :
    |(a * b).value - a.value * b.value| ≤ roundoff * |a.value * b.value| + halfUnit := by
  obtain ⟨ha, hb⟩ := isFinite_of_mul h
  obtain ⟨z, hz⟩ := exists_mul_eq_nearest ha hb
  rw [hz] at h ⊢
  exact abs_value_nearest_sub_le h

theorem abs_value_div_sub_le {a b : Binary64} (ha : a.isFinite = true) (hb : b.isFinite = true) (h0 : b.value ≠ 0)
    (h : (a / b).isFinite = true) :
    |(a / b).value - a.value / b.value| ≤ roundoff * |a.value / b.value| + halfUnit := by
  obtain ⟨z, hz⟩ := exists_div_eq_nearest ha hb h0
  rw [hz] at h ⊢
  exact abs_value_nearest_sub_le h

theorem abs_sub_le_of_error {a h s t x m : ℚ} (hs : 4 * a ≤ s) (hs1 : s ≤ 1) (ht : 2 * h ≤ s * t) (h0 : 0 ≤ s)
    (herror : |m - x| ≤ a * |x| + h) : |x - m| ≤ s * max |m| t := by
  have hm : s * |m| ≤ s * max |m| t := mul_le_mul_of_nonneg_left (le_max_left _ _) h0
  have hleast : s * t ≤ s * max |m| t := mul_le_mul_of_nonneg_left (le_max_right _ _) h0
  rw [abs_sub_comm] at herror
  -- Where the value is so small that the fixed part of the error is larger, the least tolerance has room for it.
  rcases le_total (a * |x|) h with hsmall | hlarge
  · linarith
  · have hx := abs_nonneg x
    have hax : 4 * (a * |x|) ≤ |x| := by
      have := mul_le_mul_of_nonneg_right (hs.trans hs1) hx
      linarith
    have hhalf : |x| / 2 ≤ |m| := by
      have := abs_sub_abs_le_abs_sub x m
      linarith
    have hscaled : 4 * a * (|x| / 2) ≤ s * |m| :=
      (mul_le_mul_of_nonneg_right hs (by linarith)).trans (mul_le_mul_of_nonneg_left hhalf h0)
    linarith

end OutlierBand.Binary64
