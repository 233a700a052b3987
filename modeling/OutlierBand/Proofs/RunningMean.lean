import OutlierBand.Proofs.MagnitudeBound
import OutlierBand.Proofs.RoundingError
import OutlierBand.Statistics.Spread
import Mathlib.Order.Interval.Set.UnorderedInterval

namespace OutlierBand

open Binary64

namespace Binary64

theorem nearest_mem_uIcc {l u q : ℚ} (hl : Exact l) (hu : Exact u) (h : q ∈ Set.uIcc l u) (z : Bool) :
    (nearest z q).isFinite = true ∧ (nearest z q).value ∈ Set.uIcc l u := by
  rw [Set.mem_uIcc] at h ⊢
  rcases h with ⟨hlq, hqu⟩ | ⟨huq, hql⟩
  · obtain ⟨hfinite, hbetween⟩ := nearest_between hl hu hlq hqu z
    exact ⟨hfinite, .inl hbetween⟩
  · obtain ⟨hfinite, hbetween⟩ := nearest_between hu hl huq hql z
    exact ⟨hfinite, .inr hbetween⟩

theorem Within.of_mem_uIcc {a b c : Binary64} {bound : ℚ} (ha : Within bound a) (hb : Within bound b)
    (hc : c.isFinite = true) (h : c.value ∈ Set.uIcc a.value b.value) : Within bound c :=
  ⟨hc, abs_le.2 (Set.uIcc_subset_Icc (abs_le.1 ha.abs_value_le) (abs_le.1 hb.abs_value_le) h)⟩

variable {x m : Binary64}

theorem sub_units (hx : x.isFinite = true) (hm : m.isFinite = true) :
    ∃ i : Int, (x.value - m.value) * unitsInOne = i := by
  obtain ⟨s, k, rfl⟩ := exists_finite hx
  obtain ⟨t, l, rfl⟩ := exists_finite hm
  exact ⟨signed s k.units - signed t l.units, by rw [sub_mul, value_finite_mul, value_finite_mul, Int.cast_sub]⟩

theorem value_sub_of_exact (hx : x.isFinite = true) (hm : m.isFinite = true) (h : Exact (x.value - m.value)) :
    (x - m).value = x.value - m.value := by
  obtain ⟨y, hy, hyv⟩ := h
  obtain ⟨z, hz⟩ := exists_sub_eq_nearest hx hm
  rw [hz, ← hyv]
  exact (nearest_value_eq z hy).2

theorem abs_value_sub_sub_le (h : (x - m).isFinite = true) :
    |(x - m).value - (x.value - m.value)| ≤ roundoff * |x.value - m.value| := by
  have herror := abs_value_add_sub_le (a := x) (b := -m) h
  rwa [value_neg, ← sub_eq_add_neg] at herror

theorem abs_le_of_half_step {q d D n u h : ℚ} (hn : 2 ≤ n) (hu : u ≤ 1 / 8) (hh : 4 * h ≤ |D|)
    (hd : |d - D| ≤ u * |D|) (hq : |q - d / n| ≤ u * |d / n| + h) : |q| ≤ |D| := by
  have hD := abs_nonneg D
  have hsize : |d| ≤ |D| + u * |D| := by linarith [abs_sub_abs_le_abs_sub d D]
  have hhalf : |d / n| ≤ |d| / 2 := by
    rw [abs_div, abs_of_pos (by linarith : 0 < n)]
    exact div_le_div_of_nonneg_left (abs_nonneg d) two_pos hn
  have hstep : |q| ≤ |d / n| + (u * |d / n| + h) := by linarith [abs_sub_abs_le_abs_sub q (d / n)]
  have h1 := mul_le_mul_of_nonneg_right hu hD
  have h2 := mul_le_mul_of_nonneg_right hu (abs_nonneg (d / n))
  linarith

theorem within_step {n : ℕ} (hn : 1 < n) (hn64 : n < 2 ^ 64) (hx : x.isFinite = true) (hm : m.isFinite = true)
    (hdelta : (x - m).isFinite = true) : Within |x.value - m.value| ((x - m) / ofNat n) := by
  have hnf := isFinite_ofNat_of_lt hn64
  have hn2 : 2 ≤ (ofNat n).value := by
    have hle : two ≤ ofNat n := ofNat_le_ofNat hn
    rwa [le_iff_value_le isFinite_two hnf, value_two] at hle
  have hsmaller : Within |(x - m).value| ((x - m) / ofNat n) := by
    have habs : Exact |(x - m).value| := ⟨(x - m).abs, by rwa [isFinite_abs], value_abs _⟩
    refine Within.div ⟨hdelta, le_refl _⟩ hnf (by linarith) habs ?_
    nlinarith [abs_nonneg (x - m).value]
  refine ⟨hsmaller.isFinite, ?_⟩
  obtain ⟨i, hi⟩ := sub_units hx hm
  rcases Nat.lt_or_ge i.natAbs 2 with hsmall | hlarge
  · -- A difference of at most one unit is exact.
    have hr : Representable i.natAbs := ⟨i.natAbs, 0, by omega, by simp⟩
    have hexact := exact_of_units hi hr (hsmall.trans_le (two_pow_le_unitsInLimit (e := 1) (by decide)))
    rw [← value_sub_of_exact hx hm hexact]
    exact hsmaller.abs_value_le
  · have hu := cast_unitsInOne_pos
    have hdiv := abs_value_div_sub_le hdelta hnf (by linarith) hsmaller.isFinite
    have hroom : 4 * halfUnit ≤ |x.value - m.value| := by
      have habs : |x.value - m.value| * unitsInOne = i.natAbs := by
        rw [Nat.cast_natAbs, Int.cast_abs, ← hi, abs_mul, abs_of_pos hu]
      have hlarge' : (2 : ℚ) ≤ i.natAbs := by exact_mod_cast hlarge
      rw [halfUnit, mul_one_div, div_le_iff₀ (mul_pos two_pos hu)]
      linarith
    exact abs_le_of_half_step hn2 (by unfold roundoff; norm_num) hroom (abs_value_sub_sub_le hdelta) hdiv

theorem value_sub_nonneg (hx : x.isFinite = true) (hm : m.isFinite = true) (h : m.value ≤ x.value) :
    0 ≤ (x - m).value := by
  obtain ⟨z, hz⟩ := exists_sub_eq_nearest hx hm
  rw [hz]
  exact value_nearest_nonneg z (sub_nonneg.2 h)

theorem value_sub_nonpos (hx : x.isFinite = true) (hm : m.isFinite = true) (h : x.value ≤ m.value) :
    (x - m).value ≤ 0 := by
  obtain ⟨z, hz⟩ := exists_sub_eq_nearest hx hm
  rw [hz]
  exact value_nearest_nonpos z (sub_nonpos.2 h)

theorem step_mem_uIcc {n : ℕ} (hn : n ≠ 0) (hn64 : n < 2 ^ 64) (hx : x.isFinite = true) (hm : m.isFinite = true)
    (hfirst : n = 1 → m.value = 0) (hdelta : (x - m).isFinite = true) :
    ((x - m) / ofNat n).isFinite = true ∧ ((x - m) / ofNat n).value ∈ Set.uIcc 0 (x.value - m.value) := by
  have hnf := isFinite_ofNat_of_lt hn64
  have hpos := value_ofNat_pos (Nat.pos_of_ne_zero hn) hn64
  obtain ⟨z, hz⟩ := exists_div_eq_nearest hdelta hnf hpos.ne'
  by_cases h1 : n = 1
  · -- Nothing is rounded: the old mean is zero, and the difference is divided by one.
    have hone : (ofNat n).value = 1 := by rw [h1]; exact value_one
    have hexact : Exact (x.value - m.value) := by
      rw [hfirst h1, sub_zero]
      exact exact_value hx
    obtain ⟨hfinite, hstep⟩ := nearest_value_eq z hdelta
    rw [hz, hone, div_one]
    refine ⟨hfinite, ?_⟩
    rw [hstep, value_sub_of_exact hx hm hexact]
    exact Set.right_mem_uIcc
  · obtain ⟨hfinite, hle⟩ := within_step (by omega) hn64 hx hm hdelta
    refine ⟨hfinite, Set.mem_uIcc.2 ?_⟩
    rcases le_total m.value x.value with h | h
    · rw [abs_of_nonneg (sub_nonneg.2 h)] at hle
      exact .inl ⟨value_div_nonneg (value_sub_nonneg hx hm h) hpos.le, (abs_le.1 hle).2⟩
    · rw [abs_of_nonpos (sub_nonpos.2 h)] at hle
      refine .inr ⟨by linarith [(abs_le.1 hle).1], ?_⟩
      rw [hz]
      exact value_nearest_nonpos z (div_nonpos_of_nonpos_of_nonneg (value_sub_nonpos hx hm h) hpos.le)

end Binary64

namespace Statistics.Spread

variable {s : Spread} {x : Binary64}

theorem mean_push_mem_uIcc (hx : x.isFinite = true) (hs : s.mean.isFinite = true)
    (hfirst : s.count = 0 → s.mean.value = 0) (hcount : s.count + 1 < 2 ^ 64) (hdelta : (x - s.mean).isFinite = true) :
    (s.push x).mean.isFinite = true ∧ (s.push x).mean.value ∈ Set.uIcc s.mean.value x.value := by
  obtain ⟨hfinite, hstep⟩ := step_mem_uIcc (Nat.succ_ne_zero s.count) hcount hx hs
    (fun h => hfirst (Nat.succ.inj h)) hdelta
  obtain ⟨z, hz⟩ := exists_add_eq_nearest hs hfinite
  have hmean : (s.push x).mean = s.mean + (x - s.mean) / ofNat (s.count + 1) := rfl
  rw [hmean, hz]
  apply nearest_mem_uIcc (exact_value hs) (exact_value hx)
  rw [Set.mem_uIcc] at hstep ⊢
  rcases hstep with ⟨hl, hu⟩ | ⟨hl, hu⟩
  · exact .inl ⟨by linarith, by linarith⟩
  · exact .inr ⟨by linarith, by linarith⟩

theorem product_nonneg {mean : Binary64} (hx : x.isFinite = true) (hs : s.mean.isFinite = true)
    (hmean : mean.isFinite = true) (hbetween : mean.value ∈ Set.uIcc s.mean.value x.value) :
    0 ≤ (x - mean).value * (x - s.mean).value := by
  -- The new mean is on the same side of the value as the old one.
  rcases Set.mem_uIcc.1 hbetween with ⟨hl, hu⟩ | ⟨hl, hu⟩
  · exact mul_nonneg (value_sub_nonneg hx hmean hu) (value_sub_nonneg hx hs (hl.trans hu))
  · exact mul_nonneg_of_nonpos_of_nonpos (value_sub_nonpos hx hmean hl) (value_sub_nonpos hx hs (hl.trans hu))

end Statistics.Spread

end OutlierBand
