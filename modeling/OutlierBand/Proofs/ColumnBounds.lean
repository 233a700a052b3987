import OutlierBand.Proofs.RunningMean
import OutlierBand.Proofs.SummationOrder

namespace OutlierBand

open Binary64

namespace Statistics

variable {e : ℕ}

theorem Adds.within (he : e ≤ 970) {xs : Multiset Binary64} {x : Binary64} (h : Adds xs x)
    (hxs : ∀ y ∈ xs, Within (2 ^ e) y) (hcard : xs.card ≤ 2 ^ 53) : Within (xs.card * 2 ^ e) x := by
  induction h with
  | none => exact within_zero (by simp)
  | single x => simpa using hxs x (Multiset.mem_singleton_self x)
  | @add xs ys a b _ _ iha ihb =>
    rw [Multiset.card_add] at hcard ⊢
    have ha := iha (fun y hy => hxs y (Multiset.mem_add.2 (.inl hy))) (by omega)
    have hb := ihb (fun y hy => hxs y (Multiset.mem_add.2 (.inr hy))) (by omega)
    apply ha.add hb (exact_mul_two_pow hcard (le_refl 53) (by omega))
    push_cast
    linarith

namespace Spread

structure Bounded (e : ℕ) (s : Spread) : Prop where
  mean : Within (2 ^ e) s.mean
  mean_empty : s.count = 0 → s.mean.value = 0
  squares_isFinite : s.squares.isFinite = true
  squares_nonneg : 0 ≤ s.squares.value
  squares_le : s.squares.value ≤ s.count * 2 ^ (2 * e + 2)

theorem bounded_empty : Bounded e empty where
  mean := within_zero (by positivity)
  mean_empty _ := value_zero
  squares_isFinite := isFinite_zero
  squares_nonneg := value_zero.ge
  squares_le := value_zero.le.trans (by positivity)

variable {s : Spread} {x : Binary64}

theorem Bounded.push (he : e ≤ 500) (hs : s.Bounded e) (hx : Within (2 ^ e) x) (hcount : s.count < 2 ^ 20) :
    (s.push x).Bounded e := by
  have hdelta := hx.sub_two_pow hs.mean (by omega)
  obtain ⟨hfinite, hbetween⟩ :=
    mean_push_mem_uIcc hx.isFinite hs.mean.isFinite hs.mean_empty (by omega) hdelta.isFinite
  have hmean := hs.mean.of_mem_uIcc hx hfinite hbetween
  have hdistance := hx.sub_two_pow hmean (by omega)
  have hproduct := product_nonneg hx.isFinite hs.mean.isFinite hfinite hbetween
  have hsquare : (x - (s.push x).mean).value * (x - s.mean).value ≤ 2 ^ (2 * e + 2) :=
    calc (x - (s.push x).mean).value * (x - s.mean).value
        ≤ |(x - (s.push x).mean).value| * |(x - s.mean).value| := by rw [← abs_mul]; exact le_abs_self _
      _ ≤ 2 ^ (e + 1) * 2 ^ (e + 1) :=
        mul_le_mul hdistance.abs_value_le hdelta.abs_value_le (abs_nonneg _) hdistance.nonneg
      _ = 2 ^ (2 * e + 2) := by rw [← pow_add]; congr 1; omega
  -- What is added is not below zero, so the sum before rounding is between zero and the new bound, a number itself.
  obtain ⟨z, hz⟩ := exists_fma_eq_nearest hdistance.isFinite hdelta.isFinite hs.squares_isFinite
  have hbound : Exact ((s.count + 1 : ℕ) * 2 ^ (2 * e + 2)) :=
    exact_mul_two_pow (f := 20) (by omega) (by decide) (by omega)
  have hle : (x - (s.push x).mean).value * (x - s.mean).value + s.squares.value ≤
      (s.count + 1 : ℕ) * 2 ^ (2 * e + 2) := by
    push_cast
    linarith [hs.squares_le]
  obtain ⟨hsquares, hlow, hhigh⟩ :=
    nearest_between (exact_value isFinite_zero) hbound (by linarith [value_zero, hs.squares_nonneg]) hle z
  rw [← hz] at hsquares hlow hhigh
  exact ⟨hmean, fun h => absurd h (Nat.succ_ne_zero _), hsquares, value_zero.ge.trans hlow, hhigh⟩

theorem bounded_ofList (he : e ≤ 500) {xs : List Binary64} (hxs : ∀ x ∈ xs, Within (2 ^ e) x)
    (hlength : xs.length ≤ 2 ^ 20) : (ofList xs).Bounded e := by
  induction xs using List.reverseRecOn with
  | nil => exact bounded_empty
  | append_singleton xs x ih =>
    rw [List.length_append, List.length_singleton] at hlength
    obtain ⟨hxs, hx⟩ := List.forall_mem_append.1 hxs
    have hcount : (ofList xs).count < 2 ^ 20 := by rw [count_ofList]; omega
    rw [ofList_append]
    exact (ih hxs (by omega)).push he (List.forall_mem_singleton.1 hx) hcount

theorem within_deviation (he : e ≤ 500) (hs : s.Bounded e) (h0 : s.count ≠ 0) (hcount : s.count ≤ 2 ^ 20) :
    Within (2 ^ (e + 1)) s.deviation := by
  have hroom : s.count ≤ 2 ^ 53 := hcount.trans (by decide)
  have hsquares : Within (s.count * 2 ^ (2 * e + 2)) s.squares :=
    within_of_value_le hs.squares_isFinite ((zero_le_iff hs.squares_isFinite).2 hs.squares_nonneg) hs.squares_le
  have hvariance := hsquares.div_ofNat h0 hroom (by omega)
  have hnonneg : 0 ≤ (s.squares / ofNat s.count).value :=
    value_div_nonneg hs.squares_nonneg (by rw [value_ofNat hroom]; exact Nat.cast_nonneg _)
  apply within_sqrt hvariance.isFinite hnonneg (exact_two_pow (by omega)) (by positivity)
  rw [← pow_add]
  apply (le_abs_self _).trans (hvariance.abs_value_le.trans_eq _)
  congr 1
  omega

end Spread

theorem within_middle (he : e < 1023) {xs : List Binary64} (hxs : ∀ x ∈ xs, Within (2 ^ e) x) :
    Within (2 ^ e) (middle xs) := by
  unfold middle
  split
  next a b ha hb =>
    have ha := hxs a (List.mem_of_getElem? ha)
    have hb := hxs b (List.mem_of_getElem? hb)
    split_ifs
    · exact hb
    · have hsum := ha.add_two_pow hb he
      rw [pow_succ', ← Nat.cast_two] at hsum
      exact hsum.div_ofNat two_ne_zero (by decide) he.le
  next => exact within_zero (by positivity)

theorem within_median (he : e < 1023) {xs : List Binary64} (hxs : ∀ x ∈ xs, Within (2 ^ e) x) :
    Within (2 ^ e) (median xs) :=
  within_middle he fun x hx => hxs x ((perm_sorted xs).mem_iff.1 hx)

theorem within_normalFactor : Within 2 normalFactor := by
  have hfinite : normalFactor.isFinite = true := by decide +kernel
  have hlow : zero ≤ normalFactor := by decide +kernel
  have hhigh : normalFactor ≤ two := by decide +kernel
  rw [le_iff_value_le hfinite isFinite_two, value_two] at hhigh
  exact within_of_value_le hfinite hlow hhigh

theorem within_medianDeviation (he : e ≤ 500) {centre : Binary64} (hcentre : Within (2 ^ e) centre)
    {xs : List Binary64} (hxs : ∀ x ∈ xs, Within (2 ^ e) x) : Within (2 ^ (e + 2)) (medianDeviation centre xs) := by
  have hdistance : Within (2 ^ (e + 1)) (median (xs.map fun x => (x - centre).abs)) := by
    apply within_median (by omega)
    intro y hy
    obtain ⟨x, hx, rfl⟩ := List.mem_map.1 hy
    exact ((hxs x hx).sub_two_pow hcentre (by omega)).abs
  apply within_normalFactor.mul hdistance (exact_two_pow (by omega))
  rw [pow_succ _ (e + 1), mul_comm]

end Statistics

variable {e : ℕ} {column : List Binary64}

theorem Layout.within_sum (he : e ≤ 970) (layout : Layout) (width : Nat) (hcolumn : ∀ x ∈ column, Within (2 ^ e) x)
    (hlength : column.length ≤ 2 ^ 53) : Within (column.length * 2 ^ e) (layout.sum width column) :=
  (layout.adds_sum width column).within he hcolumn hlength

structure Summary.Bounded (e : ℕ) (s : Summary) : Prop where
  centre : Within (2 ^ e) s.centre
  dispersion : Within (2 ^ (e + 2)) s.dispersion

theorem Statistic.bounded_summary (he : e ≤ 500) (statistic : Statistic) (layout : Layout) (width : Nat)
    (hcolumn : ∀ x ∈ column, Within (2 ^ e) x) (h0 : column ≠ []) (hlength : column.length ≤ 2 ^ 20) :
    (statistic.summary (layout.sum width) column).Bounded e := by
  cases statistic with
  | mean =>
    have hroom : column.length ≤ 2 ^ 53 := hlength.trans (by decide)
    have hne : column.length ≠ 0 := mt List.length_eq_zero_iff.1 h0
    have hcount := Statistics.Spread.count_ofList column
    have hdeviation := Statistics.Spread.within_deviation he (Statistics.Spread.bounded_ofList he hcolumn hlength)
      (by rwa [hcount]) (by rwa [hcount])
    refine ⟨?_, hdeviation.mono (pow_le_pow_right₀ one_le_two (Nat.le_succ _))⟩
    rw [centre_mean h0]
    exact (layout.within_sum (by omega) width hcolumn hroom).div_ofNat hne hroom (by omega)
  | median =>
    have hcentre := Statistics.within_median (by omega) hcolumn
    exact ⟨hcentre, Statistics.within_medianDeviation he hcentre hcolumn⟩

end OutlierBand
