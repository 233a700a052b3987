import OutlierBand.Proofs.DecimalValue
import OutlierBand.Proofs.FittedBand
import OutlierBand.Proofs.MedianRank
import Mathlib.Data.Finset.Max

namespace OutlierBand

open Binary64

namespace Statistics

variable {xs : List Binary64} {m : Binary64}

theorem exists_isLeast (hne : xs ≠ []) (hxs : ∀ x ∈ xs, x.isNaN = false) : ∃ a, IsLeast {x | x ∈ xs} a := by
  obtain ⟨a, ha, hleast⟩ := xs.toFinset.exists_min_image rank (List.toFinset_nonempty_iff xs |>.2 hne)
  simp only [List.mem_toFinset] at ha hleast
  exact ⟨a, ha, fun x hx => le_of_rank_le (hxs a ha) (hxs x hx) (hleast x hx)⟩

theorem exists_isGreatest (hne : xs ≠ []) (hxs : ∀ x ∈ xs, x.isNaN = false) : ∃ a, IsGreatest {x | x ∈ xs} a := by
  obtain ⟨a, ha, hgreatest⟩ := xs.toFinset.exists_max_image rank (List.toFinset_nonempty_iff xs |>.2 hne)
  simp only [List.mem_toFinset] at ha hgreatest
  exact ⟨a, ha, fun x hx => le_of_rank_le (hxs x hx) (hxs a ha) (hgreatest x hx)⟩

structure Between (xs : List Binary64) (m : Binary64) : Prop where
  isFinite : m.isFinite = true
  above : ∃ a ∈ xs, a.value ≤ m.value
  below : ∃ b ∈ xs, m.value ≤ b.value

namespace Between

theorem within (h : Between xs m) {bound : ℚ} (hxs : ∀ x ∈ xs, Within bound x) : Within bound m := by
  obtain ⟨a, ha, ham⟩ := h.above
  obtain ⟨b, hb, hmb⟩ := h.below
  refine ⟨h.isFinite, abs_le.2 ⟨?_, ?_⟩⟩
  · exact (abs_le.1 (hxs a ha).abs_value_le).1.trans ham
  · exact hmb.trans (abs_le.1 (hxs b hb).abs_value_le).2

theorem exists_isLeast_isGreatest (h : Between xs m) (hxs : ∀ x ∈ xs, x.isFinite = true) :
    ∃ a b, IsLeast {x | x ∈ xs} a ∧ IsGreatest {x | x ∈ xs} b ∧ a ≤ m ∧ m ≤ b := by
  obtain ⟨a, ha, ham⟩ := h.above
  obtain ⟨b, hb, hmb⟩ := h.below
  have hnan : ∀ x ∈ xs, x.isNaN = false := fun x hx => isNaN_of_isFinite (hxs x hx)
  obtain ⟨least, hleast⟩ := exists_isLeast (List.ne_nil_of_mem ha) hnan
  obtain ⟨greatest, hgreatest⟩ := exists_isGreatest (List.ne_nil_of_mem ha) hnan
  exact ⟨least, greatest, hleast, hgreatest,
    Binary64.le_trans (hleast.2 ha) ((le_iff_value_le (hxs a ha) h.isFinite).2 ham),
    Binary64.le_trans ((le_iff_value_le h.isFinite (hxs b hb)).2 hmb) (hgreatest.2 hb)⟩

end Between

theorem Halves.between (h : Halves m xs) (hne : xs ≠ []) (hxs : ∀ x ∈ xs, x.isFinite = true)
    (hm : m.isFinite = true) : Between xs m := by
  have hpos := List.length_pos_iff.2 hne
  have hbelow := h.below
  have habove := h.above
  obtain ⟨x, hx, hxm⟩ := List.countP_pos_iff.1 (show 0 < xs.countP (· ≤ m) by omega)
  obtain ⟨y, hy, hmy⟩ := List.countP_pos_iff.1 (show 0 < xs.countP (m ≤ ·) by omega)
  exact ⟨hm, ⟨x, hx, (le_iff_value_le (hxs x hx) hm).1 (of_decide_eq_true hxm)⟩,
    y, hy, (le_iff_value_le hm (hxs y hy)).1 (of_decide_eq_true hmy)⟩

end Statistics

open Statistics

theorem normalFactor_eq_nearest : normalFactor = nearest false (14826 / 10000) := by
  rw [normalFactor, Decimal.toBinary64_eq_nearest, Decimal.value]
  norm_num [signed]

/-- The centre is in the middle of the values, and the dispersion is a multiple of a number in the middle of their
distances from the centre. -/
structure Summary.Median (column : Summary) (xs : List Binary64) : Prop where
  between : ∃ a b, IsLeast {x | x ∈ xs} a ∧ IsGreatest {x | x ∈ xs} b ∧ a ≤ column.centre ∧ column.centre ≤ b
  centre : Halves column.centre xs
  dispersion : ∃ m, column.dispersion = nearest false (14826 / 10000) * m ∧
    Halves m (xs.map fun x => (x - column.centre).abs)

theorem Statistic.median_summary {xs : List Binary64} (hne : xs ≠ []) (hxs : ∀ x ∈ xs, x.isFinite = true)
    {sum : List Binary64 → Binary64} (hcentre : (median.summary sum xs).centre.isFinite = true)
    (hdispersion : (median.summary sum xs).dispersion.isFinite = true) : (median.summary sum xs).Median xs := by
  have hnan : ∀ x ∈ xs, x.isNaN = false := fun x hx => isNaN_of_isFinite (hxs x hx)
  have hhalves : Halves (median.summary sum xs).centre xs := halves_median hnan hcentre
  refine ⟨(hhalves.between hne hxs hcentre).exists_isLeast_isGreatest hxs, hhalves, ?_⟩
  rw [← normalFactor_eq_nearest]
  refine ⟨_, rfl, halves_median ?_ (isFinite_of_mul hdispersion).2⟩
  exact List.forall_mem_map.2 fun x hx => isNaN_abs_sub (hxs x hx) hcentre

namespace Band

variable {xs : Samples} {s : Binary64} {c : Config} {b : Band}

theorem medians_of_fit (hc : c.reference = .median) (h : fit xs s c = .ok b) :
    b.features.map Feature.centre = (xs.summaries .median).map Summary.centre ∧
      List.Forall₂ Summary.Median (xs.summaries .median) xs.columns := by
  obtain ⟨-, hxs, hfinite, rfl⟩ := fit_eq_ok_iff.1 h
  rw [hc] at hfinite ⊢
  refine ⟨by rw [List.map_map]; rfl, ?_⟩
  rw [Samples.summaries, List.forall₂_map_left_iff, List.forall₂_same]
  intro column hcolumn
  have hne : column ≠ [] := by
    rw [← List.length_pos_iff, Samples.length_of_mem_columns hcolumn]
    exact Nat.pos_of_ne_zero (Samples.check_eq_ok_iff.1 hxs).1.1
  obtain ⟨hcentre, -, -, hdispersion⟩ := Config.isFinite_of_isFinite_feature (hfinite _ (List.mem_map_of_mem hcolumn))
  exact Statistic.median_summary hne (fun x hx => Samples.isFinite_of_mem_columns hxs hcolumn hx) hcentre hdispersion

theorem medians_of_fit_infinite :
    let half := greatest / two
    let first := finite false (.scaled 1 0 (by decide) (by decide))
    let second := finite false (.scaled 2 0 (by decide) (by decide))
    let xs : Samples := ⟨4, 2, [half, first, neg greatest, second, greatest, second, half, first], .rowMajor, rfl⟩
    let c : Config := ⟨one, one, .median⟩
    c.reference = .median ∧ (neg greatest - half).abs = infinity ∧ ∃ b, fit xs (one / two) c = .ok b ∧
      b.features.map Feature.centre = [half, second] ∧ List.Forall₂ Summary.Median (xs.summaries .median) xs.columns := by
  intro half first second xs c
  have hfit : fit xs (one / two) c = .ok _ :=
    fit_eq_ok_iff.2 ⟨by decide +kernel, by decide +kernel, by decide +kernel, rfl⟩
  obtain ⟨hcentres, hmedians⟩ := medians_of_fit rfl hfit
  exact ⟨rfl, by decide +kernel, _, hfit, hcentres.trans (by decide +kernel), hmedians⟩

end Band

end OutlierBand
