import OutlierBand.Proofs.ColumnBounds
import OutlierBand.Proofs.SummationOrder

/-!
How far the mean of a column is from the exact one. Adding to nothing rounds nothing away, and any other addition is off
by a fraction of its result, so the error of a sum grows with the square of the number of values at most, in whatever
order they are added; dividing by that number leaves an error that grows with the number, and one for the division.
-/

namespace OutlierBand

open Binary64

namespace Binary64

theorem value_add_of_left_zero {a b : Binary64} (ha : a.isFinite = true) (hb : b.isFinite = true) (h0 : a.value = 0) :
    (a + b).value = b.value := by
  obtain ⟨z, hz⟩ := exists_add_eq_nearest ha hb
  rw [hz, h0, zero_add]
  exact (nearest_value_eq z hb).2

theorem value_add_of_right_zero {a b : Binary64} (ha : a.isFinite = true) (hb : b.isFinite = true) (h0 : b.value = 0) :
    (a + b).value = a.value := by
  obtain ⟨z, hz⟩ := exists_add_eq_nearest ha hb
  rw [hz, h0, add_zero]
  exact (nearest_value_eq z ha).2

end Binary64

namespace Statistics

theorem add_le_two_mul_of_pairs {k l u : ℚ} (hk : 1 ≤ k) (hl : 1 ≤ l) (hu : 0 ≤ u) (h : (k + l) * u ≤ 1) :
    k + l + u * (k * (k - 1) + l * (l - 1)) ≤ 2 * (k * l) := by
  have hproduct : 0 ≤ (k - 1) * (l - 1) := mul_nonneg (by linarith) (by linarith)
  have hsquares : k * (k - 1) + l * (l - 1) ≤ (k + l) * (k + l - 2) := by linarith
  have hsmall : (k + l) * u * (k + l - 2) ≤ 1 * (k + l - 2) := mul_le_mul_of_nonneg_right h (by linarith)
  have hscaled := mul_le_mul_of_nonneg_left hsquares hu
  linarith

theorem abs_sub_le_of_parts {k l u bound a b c p q : ℚ} (hk : 1 ≤ k) (hl : 1 ≤ l) (hu : 0 ≤ u) (hkl : (k + l) * u ≤ 1)
    (hbound : 0 ≤ bound) (hp : |p| ≤ k * bound) (hq : |q| ≤ l * bound) (ha : |a - p| ≤ k * (k - 1) * u * bound)
    (hb : |b - q| ≤ l * (l - 1) * u * bound) (hc : |c - (a + b)| ≤ u * |a + b|) :
    |c - (p + q)| ≤ (k + l) * (k + l - 1) * u * bound := by
  have hsize : |a + b| ≤ |a - p| + |b - q| + (|p| + |q|) :=
    calc |a + b| = |(a - p) + (b - q) + (p + q)| := by congr 1; ring
      _ ≤ |(a - p) + (b - q)| + |p + q| := abs_add_le _ _
      _ ≤ _ := add_le_add (abs_add_le _ _) (abs_add_le _ _)
  have hround := mul_le_mul_of_nonneg_left hsize hu
  have hpairs := mul_le_mul_of_nonneg_right (add_le_two_mul_of_pairs hk hl hu hkl) (mul_nonneg hu hbound)
  have herrors : u * (|a - p| + |b - q| + (|p| + |q|)) ≤
      u * (k * (k - 1) * u * bound + l * (l - 1) * u * bound + (k * bound + l * bound)) :=
    mul_le_mul_of_nonneg_left (by linarith) hu
  calc |c - (p + q)| = |(c - (a + b)) + ((a - p) + (b - q))| := by congr 1; ring
    _ ≤ |c - (a + b)| + (|a - p| + |b - q|) := (abs_add_le _ _).trans (add_le_add_right (abs_add_le _ _) _)
    _ ≤ _ := by linarith

theorem Adds.abs_value_sub_le {s : Multiset Binary64} {x : Binary64} (h : Adds s x) {bound : ℚ}
    (hbound : ∀ y ∈ s, |y.value| ≤ bound) (hcard : s.card ≤ 2 ^ 53) (hx : x.isFinite = true) :
    |x.value - exactSum s| ≤ s.card * (s.card - 1) * roundoff * bound := by
  induction h with
  | none => simp [exactSum_zero, value_zero]
  | single x => simp [exactSum_single]
  | @add s t a b _ _ iha ihb =>
    obtain ⟨ha, hb⟩ := isFinite_of_add hx
    have hs : ∀ y ∈ s, |y.value| ≤ bound := fun y hy => hbound y (Multiset.mem_add.2 (.inl hy))
    have ht : ∀ y ∈ t, |y.value| ≤ bound := fun y hy => hbound y (Multiset.mem_add.2 (.inr hy))
    rw [Multiset.card_add] at hcard ⊢
    have herrora := iha hs (by omega) ha
    have herrorb := ihb ht (by omega) hb
    rw [exactSum_add, Nat.cast_add]
    rcases Nat.eq_zero_or_pos s.card with hs0 | hspos
    · obtain rfl := Multiset.card_eq_zero.1 hs0
      have h0 : a.value = 0 := by simpa [exactSum_zero] using herrora
      rw [value_add_of_left_zero ha hb h0]
      simpa [exactSum_zero] using herrorb
    rcases Nat.eq_zero_or_pos t.card with ht0 | htpos
    · obtain rfl := Multiset.card_eq_zero.1 ht0
      have h0 : b.value = 0 := by simpa [exactSum_zero] using herrorb
      rw [value_add_of_right_zero ha hb h0]
      simpa [exactSum_zero] using herrora
    obtain ⟨y, hy⟩ := Multiset.card_pos_iff_exists_mem.1 hspos
    have hroom : (s.card + t.card : ℚ) * roundoff ≤ 1 := by exact_mod_cast mul_roundoff_le_one hcard
    exact abs_sub_le_of_parts (by exact_mod_cast hspos) (by exact_mod_cast htpos) roundoff_pos.le hroom
      ((abs_nonneg _).trans (hs y hy)) (abs_exactSum_le hs) (abs_exactSum_le ht) herrora herrorb
      (abs_value_add_sub_le hx)

theorem abs_sub_le_of_quotient {n u h bound m total exact : ℚ} (hn : 1 ≤ n) (hu : 0 ≤ u) (hnu : n * u ≤ 1)
    (hbound : 0 ≤ bound) (hexact : |exact| ≤ n * bound) (htotal : |total - exact| ≤ n * (n - 1) * u * bound)
    (hm : |m - total / n| ≤ u * |total / n| + h) : |m - exact / n| ≤ (n + 1) * u * bound + h := by
  have hpos : 0 < n := by linarith
  have hmean : |total / n - exact / n| ≤ (n - 1) * u * bound := by
    rw [← sub_div, abs_div, abs_of_pos hpos, div_le_iff₀ hpos]
    linarith
  have hsize : |exact / n| ≤ bound := by
    rw [abs_div, abs_of_pos hpos, div_le_iff₀ hpos]
    linarith
  have hdouble : |total / n| ≤ 2 * bound := by
    have htriangle : |total / n| ≤ |total / n - exact / n| + |exact / n| := by
      simpa only [sub_add_cancel] using abs_add_le (total / n - exact / n) (exact / n)
    have hsmall := mul_le_mul_of_nonneg_right hnu hbound
    have hrest := mul_nonneg hu hbound
    linarith
  have hround := mul_le_mul_of_nonneg_left hdouble hu
  calc |m - exact / n| ≤ |m - total / n| + |total / n - exact / n| := abs_sub_le _ _ _
    _ ≤ _ := by linarith

theorem abs_value_mean_sub_le {column : List Binary64} {total : Binary64} (h : Adds column total) (hne : column ≠ [])
    (hlength : column.length ≤ 2 ^ 53) {bound : ℚ} (hbound : ∀ x ∈ column, |x.value| ≤ bound)
    (hfinite : (total / ofNat column.length).isFinite = true) :
    |(total / ofNat column.length).value - exactMean column| ≤ (column.length + 1) * roundoff * bound + halfUnit := by
  have htotal := isFinite_of_div hfinite
  have hvalue := value_ofNat hlength
  have hone : (1 : ℚ) ≤ column.length := by exact_mod_cast List.length_pos_iff.2 hne
  have hdiv := abs_value_div_sub_le htotal (isFinite_ofNat hlength) (by rw [hvalue]; linarith) hfinite
  rw [hvalue] at hdiv
  have hsum := h.abs_value_sub_le hbound (by simpa using hlength) htotal
  have hsize := abs_exactSum_le (s := column) hbound
  rw [Multiset.coe_card] at hsum hsize
  obtain ⟨y, hy⟩ := List.exists_mem_of_ne_nil column hne
  exact abs_sub_le_of_quotient hone roundoff_pos.le (mul_roundoff_le_one hlength)
    ((abs_nonneg _).trans (hbound y hy)) hsize hsum hdiv

theorem mean_error_le {n : ℕ} (hn : n ≠ 0) {bound : ℚ} (hbound : 0 ≤ bound) :
    (n + 1) * roundoff * bound + halfUnit ≤ n / 2 ^ 52 * bound + 1 / 2 ^ 1074 := by
  have hunit := two_pow_mul_halfUnit_le (a := 0) (e := 1074) (by decide)
  rw [pow_zero, one_mul] at hunit
  have hone : (1 : ℚ) ≤ n := by exact_mod_cast Nat.pos_of_ne_zero hn
  have hfraction : (n + 1) * roundoff ≤ n / 2 ^ 52 := by
    rw [roundoff]
    linarith
  exact add_le_add (mul_le_mul_of_nonneg_right hfraction hbound) hunit

end Statistics

namespace Samples

def inLayout (xs : Samples) (layout : Layout) : Samples := { xs with layout := layout }

theorem getElem?_summaries_inLayout {xs : Samples} {j : ℕ} (hj : j < xs.width) (statistic : Statistic)
    (layout : Layout) : ((xs.inLayout layout).summaries statistic)[j]? =
      some (statistic.summary (layout.sum xs.width) (xs.column j)) := by
  have hj' : j < (xs.inLayout layout).width := hj
  rw [summaries, columns, List.getElem?_map, List.getElem?_map, List.getElem?_range hj']
  rfl

open Statistics

/-- The centre of a column of numbers up to `largest` is a finite number in any layout, and it is off the exact mean by
no more than twice a rounding of `largest` for each row. So two layouts do not differ by more than twice that. -/
theorem means_near_exact {xs : Samples} (hxs : xs.check = .ok ()) (hheight : xs.height ≤ 2 ^ 20)
    (hentries : ∀ x ∈ xs.entries, |x.value| ≤ 2 ^ 500) {j : ℕ} (hj : j < xs.width) {largest : ℚ}
    (hlargest : IsGreatest {q | ∃ x ∈ xs.column j, q = |x.value|} largest) :
    (∀ layout, ∃ s, ((xs.inLayout layout).summaries .mean)[j]? = some s ∧ s.centre.isFinite = true ∧
        |s.centre.value - exactMean (xs.column j)| ≤ xs.height / 2 ^ 52 * largest + 1 / 2 ^ 1074) ∧
      ∀ layout layout' s s', ((xs.inLayout layout).summaries .mean)[j]? = some s →
        ((xs.inLayout layout').summaries .mean)[j]? = some s' →
        |s.centre.value - s'.centre.value| ≤ 2 * (xs.height / 2 ^ 52 * largest + 1 / 2 ^ 1074) := by
  obtain ⟨⟨h0, -⟩, hfinite⟩ := check_eq_ok_iff.1 hxs
  have hlength := length_column hj
  have hne := ne_nil_of_mem_columns h0 (List.mem_map_of_mem (List.mem_range.2 hj))
  have hwithin : ∀ x ∈ xs.column j, Within (2 ^ 500) x := fun x hx =>
    ⟨hfinite x (mem_entries_of_mem_column hx), hentries x (mem_entries_of_mem_column hx)⟩
  have hnear (layout : Layout) : ∃ s, ((xs.inLayout layout).summaries .mean)[j]? = some s ∧
      s.centre.isFinite = true ∧
      |s.centre.value - exactMean (xs.column j)| ≤ xs.height / 2 ^ 52 * largest + 1 / 2 ^ 1074 := by
    have hcentre := (Statistic.mean.bounded_summary (le_refl 500) layout xs.width hwithin hne
      (hlength.trans_le hheight)).centre.isFinite
    refine ⟨_, getElem?_summaries_inLayout hj .mean layout, hcentre, ?_⟩
    rw [Statistic.centre_mean hne] at hcentre ⊢
    have herror := abs_value_mean_sub_le (layout.adds_sum xs.width _) hne
      (hlength.trans_le (hheight.trans (by decide))) (fun x hx => hlargest.2 ⟨x, hx, rfl⟩) hcentre
    obtain ⟨x, -, hx⟩ := hlargest.1
    rw [hlength] at herror ⊢
    exact herror.trans (mean_error_le h0 (hx ▸ abs_nonneg _))
  refine ⟨hnear, fun layout layout' s s' hs hs' => ?_⟩
  obtain ⟨t, ht, -, hfirst⟩ := hnear layout
  obtain ⟨t', ht', -, hsecond⟩ := hnear layout'
  obtain rfl : s = t := Option.some.inj (hs.symm.trans ht)
  obtain rfl : s' = t' := Option.some.inj (hs'.symm.trans ht')
  rw [abs_sub_comm] at hsecond
  rw [two_mul]
  exact (abs_sub_le _ (exactMean (xs.column j)) _).trans (add_le_add hfirst hsecond)

theorem means_near_exact_lanes :
    let small := finite false (.scaled 1 1021 (by decide) (by decide))
    let xs : Samples := ⟨8, 1, one :: List.replicate 7 small, .rowMajor, rfl⟩
    xs.check = .ok () ∧ xs.height ≤ 2 ^ 20 ∧ (∀ x ∈ xs.entries, |x.value| ≤ 2 ^ 500) ∧
      IsGreatest {q | ∃ x ∈ xs.column 0, q = |x.value|} 1 ∧
      ∃ s t, ((xs.inLayout .rowMajor).summaries .mean)[0]? = some s ∧
        ((xs.inLayout .columnMajor).summaries .mean)[0]? = some t ∧ s.centre < t.centre ∧
        |s.centre.value - t.centre.value| ≤ 2 * (8 / 2 ^ 52 * 1 + 1 / 2 ^ 1074) := by
  intro small xs
  have hxs : xs.check = .ok () := by decide +kernel
  have hentries : ∀ x ∈ xs.entries, |x.value| ≤ 2 ^ 500 := by decide +kernel
  have hlargest : IsGreatest {q | ∃ x ∈ xs.column 0, q = |x.value|} 1 := by
    refine ⟨⟨one, List.mem_cons_self, by rw [value_one, abs_one]⟩, ?_⟩
    rintro q ⟨x, hx, rfl⟩
    revert x
    decide +kernel
  obtain ⟨-, hdiffer⟩ := means_near_exact hxs (by decide) hentries (j := 0) (by decide) hlargest
  have hs : ((xs.inLayout .rowMajor).summaries .mean)[0]? = _ := getElem?_summaries_inLayout (by decide) .mean .rowMajor
  have ht : ((xs.inLayout .columnMajor).summaries .mean)[0]? = _ :=
    getElem?_summaries_inLayout (by decide) .mean .columnMajor
  exact ⟨hxs, by decide, hentries, hlargest, _, _, hs, ht, by decide +kernel, hdiffer _ _ _ _ hs ht⟩

end Samples

end OutlierBand
