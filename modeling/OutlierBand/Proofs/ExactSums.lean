import OutlierBand.Proofs.MagnitudeBound
import OutlierBand.Proofs.RoundingError
import OutlierBand.Proofs.SampleDefects
import OutlierBand.Proofs.SeparateFeatures
import OutlierBand.Proofs.SummationOrder

/-!
Columns that are summed without rounding. Where the values are whole multiples of one power of two and their sizes add
up to at most `2 ^ 53` of it, so is every partial sum, and no addition rounds, whatever the order. Only the division by
the number of rows does, so the mean depends neither on the layout nor on the order of the rows. A sum starts at zero
and so never ends at minus zero.
-/

namespace OutlierBand

open Binary64

namespace Binary64

theorem exact_intCast_mul_zpow {m q : ℤ} (hm : m.natAbs ≤ 2 ^ 53) (hlow : -1074 ≤ q) (hhigh : q ≤ 970) :
    Exact (m * 2 ^ q) := by
  obtain ⟨e, rfl⟩ : ∃ e : ℕ, q = e - 1074 := ⟨(q + 1074).toNat, by omega⟩
  have hsize : (m * 2 ^ e).natAbs = m.natAbs * 2 ^ e := by rw [Int.natAbs_mul, Int.natAbs_pow]; rfl
  apply exact_of_units (i := m * 2 ^ e)
  · rw [mul_assoc, zpow_mul_unitsInOne, Int.cast_mul, Int.cast_pow, Int.cast_ofNat]
  · rw [hsize]
    exact representable_mul_two_pow hm e
  · rw [hsize]
    calc m.natAbs * 2 ^ e ≤ 2 ^ 53 * 2 ^ e := Nat.mul_le_mul_right _ hm
      _ = 2 ^ (53 + e) := (Nat.pow_add ..).symm
      _ < 2 ^ (54 + e) := Nat.pow_lt_pow_right Nat.one_lt_two (by omega)
      _ ≤ unitsInLimit := two_pow_le_unitsInLimit (by omega)

theorem nearest_of_exact {q : ℚ} (h : Exact q) (z : Bool) :
    (nearest z q).isFinite = true ∧ (nearest z q).value = q := by
  obtain ⟨x, hx, rfl⟩ := h
  exact nearest_value_eq z hx

theorem eq_of_add_eq_negative_zero {a b : Binary64} (h : a + b = finite true .zero) : a = finite true .zero := by
  have hfinite : (a + b).isFinite = true := by rw [h]; rfl
  have herror := abs_value_add_sub_le hfinite
  obtain ⟨ha, hb⟩ := isFinite_of_add hfinite
  obtain ⟨s, m, rfl⟩ := exists_finite ha
  obtain ⟨t, n, rfl⟩ := exists_finite hb
  -- An addition does not underflow: the error is less than the sum, so only a sum of zero is rounded to zero.
  have hsum : (finite s m).value + (finite t n).value = 0 := by
    by_contra hne
    have hsmall := mul_lt_of_lt_one_left (abs_pos.2 hne) (show roundoff < 1 by unfold roundoff; norm_num)
    rw [h, value_finite_zero, zero_sub, abs_neg] at herror
    exact absurd hsmall herror.not_gt
  rw [add_finite, hsum, nearest_zero] at h
  obtain ⟨rfl, rfl⟩ := Bool.and_eq_true _ _ ▸ (finite.inj h).1
  have hunits : signed true m.units + signed true n.units = 0 := by
    rw [← Int.cast_inj (α := ℚ), Int.cast_add, ← value_finite_mul, ← value_finite_mul, ← add_mul, hsum, zero_mul,
      Int.cast_zero]
  congr 1
  apply Magnitude.ext_units
  simp only [signed, if_true] at hunits
  change m.units = 0
  omega

theorem foldl_add_ne_negative_zero (xs : List Binary64) {a : Binary64} (ha : a ≠ finite true .zero) :
    xs.foldl (· + ·) a ≠ finite true .zero := by
  induction xs generalizing a with
  | nil => exact ha
  | cons x xs ih => exact ih (mt eq_of_add_eq_negative_zero ha)

theorem nearest_of_ne_negative_zero {s : Bool} {m : Magnitude} (h : finite s m ≠ finite true .zero) {q : ℚ}
    (hq : q = 0 → (finite s m).value = 0) : nearest s q = nearest false q := by
  by_cases h0 : q = 0
  · have hm : m.units = 0 := not_not.1 (mt (value_ne_zero_iff s m).2 (not_not.2 (hq h0)))
    obtain rfl : m = .zero := Magnitude.ext_units hm
    cases s with
    | false => rfl
    | true => exact absurd rfl h
  · exact nearest_of_ne_zero s false h0

theorem eq_nearest_of_ne_negative_zero {x : Binary64} (hx : x.isFinite = true) (h : x ≠ finite true .zero) :
    x = nearest false x.value := by
  obtain ⟨s, m, rfl⟩ := exists_finite hx
  rw [← nearest_of_ne_negative_zero h id, nearest_value]

theorem div_ofNat_eq_nearest {x : Binary64} (hx : x.isFinite = true) (h : x ≠ finite true .zero) {n : ℕ} (h0 : 0 < n)
    (hn : n < 2 ^ 64) : x / ofNat n = nearest false (x.value / (ofNat n).value) := by
  have hfinite := isFinite_ofNat_of_lt hn
  have hpos := value_ofNat_pos h0 hn
  obtain ⟨k, hk, hk0⟩ := exists_finite_of_zero_lt hfinite ((zero_lt_iff hfinite).2 hpos)
  obtain ⟨s, m, rfl⟩ := exists_finite hx
  rw [hk] at hpos ⊢
  rw [div_finite s false m hk0, Bool.bne_false]
  exact nearest_of_ne_negative_zero h fun hq => (div_eq_zero_iff.1 hq).resolve_right hpos.ne'

end Binary64

namespace Statistics

structure Multiples (q : ℤ) (s : Multiset Binary64) : Prop where
  isFinite : ∀ x ∈ s, x.isFinite = true
  multiple : ∀ x ∈ s, ∃ m : ℤ, x.value = m * 2 ^ q
  total : (s.map fun x => |x.value|).sum ≤ 2 ^ 53 * 2 ^ q

variable {q : ℤ}

theorem Multiples.of_add {s t : Multiset Binary64} (h : Multiples q (s + t)) : Multiples q s := by
  refine ⟨fun x hx => h.isFinite x (Multiset.mem_add.2 (.inl hx)),
    fun x hx => h.multiple x (Multiset.mem_add.2 (.inl hx)), ?_⟩
  have htotal := h.total
  rw [Multiset.map_add, Multiset.sum_add] at htotal
  have hrest : 0 ≤ (t.map fun x => |x.value|).sum := Multiset.sum_nonneg (by simp)
  linarith

theorem Multiples.natAbs_le {s : Multiset Binary64} (h : Multiples q s) {m : ℤ} (hm : exactSum s = m * 2 ^ q) :
    m.natAbs ≤ 2 ^ 53 := by
  have hpos : (0 : ℚ) < 2 ^ q := zpow_pos two_pos q
  have hle : |exactSum s| ≤ 2 ^ 53 * 2 ^ q := by
    refine Multiset.abs_sum_le_sum_abs.trans ?_
    rw [Multiset.map_map]
    exact h.total
  rw [hm, abs_mul, abs_of_pos hpos, mul_le_mul_iff_left₀ hpos, ← Int.cast_abs, ← Nat.cast_natAbs] at hle
  exact_mod_cast hle

theorem Adds.value_eq {s : Multiset Binary64} {x : Binary64} (h : Adds s x) (hs : Multiples q s) (hlow : -1074 ≤ q)
    (hhigh : q ≤ 970) : x.isFinite = true ∧ x.value = exactSum s ∧ ∃ m : ℤ, exactSum s = m * 2 ^ q := by
  induction h with
  | none => exact ⟨rfl, value_zero, 0, by simp [exactSum_zero]⟩
  | single x =>
    rw [exactSum_single]
    exact ⟨hs.isFinite x (Multiset.mem_singleton_self x), rfl, hs.multiple x (Multiset.mem_singleton_self x)⟩
  | @add s t a b _ _ iha ihb =>
    obtain ⟨ha, hva, m, hm⟩ := iha hs.of_add
    obtain ⟨hb, hvb, n, hn⟩ := ihb (add_comm s t ▸ hs).of_add
    have hsum : exactSum (s + t) = (m + n : ℤ) * 2 ^ q := by
      rw [exactSum_add, hm, hn, Int.cast_add, add_mul]
    obtain ⟨z, hz⟩ := exists_add_eq_nearest ha hb
    rw [hva, hvb, ← exactSum_add] at hz
    obtain ⟨hfinite, hvalue⟩ := nearest_of_exact (hsum ▸ exact_intCast_mul_zpow (hs.natAbs_le hsum) hlow hhigh) z
    rw [hz]
    exact ⟨hfinite, hvalue, _, hsum⟩

/-- Values that are whole multiples of one power of two, the multiples adding up to at most `2 ^ 53` without their
signs. -/
def ExactlySummable (column : List Binary64) : Prop :=
  ∃ q : ℤ, -1074 ≤ q ∧ q ≤ 970 ∧ ∃ multiples : List ℤ,
    List.Forall₂ (fun x (m : ℤ) => x.isFinite = true ∧ x.value = m * (2 : ℚ) ^ q) column multiples ∧
      (multiples.map Int.natAbs).sum ≤ 2 ^ 53

theorem sum_abs_value_eq {column : List Binary64} {multiples : List ℤ}
    (h : List.Forall₂ (fun x (m : ℤ) => x.isFinite = true ∧ x.value = m * (2 : ℚ) ^ q) column multiples) :
    (column.map fun x => |x.value|).sum = ((multiples.map Int.natAbs).sum : ℕ) * (2 : ℚ) ^ q := by
  induction h with
  | nil => simp
  | @cons x m _ _ hx _ ih =>
    have hsize : |x.value| = (m.natAbs : ℚ) * 2 ^ q := by
      rw [hx.2, abs_mul, abs_of_pos (zpow_pos (two_pos : (0 : ℚ) < 2) q), Nat.cast_natAbs, Int.cast_abs]
    rw [List.map_cons, List.sum_cons, ih, hsize, List.map_cons, List.sum_cons, Nat.cast_add, add_mul]

theorem ExactlySummable.exists_multiples {column : List Binary64} (h : ExactlySummable column) :
    ∃ q : ℤ, -1074 ≤ q ∧ q ≤ 970 ∧ Multiples q column := by
  obtain ⟨q, hlow, hhigh, multiples, hcolumn, htotal⟩ := h
  have hmem {x : Binary64} (hx : x ∈ column) : ∃ m : ℤ, x.isFinite = true ∧ x.value = m * 2 ^ q := by
    obtain ⟨i, hi, rfl⟩ := List.getElem_of_mem hx
    exact ⟨_, (List.forall₂_iff_get.1 hcolumn).2 i hi (hcolumn.length_eq ▸ hi)⟩
  refine ⟨q, hlow, hhigh, fun x hx => (hmem hx).choose_spec.1, fun x hx => ?_, ?_⟩
  · obtain ⟨m, -, hm⟩ := hmem hx
    exact ⟨m, hm⟩
  · rw [Multiset.map_coe, Multiset.sum_coe, sum_abs_value_eq hcolumn]
    apply mul_le_mul_of_nonneg_right _ (zpow_pos two_pos q).le
    exact_mod_cast htotal

theorem sum_ne_negative_zero (xs : List Binary64) : sum xs ≠ finite true .zero :=
  foldl_add_ne_negative_zero xs (by decide)

end Statistics

open Statistics

theorem Layout.sum_ne_negative_zero (layout : Layout) (width : ℕ) (column : List Binary64) :
    layout.sum width column ≠ finite true .zero := by
  have hlanes (xs : List Binary64) : sumInLanes xs ≠ finite true .zero := by
    rw [sumInLanes_eq]
    exact Statistics.sum_ne_negative_zero _
  cases layout with
  | rowMajor => exact Statistics.sum_ne_negative_zero column
  | columnMajorStrided => exact Statistics.sum_ne_negative_zero column
  | columnMajor => exact hlanes column
  | columnMajorReversed =>
    unfold sum
    split_ifs
    · exact Statistics.sum_ne_negative_zero column
    · exact hlanes column.reverse

theorem Layout.sum_eq_nearest {column : List Binary64} {q : ℤ} (h : Multiples q column) (hlow : -1074 ≤ q)
    (hhigh : q ≤ 970) (layout : Layout) (width : ℕ) :
    layout.sum width column = nearest false (exactSum column) ∧ (layout.sum width column).isFinite = true ∧
      (layout.sum width column).value = exactSum column := by
  obtain ⟨hfinite, hvalue, -⟩ := (layout.adds_sum width column).value_eq h hlow hhigh
  refine ⟨?_, hfinite, hvalue⟩
  rw [← hvalue]
  exact eq_nearest_of_ne_negative_zero hfinite (layout.sum_ne_negative_zero width column)

namespace Samples

theorem perm_column {xs ys : Samples} (h : ys.rows.Perm xs.rows) (j : ℕ) : (ys.column j).Perm (xs.column j) :=
  h.filterMap _

theorem forall₂_summaries {xs : Samples} {statistic : Statistic} {P : Summary → List Binary64 → Prop}
    (h : ∀ column ∈ xs.columns, P (statistic.summary (xs.layout.sum xs.width) column) column) :
    List.Forall₂ P (xs.summaries statistic) xs.columns :=
  List.forall₂_map_left_iff.2 (List.forall₂_same.2 h)

theorem centre_eq_nearest {xs : Samples} (h0 : xs.height ≠ 0) (hheight : xs.height < 2 ^ 64) {column : List Binary64}
    (hcolumn : column ∈ xs.columns) (h : ExactlySummable column) :
    (Statistic.mean.summary (xs.layout.sum xs.width) column).centre =
      nearest false (exactSum column / (nearest false xs.height).value) := by
  obtain ⟨q, hlow, hhigh, hmultiples⟩ := h.exists_multiples
  obtain ⟨-, hfinite, hvalue⟩ := Layout.sum_eq_nearest hmultiples hlow hhigh xs.layout xs.width
  rw [Statistic.centre_mean (ne_nil_of_mem_columns h0 hcolumn), length_of_mem_columns hcolumn, ← hvalue,
    ← ofNat_eq_nearest]
  exact div_ofNat_eq_nearest hfinite (xs.layout.sum_ne_negative_zero xs.width column) (Nat.pos_of_ne_zero h0) hheight

/-- Where every column sums up exactly, the centres are the same in any layout and with the rows in any order. Each is
the exact sum divided by the rounded number of rows, and so the exact mean unless there are too many rows to count
exactly. -/
theorem means_exact {xs : Samples} (h0 : xs.height ≠ 0) (h : ∀ column ∈ xs.columns, ExactlySummable column) :
    (∀ ys : Samples, ys.width = xs.width → ys.rows.Perm xs.rows →
      (ys.summaries .mean).map Summary.centre = (xs.summaries .mean).map Summary.centre) ∧
    (xs.height < 2 ^ 64 → List.Forall₂ (fun s (column : List Binary64) =>
      s.centre = nearest false (exactSum column / (nearest false xs.height).value) ∧
        (exactSum column = 0 → s.centre = zero)) (xs.summaries .mean) xs.columns) ∧
    (xs.height ≤ 2 ^ 53 → List.Forall₂ (fun s (column : List Binary64) => s.centre = nearest false (exactMean column))
      (xs.summaries .mean) xs.columns) := by
  refine ⟨fun ys hwidth hrows => ?_, fun hheight => forall₂_summaries fun column hcolumn => ?_,
    fun hheight => forall₂_summaries fun column hcolumn => ?_⟩
  · rw [summaries, summaries, columns, columns, hwidth, List.map_map, List.map_map, List.map_map, List.map_map]
    refine List.map_congr_left fun j hj => ?_
    have hcolumn : xs.column j ∈ xs.columns := List.mem_map_of_mem hj
    have hperm := perm_column hrows j
    have hmultiset : (ys.column j : Multiset Binary64) = xs.column j := Multiset.coe_eq_coe.2 hperm
    have hne := ne_nil_of_mem_columns h0 hcolumn
    have hne' : ys.column j ≠ [] := fun h => hne (List.nil_perm.1 (h ▸ hperm))
    obtain ⟨q, hlow, hhigh, hmultiples⟩ := (h _ hcolumn).exists_multiples
    obtain ⟨hsum, -⟩ := Layout.sum_eq_nearest hmultiples hlow hhigh xs.layout xs.width
    obtain ⟨hsum', -⟩ := Layout.sum_eq_nearest (hmultiset ▸ hmultiples) hlow hhigh ys.layout xs.width
    simp only [Function.comp_apply]
    rw [Statistic.centre_mean hne', Statistic.centre_mean hne, hsum, hsum', hperm.length_eq, hmultiset]
  · have hcentre := centre_eq_nearest h0 hheight hcolumn (h column hcolumn)
    refine ⟨hcentre, fun hzero => ?_⟩
    rw [hcentre, hzero, zero_div, nearest_zero]
    rfl
  · rw [centre_eq_nearest h0 (hheight.trans_lt (by decide)) hcolumn (h column hcolumn), ← ofNat_eq_nearest,
      value_ofNat hheight, ← length_of_mem_columns hcolumn]
    rfl

theorem means_exact_of_opposites :
    let large := ofNat (2 ^ 51)
    let xs : Samples := ⟨3, 2, [large, finite true .zero, one, one, -large, -one], .rowMajor, rfl⟩
    let ys : Samples := ⟨3, 2, [one, one, -large, -one, large, finite true .zero], .columnMajorReversed, rfl⟩
    xs.height ≠ 0 ∧ (∀ column ∈ xs.columns, ExactlySummable column) ∧ ys.rows.Perm xs.rows ∧ xs.height ≤ 2 ^ 53 ∧
      (ys.summaries .mean).map Summary.centre = [nearest false (1 / 3), zero] := by
  intro large xs ys
  have hcolumns : xs.columns = [[large, one, -large], [finite true .zero, one, -one]] := rfl
  have hsummable : ∀ column ∈ xs.columns, ExactlySummable column := by
    rw [hcolumns]
    simp only [List.forall_mem_cons, List.not_mem_nil, false_implies, implies_true, and_true]
    constructor
    · exact ⟨0, by decide, by decide, [2 ^ 51, 1, -2 ^ 51], by decide +kernel, by decide⟩
    · exact ⟨0, by decide, by decide, [0, 1, -1], by decide +kernel, by decide⟩
  have hperm : ys.rows.Perm xs.rows := by decide +kernel
  obtain ⟨hsame, hrounded, hexact⟩ := means_exact (by decide) hsummable
  refine ⟨by decide, hsummable, hperm, by decide, ?_⟩
  rw [hsame ys rfl hperm]
  have hzeros := hrounded (by decide)
  have hmeans := hexact (by decide)
  rw [hcolumns] at hzeros hmeans
  have hthird : exactMean [large, one, -large] = 1 / 3 := by decide +kernel
  have hzero : exactSum [finite true .zero, one, -one] = 0 := by decide +kernel
  generalize xs.summaries .mean = summaries at hzeros hmeans
  obtain _ | ⟨hfirst, _ | ⟨-, _ | _⟩⟩ := hmeans
  obtain _ | ⟨-, _ | ⟨⟨-, hsecond⟩, -⟩⟩ := hzeros
  rw [List.map_cons, List.map_cons, List.map_nil, hfirst, hsecond hzero, hthird]

theorem exactlySummable_one_zeros (n : ℕ) : ExactlySummable (one :: List.replicate n zero) := by
  have hzeros : List.Forall₂ (fun x (m : ℤ) => x.isFinite = true ∧ x.value = m * (2 : ℚ) ^ (0 : ℤ))
      (List.replicate n zero) (List.replicate n 0) := by
    induction n with
    | zero => exact .nil
    | succ n ih => exact .cons ⟨rfl, by simp [value_zero]⟩ ih
  refine ⟨0, by decide, by decide, 1 :: List.replicate n 0, .cons ⟨isFinite_one, by simp [value_one]⟩ hzeros, ?_⟩
  simp

theorem exactSum_one_zeros (n : ℕ) : exactSum (one :: List.replicate n zero : List Binary64) = 1 := by
  simp [exactSum, value_one, value_zero]

theorem centre_one_zeros {n : ℕ} (hn : n + 1 < 2 ^ 64) :
    ((ofColumn (one :: List.replicate n zero)).summaries .mean).map Summary.centre =
      [nearest false (1 / (nearest false (n + 1 : ℕ)).value)] := by
  have hlength : (one :: List.replicate n zero).length = n + 1 := by rw [List.length_cons, List.length_replicate]
  have hcolumns := columns_ofColumn (one :: List.replicate n zero)
  have hcolumn : one :: List.replicate n zero ∈ (ofColumn (one :: List.replicate n zero)).columns := by
    rw [hcolumns]
    exact List.mem_singleton_self _
  rw [summaries, hcolumns, List.map_singleton, List.map_singleton]
  have hheight : (ofColumn (one :: List.replicate n zero)).height = n + 1 := hlength
  rw [centre_eq_nearest (hheight ▸ n.succ_ne_zero) (hheight ▸ hn) hcolumn (exactlySummable_one_zeros n), hheight,
    exactSum_one_zeros]

theorem mean_of_too_many_rows :
    let column := one :: List.replicate (2 ^ 53) zero
    (∀ values ∈ (ofColumn column).columns, ExactlySummable values) ∧
      ((ofColumn column).summaries .mean).map Summary.centre ≠ [nearest false (exactMean column)] := by
  -- The rows are so many that their number is rounded before the sum is divided by it, and the quotient comes out a
  -- step above the exact mean.
  intro column
  refine ⟨?_, ?_⟩
  · rw [columns_ofColumn, List.forall_mem_singleton]
    exact exactlySummable_one_zeros _
  · have hmean : exactMean column = 1 / (2 ^ 53 + 1 : ℕ) := by
      rw [exactMean, exactSum_one_zeros, List.length_cons, List.length_replicate]
    have hne : nearest false (1 / (nearest false (2 ^ 53 + 1 : ℕ)).value) ≠ nearest false (1 / (2 ^ 53 + 1 : ℕ)) := by
      decide +kernel
    rw [hmean, centre_one_zeros (by decide)]
    exact mt List.singleton_inj.1 hne

end Samples

end OutlierBand
