import OutlierBand.Proofs.NumberOrder
import OutlierBand.Statistics.Summary

namespace OutlierBand

open Binary64

namespace Samples

theorem length_of_mem_pieces {width height : Nat} {l : List Binary64} (h : l.length = height * width)
    {row : List Binary64} (hrow : row ∈ pieces width height l) : row.length = width := by
  induction height generalizing l with
  | zero => cases hrow
  | succ n ih =>
    rw [Nat.succ_mul] at h
    rcases List.mem_cons.1 hrow with rfl | hrow
    · simp [h]
    · exact ih (by simp [h]) hrow

theorem length_of_mem_rows {xs : Samples} {row : List Binary64} (h : row ∈ xs.rows) : row.length = xs.width :=
  length_of_mem_pieces xs.length_entries h

theorem length_column {xs : Samples} {j : Nat} (hj : j < xs.width) : (xs.column j).length = xs.height := by
  rw [column, List.length_filterMap_eq_countP, List.countP_eq_length.2, xs.length_rows]
  intro row hrow
  rw [List.getElem?_eq_getElem (by rwa [length_of_mem_rows hrow])]
  rfl

theorem rows_of_width_one {xs : Samples} (h : xs.width = 1) : xs.rows = (xs.column 0).map fun x => [x] := by
  have hrow : ∀ row ∈ xs.rows, (row[0]?.map fun x => [x]) = some row := by
    intro row hrow
    obtain ⟨x, rfl⟩ := List.length_eq_one_iff.1 ((length_of_mem_rows hrow).trans h)
    rfl
  rw [column, List.map_filterMap, List.filterMap_congr hrow, List.filterMap_some]

theorem mem_entries_of_mem_pieces {width height : Nat} {l row : List Binary64} (h : row ∈ pieces width height l)
    {x : Binary64} (hx : x ∈ row) : x ∈ l := by
  induction height generalizing l with
  | zero => cases h
  | succ n ih =>
    rcases List.mem_cons.1 h with rfl | h
    · exact List.mem_of_mem_take hx
    · exact List.mem_of_mem_drop (ih h)

theorem mem_entries_of_mem_column {xs : Samples} {j : Nat} {x : Binary64} (h : x ∈ xs.column j) : x ∈ xs.entries := by
  obtain ⟨row, hrow, hx⟩ := List.mem_filterMap.1 h
  exact mem_entries_of_mem_pieces hrow (List.mem_of_getElem? hx)

theorem length_of_mem_columns {xs : Samples} {values : List Binary64} (h : values ∈ xs.columns) :
    values.length = xs.height := by
  obtain ⟨j, hj, rfl⟩ := List.mem_map.1 h
  exact length_column (List.mem_range.1 hj)

theorem ne_nil_of_mem_columns {xs : Samples} (h0 : xs.height ≠ 0) {values : List Binary64} (h : values ∈ xs.columns) :
    values ≠ [] := by
  rw [← List.length_pos_iff, length_of_mem_columns h]
  exact Nat.pos_of_ne_zero h0

theorem mem_entries_of_mem_columns {xs : Samples} {values : List Binary64} (h : values ∈ xs.columns) {x : Binary64}
    (hx : x ∈ values) : x ∈ xs.entries := by
  obtain ⟨j, -, rfl⟩ := List.mem_map.1 h
  exact mem_entries_of_mem_column hx

theorem isFinite_of_mem_columns {xs : Samples} (h : xs.check = .ok ()) {values : List Binary64}
    (hvalues : values ∈ xs.columns) {x : Binary64} (hx : x ∈ values) : x.isFinite = true :=
  (check_eq_ok_iff.1 h).2 x (mem_entries_of_mem_columns hvalues hx)

theorem length_columns (xs : Samples) : xs.columns.length = xs.width := by simp [columns]

theorem columns_of_width_one {xs : Samples} (h : xs.width = 1) : xs.columns = [xs.column 0] := by
  rw [columns, h]
  rfl

theorem length_summaries (xs : Samples) (statistic : Statistic) : (xs.summaries statistic).length = xs.width := by
  rw [summaries, List.length_map, length_columns]

end Samples

namespace Statistics

theorem value_middle_nonneg {xs : List Binary64} (h : ∀ x ∈ xs, 0 ≤ x.value) : 0 ≤ (middle xs).value := by
  unfold middle
  split
  next a b ha hb =>
    have ha := h a (List.mem_of_getElem? ha)
    have hb := h b (List.mem_of_getElem? hb)
    split_ifs
    · exact hb
    · exact value_div_nonneg (value_add_nonneg ha hb) (by rw [value_two]; exact two_pos.le)
  next => rw [value_zero]

theorem value_median_nonneg {xs : List Binary64} (h : ∀ x ∈ xs, 0 ≤ x.value) : 0 ≤ (median xs).value := by
  apply value_middle_nonneg
  intro x hx
  exact h x ((perm_sorted xs).mem_iff.1 hx)

theorem value_medianDeviation_nonneg (centre : Binary64) (xs : List Binary64) :
    0 ≤ (medianDeviation centre xs).value := by
  apply value_mul_nonneg
  · exact value_nonneg_of_zero_le (by decide +kernel)
  · apply value_median_nonneg
    intro y hy
    obtain ⟨x, -, rfl⟩ := List.mem_map.1 hy
    rw [value_abs]
    exact abs_nonneg _

end Statistics

theorem Statistic.value_dispersion_nonneg (statistic : Statistic) (sum : List Binary64 → Binary64)
    (column : List Binary64) : 0 ≤ (statistic.summary sum column).dispersion.value := by
  cases statistic with
  | mean => exact value_sqrt_nonneg _
  | median => exact Statistics.value_medianDeviation_nonneg _ _

end OutlierBand
