import OutlierBand.Proofs.NumberOrder
import OutlierBand.Statistics.Summary

namespace OutlierBand

open Binary64

namespace Binary64

theorem add_self (s : Bool) (m : Magnitude) : finite s m + finite s m = round s (2 * m.units) 1 := by
  have hsum : signed s m.units + signed s m.units = signed s (2 * m.units) := by
    unfold signed
    split_ifs <;> omega
  rw [add_def, add, hsum, Bool.and_self, round_eq_roundSigned s _ Nat.one_pos]

theorem roundUnits_double (m : Magnitude) : roundUnits (2 * m.units) 1 = 2 * m.units := by
  obtain ⟨k, e, hk, hm⟩ := m.representable
  have hr : Representable (2 * m.units) := ⟨k, e + 1, hk, by rw [hm, Nat.pow_succ]; ring⟩
  simpa only [Nat.mul_one] using roundUnits_of_representable hr Nat.one_pos

theorem half_double {x : Binary64} (hx : x.isFinite = true) (h : ((x + x) / two).isFinite = true) :
    (x + x) / two = x := by
  obtain ⟨s, m, rfl⟩ := exists_finite hx
  obtain ⟨w, hw, hu⟩ := exists_ofNat (n := 2) (by decide)
  have hw0 : w.units ≠ 0 := by have := unitsInOne_pos; omega
  rw [add_self, two, hw] at h ⊢
  unfold round at h ⊢
  split_ifs at h ⊢ with hlt
  · rw [div_def, div, if_neg hw0, Bool.bne_false]
    rw [round_congr s (Nat.pos_of_ne_zero hw0) Nat.one_pos (c := m.units)]
    · simpa only [Nat.mul_one] using round_units s m Nat.one_pos
    · change roundUnits (2 * m.units) 1 * unitsInOne * 1 = m.units * w.units
      rw [roundUnits_double, hu]
      ring
  · cases h

theorem fma_zero_eq (z u : Bool) {a : Binary64} (ha : a.isFinite = true) :
    ∃ y, fma (finite z .zero) a (finite u .zero) = finite y .zero := by
  obtain ⟨t, n, rfl⟩ := exists_finite ha
  have h0 : Magnitude.zero.units = 0 := rfl
  refine ⟨(z != t) && u, ?_⟩
  rw [fma, h0, Nat.zero_mul, Nat.zero_mul, roundSigned, if_pos]
  simp [signed]

end Binary64

namespace Statistics

theorem sorted_replicate (n : Nat) (x : Binary64) : sorted (List.replicate n x) = List.replicate n x :=
  List.perm_replicate.1 (perm_sorted _)

theorem median_replicate_eq {n : Nat} (hn : n ≠ 0) (x : Binary64) :
    median (List.replicate n x) = if n % 2 = 1 then x else (x + x) / two := by
  have hleft : (List.replicate n x)[n / 2 - 1]? = some x := List.getElem?_replicate_of_lt (by omega)
  have hright : (List.replicate n x)[n / 2]? = some x := List.getElem?_replicate_of_lt (by omega)
  rw [median, sorted_replicate, middle, List.length_replicate, hleft, hright]

theorem median_replicate {n : Nat} (hn : n ≠ 0) {x : Binary64} (hx : x.isFinite = true)
    (h : (median (List.replicate n x)).isFinite = true) : median (List.replicate n x) = x := by
  rw [median_replicate_eq hn] at h ⊢
  split_ifs at h ⊢ with hodd
  · rfl
  · exact half_double hx h

theorem medianDeviation_replicate {n : Nat} (hn : n ≠ 0) {x : Binary64} (hx : x.isFinite = true) :
    ∃ z, medianDeviation x (List.replicate n x) = finite z .zero := by
  have hmap : (List.replicate n x).map (fun y => (y - x).abs) = List.replicate n zero := by
    rw [List.map_replicate, abs_sub_self hx]
  have hhalf : (zero + zero) / two = zero := half_double isFinite_zero (by decide +kernel)
  rw [medianDeviation, hmap, median_replicate_eq hn, hhalf, ite_self]
  exact mul_zero_eq (by decide +kernel) false

namespace Spread

structure Settled (x : Binary64) (s : Spread) : Prop where
  isFinite_mean : s.mean.isFinite = true
  value_mean : s.mean.value = x.value
  squares : ∃ z, s.squares = finite z .zero

theorem settled_push {s : Spread} {x : Binary64} (hx : x.isFinite = true) (hdelta : (x - s.mean).isFinite = true)
    (hmean : (s.push x).mean.isFinite = true ∧ (s.push x).mean.value = x.value)
    (hsquares : ∃ z, s.squares = finite z .zero) : (s.push x).Settled x := by
  obtain ⟨u, hu⟩ := hsquares
  obtain ⟨z, hz⟩ := sub_eq_zero_of_value_eq hx hmean.1 hmean.2.symm
  refine ⟨hmean.1, hmean.2, ?_⟩
  change ∃ y, fma (x - (s.push x).mean) (x - s.mean) s.squares = finite y .zero
  rw [hz, hu]
  exact fma_zero_eq z u hdelta

theorem settled_first {x : Binary64} (hx : x.isFinite = true) : (empty.push x).Settled x := by
  obtain ⟨y, hy⟩ := exists_sub_eq_nearest hx isFinite_zero
  rw [value_zero, sub_zero] at hy
  have hdelta := nearest_value_eq y hx
  rw [← hy] at hdelta
  have hone : (ofNat (0 + 1)).isFinite = true := isFinite_one
  have hone1 : (ofNat (0 + 1)).value = 1 := value_one
  obtain ⟨z, hz⟩ := exists_div_eq_nearest hdelta.1 hone (by rw [hone1]; exact one_ne_zero)
  rw [hone1, div_one, hdelta.2] at hz
  have hquotient := nearest_value_eq z hx
  rw [← hz] at hquotient
  obtain ⟨w, hw⟩ := exists_add_eq_nearest isFinite_zero hquotient.1
  rw [value_zero, hquotient.2, zero_add x.value] at hw
  have hmean := nearest_value_eq w hx
  rw [← hw] at hmean
  exact settled_push hx hdelta.1 hmean ⟨false, rfl⟩

theorem Settled.push {s : Spread} {x : Binary64} (h : s.Settled x) (hx : x.isFinite = true)
    (hcount : s.count + 1 < 2 ^ 64) : (s.push x).Settled x := by
  obtain ⟨y, hy⟩ := sub_eq_zero_of_value_eq hx h.isFinite_mean h.value_mean.symm
  have hfinite := isFinite_ofNat_of_lt hcount
  have hpos := value_ofNat_pos (Nat.succ_pos s.count) hcount
  obtain ⟨z, hz⟩ := zero_div_eq y hfinite hpos.ne'
  obtain ⟨w, hw⟩ := exists_add_eq_nearest h.isFinite_mean (b := finite z .zero) rfl
  rw [value_finite_zero, add_zero, h.value_mean] at hw
  have hmean := nearest_value_eq w hx
  rw [← hw, ← hz, ← hy] at hmean
  apply settled_push hx _ hmean h.squares
  rw [hy]
  rfl

theorem settled_ofList_replicate {x : Binary64} (hx : x.isFinite = true) {n : Nat} (h0 : n ≠ 0) (hn : n < 2 ^ 64) :
    (ofList (List.replicate n x)).Settled x := by
  induction n with
  | zero => exact absurd rfl h0
  | succ n ih =>
    rw [List.replicate_succ', ofList_append]
    by_cases hzero : n = 0
    · subst hzero
      exact settled_first hx
    · apply (ih hzero (Nat.lt_of_succ_lt hn)).push hx
      rw [count_ofList, List.length_replicate]
      exact hn

theorem deviation_replicate {x : Binary64} (hx : x.isFinite = true) {n : Nat} (h0 : n ≠ 0) (hn : n < 2 ^ 64) :
    ∃ z, (ofList (List.replicate n x)).deviation = finite z .zero := by
  obtain ⟨z, hz⟩ := (settled_ofList_replicate hx h0 hn).squares
  obtain ⟨y, hy⟩ := zero_div_eq z (isFinite_ofNat_of_lt hn) (value_ofNat_pos (Nat.pos_of_ne_zero h0) hn).ne'
  refine ⟨y, ?_⟩
  rw [deviation, count_ofList, List.length_replicate, hz, hy, sqrt]
  exact if_pos rfl

end Spread

end Statistics

namespace Statistic

def centreOfCopies (statistic : Statistic) (n : Nat) (x : Binary64) : Binary64 :=
  (statistic.summary Statistics.sum (List.replicate n x)).centre

theorem centreOfCopies_median {n : Nat} (h0 : n ≠ 0) {x : Binary64} (hx : x.isFinite = true)
    (h : (median.centreOfCopies n x).isFinite = true) : median.centreOfCopies n x = x :=
  Statistics.median_replicate h0 hx h

theorem dispersion_replicate (statistic : Statistic) {n : Nat} (h0 : n ≠ 0) (hn : n < 2 ^ 64) {x : Binary64}
    (hx : x.isFinite = true) (h : (statistic.centreOfCopies n x).isFinite = true) :
    ∃ z, (statistic.summary Statistics.sum (List.replicate n x)).dispersion = finite z .zero := by
  cases statistic with
  | mean => exact Statistics.Spread.deviation_replicate hx h0 hn
  | median =>
    have hmedian := Statistics.median_replicate h0 hx h
    change ∃ z, Statistics.medianDeviation (Statistics.median (List.replicate n x)) _ = finite z .zero
    rw [hmedian]
    exact Statistics.medianDeviation_replicate h0 hx

end Statistic

end OutlierBand
