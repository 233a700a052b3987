import OutlierBand.Proofs.OverflowGuard
import Mathlib.Algebra.Order.BigOperators.Group.Multiset

namespace OutlierBand

open Binary64

namespace Statistics

/-- What these numbers come to when they are added up, each taken once, in some order; every addition rounds. -/
inductive Adds : Multiset Binary64 → Binary64 → Prop
  | none : Adds 0 zero
  | single (x : Binary64) : Adds {x} x
  | add {s t : Multiset Binary64} {a b : Binary64} (ha : Adds s a) (hb : Adds t b) : Adds (s + t) (a + b)

def exactSum (s : Multiset Binary64) : ℚ := (s.map value).sum

def exactMean (column : List Binary64) : ℚ := exactSum column / column.length

theorem exactSum_zero : exactSum 0 = 0 := rfl

theorem exactSum_single (x : Binary64) : exactSum {x} = x.value := by
  rw [exactSum, Multiset.map_singleton, Multiset.sum_singleton]

theorem exactSum_add (s t : Multiset Binary64) : exactSum (s + t) = exactSum s + exactSum t := by
  rw [exactSum, Multiset.map_add, Multiset.sum_add]
  rfl

theorem abs_exactSum_le {s : Multiset Binary64} {bound : ℚ} (h : ∀ x ∈ s, |x.value| ≤ bound) :
    |exactSum s| ≤ s.card * bound := by
  have hle := Multiset.sum_le_card_nsmul ((s.map value).map fun q => |q|) bound (by simpa using h)
  rw [Multiset.card_map, Multiset.card_map, nsmul_eq_mul] at hle
  exact Multiset.abs_sum_le_sum_abs.trans hle

theorem exactMean_replicate {n : ℕ} (hn : n ≠ 0) (x : Binary64) : exactMean (List.replicate n x) = x.value := by
  rw [exactMean, exactSum, Multiset.coe_replicate, Multiset.map_replicate, Multiset.sum_replicate, nsmul_eq_mul,
    List.length_replicate, mul_div_cancel_left₀ _ (Nat.cast_ne_zero.2 hn)]

variable {parts others : List (Multiset Binary64)} {xs ys : List Binary64}

theorem forall₂_adds_single (xs : List Binary64) : List.Forall₂ Adds (xs.map fun x => {x}) xs :=
  List.forall₂_map_left_iff.2 (List.forall₂_same.2 fun x _ => .single x)

theorem sum_map_single (xs : List Binary64) : (xs.map fun x => ({x} : Multiset Binary64)).sum = xs := by
  rw [← Multiset.sum_coe, ← Multiset.map_coe, Multiset.sum_map_singleton]

theorem forall₂_adds_zipWith (h : List.Forall₂ Adds parts xs) (h' : List.Forall₂ Adds others ys) :
    List.Forall₂ Adds (parts.zipWith (· + ·) others) (xs.zipWith (· + ·) ys) := by
  induction h generalizing others ys with
  | nil => exact .nil
  | cons ha _ ih =>
    cases h' with
    | nil => exact .nil
    | cons hb hrest => exact .cons (ha.add hb) (ih hrest)

theorem Adds.foldl (h : List.Forall₂ Adds parts xs) {s : Multiset Binary64} {a : Binary64} (ha : Adds s a) :
    Adds (s + parts.sum) (xs.foldl (· + ·) a) := by
  induction h generalizing s a with
  | nil => simpa using ha
  | cons hx _ ih =>
    rw [List.sum_cons, ← add_assoc]
    exact ih (ha.add hx)

theorem adds_sum_of_forall₂ (h : List.Forall₂ Adds parts xs) : Adds parts.sum (sum xs) := by
  rw [← zero_add parts.sum]
  exact Adds.none.foldl h

theorem adds_sum (xs : List Binary64) : Adds xs (sum xs) := by
  rw [← sum_map_single]
  exact adds_sum_of_forall₂ (forall₂_adds_single xs)

theorem exists_adds_addToLanes {lanes : List Binary64} (h : List.Forall₂ Adds parts lanes) (hlanes : lanes.length = 8)
    (xs : List Binary64) : ∃ parts', List.Forall₂ Adds parts' (addToLanes lanes xs).1 ∧
      parts'.sum + ((addToLanes lanes xs).2 : Multiset Binary64) = parts.sum + (xs : Multiset Binary64) := by
  fun_induction addToLanes lanes xs generalizing parts with
  | case1 lanes x₀ x₁ x₂ x₃ x₄ x₅ x₆ x₇ rest ih =>
    have hgroup := forall₂_adds_single [x₀, x₁, x₂, x₃, x₄, x₅, x₆, x₇]
    obtain ⟨parts', hparts, hsum⟩ := ih (forall₂_adds_zipWith h hgroup) (by simp [hlanes])
    refine ⟨parts', hparts, hsum.trans ?_⟩
    have hlength := h.length_eq.trans (hlanes.trans hgroup.length_eq.symm)
    rw [← List.sum_add_sum_eq_sum_zipWith_of_length_eq _ _ hlength, sum_map_single, add_assoc, Multiset.coe_add]
    rfl
  | case2 => exact ⟨parts, h, rfl⟩

theorem adds_sumInLanes (xs : List Binary64) : Adds xs (sumInLanes xs) := by
  have hzero : List.Forall₂ Adds (List.replicate 8 0) (List.replicate 8 zero) :=
    List.forall₂_iff_get.2 ⟨rfl, fun i _ _ => by
      simpa only [List.get_eq_getElem, List.getElem_replicate] using Adds.none⟩
  obtain ⟨parts, hparts, hsum⟩ := exists_adds_addToLanes hzero rfl xs
  have hlength : parts.length = 8 := hparts.length_eq.trans (length_addToLanes rfl xs)
  rw [List.sum_replicate, nsmul_zero, zero_add] at hsum
  rw [sumInLanes_eq, laneTerms]
  generalize addToLanes (List.replicate 8 zero) xs = r at *
  have hpairs := forall₂_adds_zipWith (List.forall₂_take 4 hparts) (List.forall₂_drop 4 hparts)
  have hterms := adds_sum_of_forall₂ (List.rel_append hpairs (forall₂_adds_single r.2))
  rwa [List.sum_append, sum_map_single, ← List.sum_add_sum_eq_sum_zipWith_of_length_eq _ _ (by simp [hlength]),
    List.sum_take_add_sum_drop, hsum] at hterms

end Statistics

theorem Layout.adds_sum (layout : Layout) (width : Nat) (column : List Binary64) :
    Statistics.Adds column (layout.sum width column) := by
  cases layout with
  | rowMajor => exact Statistics.adds_sum column
  | columnMajorStrided => exact Statistics.adds_sum column
  | columnMajor => exact Statistics.adds_sumInLanes column
  | columnMajorReversed =>
    unfold sum
    split_ifs
    · exact Statistics.adds_sum column
    · rw [← Multiset.coe_reverse]
      exact Statistics.adds_sumInLanes column.reverse

theorem Statistic.centre_mean {column : List Binary64} (h : column ≠ []) (sum : List Binary64 → Binary64) :
    (mean.summary sum column).centre = sum column / .ofNat column.length := if_neg h

end OutlierBand
