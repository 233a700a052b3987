import OutlierBand.Proofs.MedianRank
import OutlierBand.Proofs.SeparateFeatures

namespace OutlierBand

open Binary64

namespace Binary64

theorem rank_maxNum {a e : Binary64} (hrank : 0 ≤ a.rank) (ha : a.isNaN = false) (he : e.isNaN = false) :
    (a.maxNum e).rank = max a.rank e.rank := by
  obtain ⟨x, hx⟩ := exists_place ha
  obtain ⟨y, hy⟩ := exists_place he
  have hax := rank_cases hx
  have hey := rank_cases hy
  rw [maxNum, ha, if_neg Bool.false_ne_true]
  split_ifs with hlt
  · rw [lt_iff_place_lt hx hy] at hlt
    omega
  · rw [lt_iff_place_lt hx hy] at hlt
    omega

theorem rank_foldl_maxNum {l : List Binary64} (hl : ∀ e ∈ l, e.isNaN = false) {a : Binary64} (hrank : 0 ≤ a.rank)
    (ha : a.isNaN = false) : (l.foldl maxNum a).rank = (l.map rank).foldl max a.rank := by
  induction l generalizing a with
  | nil => rfl
  | cons e l ih =>
    obtain ⟨he, hl⟩ := List.forall_mem_cons.1 hl
    have hmax := rank_maxNum hrank ha he
    rw [List.foldl_cons, ih hl (hmax ▸ hrank.trans (le_max_left ..)) (isNaN_maxNum ha he), hmax]
    rfl

theorem foldl_maxNum_perm {l l' : List Binary64} (h : l.Perm l') (hl : ∀ e ∈ l, e.isNaN = false) :
    l.foldl maxNum zero = l'.foldl maxNum zero := by
  have hl' : ∀ e ∈ l', e.isNaN = false := fun e he => hl e (h.mem_iff.2 he)
  apply rank_injective
  rw [rank_foldl_maxNum hl (le_refl _) rfl, rank_foldl_maxNum hl' (le_refl _) rfl]
  exact (h.map rank).foldl_eq _

end Binary64

namespace Band

variable {b : Band} {x : List Binary64}

theorem score_eq_infinity (h : x.length ≠ b.width ∨ ∃ r ∈ b.features.zipWith Feature.ratio x, r.isNaN = true) :
    b.score x = infinity := by
  by_cases hx : x.length = b.width
  · obtain ⟨r, hr, hnan⟩ := h.resolve_left (not_not.2 hx)
    rw [score_eq_foldl hx, zipWith_excess]
    apply foldl_maxNum_eq_infinity
    exact List.mem_map.2 ⟨r, hr, if_pos hnan⟩
  · rw [score, if_neg hx]

theorem isGreatest_score (hx : x.length = b.width) (h : ∀ r ∈ b.features.zipWith Feature.ratio x, r.isNaN = false) :
    IsGreatest {r | r = zero ∨ r ∈ b.features.zipWith Feature.ratio x} (b.score x) := by
  have hexcesses : b.features.zipWith Feature.excess x = b.features.zipWith Feature.ratio x := by
    rw [zipWith_excess]
    exact (List.map_congr_left fun r hr => if_neg (h r hr ▸ Bool.false_ne_true)).trans (List.map_id _)
  have hscore := zero_le_score b x
  rw [score_eq_foldl hx, hexcesses] at *
  obtain ⟨hzero, hbound⟩ := (foldl_maxNum_le_iff rfl h).1 (le_refl_of_isNaN (isNaN_of_le hscore))
  refine ⟨(foldl_maxNum_cases rfl h).imp_right And.right, ?_⟩
  rintro r (rfl | hr)
  · exact hzero
  · exact hbound r hr

theorem score_of_perm {d : Band} {y : List Binary64} (hwidth : d.width = b.width) (hlength : y.length = x.length)
    (h : (d.features.zip y).Perm (b.features.zip x)) : d.score y = b.score x := by
  by_cases hx : x.length = b.width
  · rw [score_eq_foldl hx, score_eq_foldl ((hlength.trans hx).trans hwidth.symm)]
    apply foldl_maxNum_perm _ isNaN_of_mem_excesses
    rw [← List.map_uncurry_zip_eq_zipWith, ← List.map_uncurry_zip_eq_zipWith]
    exact h.map _
  · rw [score, score, if_neg hx, if_neg (by rwa [hlength, hwidth])]

/-- Whatever the settings, a row of another length than the samples had, or with an undefined ratio at any place, is
infinitely far away; the score of any other row is the greatest of zero and its ratios. It is always a number and not
below zero, is the same for the same features in another order, and a batch has the scores of its rows in their
order. -/
theorem score_of_fit {xs : Samples} {s : Binary64} {c : Config} (h : fit xs s c = .ok b) :
    let ratios (x : List Binary64) := b.features.zipWith (fun f v => (v - f.centre).abs / f.tolerance) x
    (∀ x, x.length ≠ xs.width ∨ (∃ r ∈ ratios x, r.isNaN = true) → b.score x = infinity) ∧
      (∀ x, x.length = xs.width → (∀ r ∈ ratios x, r.isNaN = false) →
        IsGreatest {r | r = zero ∨ r ∈ ratios x} (b.score x)) ∧
      (∀ x, (b.score x).isNaN = false ∧ zero ≤ b.score x) ∧
      (∀ (d : Band) (x y : List Binary64), d.width = b.width → y.length = x.length →
        (d.features.zip y).Perm (b.features.zip x) → d.score y = b.score x) ∧
      ∀ ys : Samples, (b.scores ys).length = ys.height ∧
        ∀ (i : Nat) (row : List Binary64), ys.rows[i]? = some row → (b.scores ys)[i]? = some (b.score row) := by
  intro ratios
  rw [← width_of_fit h]
  refine ⟨fun x => score_eq_infinity, fun x => isGreatest_score, fun x => ?_, fun d x y => score_of_perm,
    fun ys => ⟨?_, fun i row hrow => ?_⟩⟩
  · exact ⟨isNaN_of_le (zero_le_score b x), zero_le_score b x⟩
  · rw [scores, List.length_map, ys.length_rows]
  · rw [scores, List.getElem?_map, hrow, Option.map_some]

theorem score_of_fit_negative :
    let xs : Samples := ⟨2, 2, [neg one, ofNat 4, one, ofNat 4], .rowMajor, rfl⟩
    let c : Config := ⟨neg two, neg one, .median⟩
    let b : Band := ⟨[⟨zero, neg (Decimal.toBinary64 ⟨false, 14826, -4⟩)⟩, ⟨ofNat 4, two⟩], one / two, 2⟩
    fit xs (one / two) c = .ok b ∧ b.score [invalid, ofNat 4] = infinity ∧ b.score [ofNat 3, ofNat 7] = ofNat 3 / two := by
  intro xs c b
  have hfit : fit xs (one / two) c = .ok b := by decide +kernel
  obtain ⟨hinfinite, hgreatest, -⟩ := score_of_fit hfit
  let ratios (x : List Binary64) := b.features.zipWith (fun f v => (v - f.centre).abs / f.tolerance) x
  have hundefined : ∃ r ∈ ratios [invalid, ofNat 4], r.isNaN = true := by decide +kernel
  have hdefined : ∀ r ∈ ratios [ofNat 3, ofNat 7], r.isNaN = false := by decide +kernel
  have hmem : ofNat 3 / two ∈ ratios [ofNat 3, ofNat 7] := by decide +kernel
  have honly : ∀ r ∈ zero :: ratios [ofNat 3, ofNat 7], ofNat 3 / two ≤ r → r = ofNat 3 / two := by decide +kernel
  obtain ⟨hscore, hbound⟩ := hgreatest [ofNat 3, ofNat 7] rfl hdefined
  exact ⟨hfit, hinfinite _ (.inr hundefined), honly _ (List.mem_cons.2 hscore) (hbound (.inr hmem))⟩

end Band

end OutlierBand
