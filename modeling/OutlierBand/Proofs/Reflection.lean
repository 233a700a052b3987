import OutlierBand.Classifier
import OutlierBand.Proofs.FittedBand
import OutlierBand.Proofs.MedianRank
import OutlierBand.Proofs.OpenBand
import OutlierBand.Proofs.OverflowGuard

/-!
Turning the number line round. When every sample is negated, every loop over a column gives the opposite number, or the
same where two opposite factors meet, so the band of the negated samples lies on the other side of zero, is exactly as
wide, and scores a negated row as the first band scores the row.
-/

namespace OutlierBand

open Binary64

theorem Binary64.neg_neg (x : Binary64) : - -x = x := by
  change neg (neg x) = x
  cases x <;> simp [neg]

theorem Binary64.rank_neg (x : Binary64) : (-x).rank = -x.rank - 1 := by
  change (neg x).rank = -x.rank - 1
  cases x with
  | nan s => cases s <;> simp [neg, rank] <;> omega
  | infinite s => cases s <;> simp [neg, rank]
  | finite s m => cases s <;> simp [neg, rank]

theorem Binary64.add_comm (a b : Binary64) : a + b = b + a := by
  rw [add_def, add_def]
  cases a with
  | nan s => cases b <;> rfl
  | infinite s =>
    cases b with
    | nan t => rfl
    | infinite t => cases s <;> cases t <;> rfl
    | finite t n => rfl
  | finite s m =>
    cases b with
    | nan t => rfl
    | infinite t => rfl
    | finite t n => rw [add, add, Bool.and_comm, Int.add_comm]

namespace Samples

def negated (xs : Samples) : Samples :=
  ⟨xs.height, xs.width, xs.entries.map (-·), xs.layout, by rw [List.length_map, xs.length_entries]⟩

theorem pieces_map (f : Binary64 → Binary64) (width height : Nat) (l : List Binary64) :
    pieces width height (l.map f) = (pieces width height l).map (List.map f) := by
  induction height generalizing l with
  | zero => rfl
  | succ n ih => rw [pieces, pieces, List.map_cons, ← List.map_take, ← List.map_drop, ih]

theorem rows_negated (xs : Samples) : xs.negated.rows = xs.rows.map (List.map (-·)) := pieces_map ..

theorem column_negated (xs : Samples) (j : Nat) : xs.negated.column j = (xs.column j).map (-·) := by
  rw [column, column, rows_negated, List.filterMap_map, List.map_filterMap]
  simp only [Function.comp_def, List.getElem?_map]

theorem columns_negated (xs : Samples) : xs.negated.columns = xs.columns.map (List.map (-·)) := by
  rw [columns, columns, List.map_map]
  apply List.map_congr_left
  intro j _
  exact xs.column_negated j

theorem check_negated {xs : Samples} (h : xs.check = .ok ()) : xs.negated.check = .ok () := by
  obtain ⟨hshape, hfinite⟩ := check_eq_ok_iff.1 h
  refine check_eq_ok_iff.2 ⟨hshape, List.forall_mem_map.2 fun x hx => ?_⟩
  exact (isFinite_neg x).trans (hfinite x hx)

end Samples

namespace Statistics

variable {xs ys : List Binary64}

theorem forall₂_map_neg (xs : List Binary64) : List.Forall₂ (Mirrors true) (xs.map (-·)) xs :=
  List.forall₂_map_left_iff.2 (List.forall₂_same.2 fun x _ => mirrors_neg x)

theorem mirrors_foldl_add (h : List.Forall₂ (Mirrors true) xs ys) {a b : Binary64} (hab : Mirrors true a b) :
    Mirrors true (xs.foldl (· + ·) a) (ys.foldl (· + ·) b) := by
  induction h generalizing a b with
  | nil => exact hab
  | cons hxy _ ih => exact ih (hab.add hxy)

theorem mirrors_sum (h : List.Forall₂ (Mirrors true) xs ys) : Mirrors true (sum xs) (sum ys) :=
  mirrors_foldl_add h (.finite (.inl rfl))

theorem forall₂_zipWith_add {as bs : List Binary64} (h : List.Forall₂ (Mirrors true) xs ys)
    (h' : List.Forall₂ (Mirrors true) as bs) :
    List.Forall₂ (Mirrors true) (xs.zipWith (· + ·) as) (ys.zipWith (· + ·) bs) := by
  induction h generalizing as bs with
  | nil => exact .nil
  | cons hxy _ ih =>
    cases h' with
    | nil => exact .nil
    | cons hab hrest => exact .cons (hxy.add hab) (ih hrest)

theorem addToLanes_map_neg {lanes lanes' : List Binary64} (xs : List Binary64)
    (h : List.Forall₂ (Mirrors true) lanes' lanes) :
    List.Forall₂ (Mirrors true) (addToLanes lanes' (xs.map (-·))).1 (addToLanes lanes xs).1 ∧
      (addToLanes lanes' (xs.map (-·))).2 = (addToLanes lanes xs).2.map (-·) := by
  fun_induction addToLanes lanes xs generalizing lanes' with
  | case1 lanes x₀ x₁ x₂ x₃ x₄ x₅ x₆ x₇ rest ih =>
    exact ih (forall₂_zipWith_add h (forall₂_map_neg [x₀, x₁, x₂, x₃, x₄, x₅, x₆, x₇]))
  | case2 lanes rest hshort =>
    have hnegated : ∀ x₀ x₁ x₂ x₃ x₄ x₅ x₆ x₇ l,
        rest.map (-·) = x₀ :: x₁ :: x₂ :: x₃ :: x₄ :: x₅ :: x₆ :: x₇ :: l → False := by
      intro x₀ x₁ x₂ x₃ x₄ x₅ x₆ x₇ l hl
      have hback := congrArg (List.map (-·)) hl
      rw [List.map_map, Function.comp_def, List.map_id'' neg_neg] at hback
      exact hshort _ _ _ _ _ _ _ _ _ hback
    rw [addToLanes.eq_2 _ _ hnegated]
    exact ⟨h, rfl⟩

theorem mirrors_sumInLanes (xs : List Binary64) : Mirrors true (sumInLanes (xs.map (-·))) (sumInLanes xs) := by
  have hzero : List.Forall₂ (Mirrors true) (List.replicate 8 zero) (List.replicate 8 zero) :=
    List.forall₂_same.2 fun x hx => by
      rw [List.eq_of_mem_replicate hx]
      exact .finite (.inl rfl)
  obtain ⟨hlanes, hrest⟩ := addToLanes_map_neg xs hzero
  rw [sumInLanes_eq, sumInLanes_eq, laneTerms, laneTerms]
  dsimp only
  rw [hrest]
  apply mirrors_sum
  refine List.rel_append (forall₂_zipWith_add ?_ ?_) (forall₂_map_neg _)
  · exact List.forall₂_take 4 hlanes
  · exact List.forall₂_drop 4 hlanes

theorem sorted_map_neg (xs : List Binary64) : sorted (xs.map (-·)) = ((sorted xs).map (-·)).reverse := by
  have hanti : ∀ a b, a ∈ sorted (xs.map (-·)) → b ∈ ((sorted xs).map (-·)).reverse → a.rank ≤ b.rank →
      b.rank ≤ a.rank → a = b := fun a b _ _ hab hba => rank_injective (Int.le_antisymm hab hba)
  apply List.Perm.eq_of_pairwise hanti (pairwise_sorted _)
  · rw [List.pairwise_reverse, List.pairwise_map]
    refine (pairwise_sorted xs).imp fun {a b} hab => ?_
    rw [rank_neg, rank_neg]
    omega
  · exact (perm_sorted _).trans (((perm_sorted xs).map _).symm.trans (List.reverse_perm _).symm)

theorem mirrors_middle (l : List Binary64) : Mirrors true (middle (l.map (-·)).reverse) (middle l) := by
  -- Turned round, the middle values change places, and their sum does not depend on their order.
  have hlength : (l.map (-·)).reverse.length = l.length := by rw [List.length_reverse, List.length_map]
  have hget {i j : Nat} {x : Binary64} (hij : i + j + 1 = l.length) (hx : l[j]? = some x) :
      (l.map (-·)).reverse[i]? = some (-x) := by
    have hj : l.length - 1 - i = j := by omega
    rw [List.getElem?_reverse (by rw [List.length_map]; omega), List.length_map, hj, List.getElem?_map, hx]
    rfl
  by_cases hl : l = []
  · subst hl
    exact .finite (.inl rfl)
  · rcases middle_cases hl with ⟨k, b, hk, hb, hmiddle⟩ | ⟨k, a, b, hk, ha, hb, hmiddle⟩
    · rw [hmiddle, middle_of_odd (hlength.trans hk) (hget (by omega) hb)]
      exact mirrors_neg b
    · rw [hmiddle, middle_of_even (hlength.trans hk) (hget (by omega) hb) (hget (by omega) ha), add_comm a b]
      exact ((mirrors_neg b).add (mirrors_neg a)).div two

theorem mirrors_median (xs : List Binary64) : Mirrors true (median (xs.map (-·))) (median xs) := by
  rw [median, sorted_map_neg]
  exact mirrors_middle _

theorem medianDeviation_map_neg {centre centre' : Binary64} (h : Mirrors true centre' centre) (xs : List Binary64) :
    medianDeviation centre' (xs.map (-·)) = medianDeviation centre xs := by
  have hdistance : (fun x => (-x - centre').abs) = fun x => (x - centre).abs := by
    funext x
    exact ((mirrors_neg x).sub h).abs_eq
  rw [medianDeviation, medianDeviation, List.map_map, Function.comp_def, hdistance]

namespace Spread

structure Mirrors (s t : Spread) : Prop where
  count : s.count = t.count
  mean : Binary64.Mirrors true s.mean t.mean
  squares : Binary64.Mirrors false s.squares t.squares

theorem Mirrors.push {s t : Spread} (h : s.Mirrors t) {x y : Binary64} (hxy : Binary64.Mirrors true x y) :
    (s.push x).Mirrors (t.push y) := by
  have hdelta := hxy.sub h.mean
  have hstep := hdelta.div (ofNat (s.count + 1))
  rw [h.count] at hstep
  have hmean : Binary64.Mirrors true (s.push x).mean (t.push y).mean := by
    simp only [Spread.push, h.count]
    exact h.mean.add hstep
  exact ⟨congrArg (· + 1) h.count, hmean, Binary64.Mirrors.fma (hxy.sub hmean) hdelta h.squares⟩

theorem mirrors_ofList (xs : List Binary64) : (ofList (xs.map (-·))).Mirrors (ofList xs) := by
  rw [ofList, ofList, List.foldl_map]
  apply List.foldl_rel (r := Mirrors)
  · exact ⟨rfl, .finite (.inl rfl), mirrors_refl zero⟩
  · exact fun x _ s t h => h.push (mirrors_neg x)

theorem mirrors_deviation {s t : Spread} (h : s.Mirrors t) : Binary64.Mirrors false s.deviation t.deviation := by
  rw [deviation, h.count]
  exact (h.squares.div _).sqrt

end Spread

end Statistics

theorem Layout.mirrors_sum (layout : Layout) (width : Nat) (column : List Binary64) :
    Mirrors true (layout.sum width (column.map (-·))) (layout.sum width column) := by
  have hsum := Statistics.mirrors_sum (Statistics.forall₂_map_neg column)
  cases layout with
  | rowMajor => exact hsum
  | columnMajorStrided => exact hsum
  | columnMajor => exact Statistics.mirrors_sumInLanes column
  | columnMajorReversed =>
    unfold sum
    split_ifs
    · exact hsum
    · rw [← List.map_reverse]
      exact Statistics.mirrors_sumInLanes column.reverse

structure Summary.Mirrors (s t : Summary) : Prop where
  centre : Binary64.Mirrors true s.centre t.centre
  dispersion : Binary64.Mirrors false s.dispersion t.dispersion

theorem Statistic.mirrors_summary (statistic : Statistic) (layout : Layout) (width : Nat) (column : List Binary64) :
    (statistic.summary (layout.sum width) (column.map (-·))).Mirrors
      (statistic.summary (layout.sum width) column) := by
  cases statistic with
  | mean =>
    refine ⟨?_, Statistics.Spread.mirrors_deviation (Statistics.Spread.mirrors_ofList column)⟩
    simp only [summary, List.map_eq_nil_iff, List.length_map]
    split_ifs
    · exact .finite (.inl rfl)
    · exact (layout.mirrors_sum width column).div _
  | median =>
    have hcentre := Statistics.mirrors_median column
    refine ⟨hcentre, ?_⟩
    simp only [summary, Statistics.medianDeviation_map_neg hcentre]
    exact mirrors_refl _

structure Feature.Mirrors (f g : Feature) : Prop where
  centre : Binary64.Mirrors true f.centre g.centre
  tolerance : f.tolerance = g.tolerance

theorem Feature.Mirrors.isFinite_eq {f g : Feature} (h : f.Mirrors g) : f.isFinite = g.isFinite := by
  rw [isFinite, isFinite, h.centre.isFinite_eq, h.tolerance]

theorem Feature.Mirrors.ratio_eq {f g : Feature} (h : f.Mirrors g) (x : Binary64) : f.ratio (-x) = g.ratio x := by
  rw [ratio, ratio, ((mirrors_neg x).sub h.centre).abs_eq, h.tolerance]

theorem Binary64.zero_lt_maxNum (a : Binary64) {b : Binary64} (hb : zero < b) : zero < a.maxNum b := by
  have hn := isNaN_of_le (le_of_lt hb)
  unfold maxNum
  split_ifs with ha hlt
  · exact hb
  · exact hb
  · obtain ⟨x, hx⟩ := exists_place (Bool.not_eq_true _ ▸ ha)
    obtain ⟨y, hy⟩ := exists_place hn
    rw [lt_iff_place_lt hx hy] at hlt
    exact lt_of_lt_of_le hb ((le_iff_place_le hy hx).2 (not_lt.1 hlt))

theorem Binary64.Mirrors.same_neg {a b : Binary64} (h : Binary64.Mirrors true a b) (ha : a.isFinite = true) :
    a.same (-b) = true := by
  rw [same_iff_value_eq ha ((isFinite_neg b).trans (h.isFinite_eq ▸ ha)), h.value_eq, value_neg]
  simp [signed]

theorem Config.mirrors_feature {c : Config} (hc : c.validate = .ok ()) (s : Binary64) {a b : Summary}
    (h : a.Mirrors b) : (c.feature s a).Mirrors (c.feature s b) := by
  refine ⟨h.centre, ?_⟩
  have hproduct : Binary64.Mirrors false (c.deviationScale * a.dispersion) (c.deviationScale * b.dispersion) :=
    (mirrors_refl c.deviationScale).mul h.dispersion
  rw [tolerance_feature, tolerance_feature, scaledDeviation, scaledDeviation, h.centre.abs_eq,
    hproduct.add_eq (zero_lt_maxNum _ (zero_lt_minTolerance hc))]

namespace Band

structure Mirrors (a b : Band) : Prop where
  centres : List.Forall₂ (fun x y => x.same (-y) = true) a.centres b.centres
  tolerances : a.features.map Feature.tolerance = b.features.map Feature.tolerance
  score_neg : ∀ x, a.score (x.map (-·)) = b.score x

theorem forall₂_features_negated {c : Config} (hc : c.validate = .ok ()) (s : Binary64) (xs : Samples) :
    List.Forall₂ Feature.Mirrors ((xs.negated.summaries c.reference).map (c.feature s))
      ((xs.summaries c.reference).map (c.feature s)) := by
  rw [Samples.summaries, Samples.summaries, Samples.columns_negated, List.map_map, List.map_map, List.map_map,
    List.forall₂_map_left_iff, List.forall₂_map_right_iff, List.forall₂_same]
  intro column _
  exact Config.mirrors_feature hc s (c.reference.mirrors_summary xs.layout xs.width column)

theorem mirrors_of_forall₂ {a b : Band} (h : List.Forall₂ Feature.Mirrors a.features b.features)
    (hfinite : ∀ f ∈ a.features, f.isFinite = true) : a.Mirrors b := by
  refine ⟨?_, ?_, score_map_eq (h.imp fun _ _ h => h.ratio_eq)⟩
  · rw [centres, centres, List.forall₂_map_left_iff, List.forall₂_map_right_iff]
    refine ((List.forall₂_and_left _ _).2 ⟨hfinite, h⟩).imp fun f g hfg => ?_
    exact hfg.2.centre.same_neg (Bool.and_eq_true _ _ ▸ hfg.1).1
  · rw [← List.forall₂_eq_eq_eq, List.forall₂_map_left_iff, List.forall₂_map_right_iff]
    exact h.imp fun _ _ h => h.tolerance

theorem predict_negated {a b : Band} (h : a.Mirrors b) (xs : Samples) : a.predict xs.negated = b.predict xs := by
  have hscore : a.score ∘ List.map (-·) = b.score := funext h.score_neg
  rw [predict, predict, scores, scores, Samples.rows_negated, List.map_map, hscore]

end Band

namespace Classifier

variable {κ : Type} [DecidableEq κ]

inductive MirroredOutcome (id : κ) :
    Except Fault (Classifier κ × Fitting) → Except Fault (Classifier κ × Fitting) → Prop
  | fitted {c d : Classifier κ} {a b : Band} {f g : Fitting} (ha : c.band? id = some a) (hb : d.band? id = some b)
    (h : a.Mirrors b) (hconfidence : f.confidence = g.confidence) : MirroredOutcome id (.ok (c, f)) (.ok (d, g))
  | refused (j : Nat) : MirroredOutcome id (.error (.overflow j)) (.error (.overflow j))

theorem fit_negated (c : Classifier κ) (id : κ) {xs : Samples} {s : Binary64} (hc : c.config.validate = .ok ())
    (hs : checkSensitivity s = .ok ()) (hxs : xs.check = .ok ()) :
    MirroredOutcome id (c.fit id xs.negated s) (c.fit id xs s) := by
  have hfeatures := Band.forall₂_features_negated hc s xs
  have hfind : ((xs.negated.summaries c.config.reference).map (c.config.feature s)).findIdx? (!·.isFinite) =
      ((xs.summaries c.config.reference).map (c.config.feature s)).findIdx? (!·.isFinite) :=
    findIdx?_eq_of_forall₂ (hfeatures.imp fun _ _ h => congrArg not h.isFinite_eq)
  rw [fit, fit, Band.fit_of_check hs (Samples.check_negated hxs), Band.fit_of_check hs hxs, hfind]
  cases hnone : ((xs.summaries c.config.reference).map (c.config.feature s)).findIdx? (!·.isFinite) with
  | some j => exact .refused j
  | none =>
    rw [← hfind, List.findIdx?_eq_none_iff] at hnone
    have hmirrors := Band.mirrors_of_forall₂ (a := ⟨_, s, xs.negated.height⟩) (b := ⟨_, s, xs.height⟩) hfeatures
      fun f hf => by simpa using hnone f hf
    refine .fitted (Registry.find?_insert_self ..) (Registry.find?_insert_self ..) hmirrors ?_
    exact congrArg Prediction.confidence (Band.predict_negated hmirrors xs)

theorem fit_negated_zeros :
    let c : Classifier Int := .new
    let xs : Samples := ⟨2, 2, [one, zero, two, neg zero], .columnMajorReversed, rfl⟩
    c.config.validate = .ok () ∧ checkSensitivity (one / two) = .ok () ∧ xs.check = .ok () ∧
      (c.fit 1 xs (one / two)).toOption.isSome = true ∧
      MirroredOutcome 1 (c.fit 1 xs.negated (one / two)) (c.fit 1 xs (one / two)) := by
  intro c xs
  have hc : c.config.validate = .ok () := by decide +kernel
  have hs : checkSensitivity (one / two) = .ok () := by decide +kernel
  have hxs : xs.check = .ok () := by decide +kernel
  have hok : (c.fit 1 xs (one / two)).toOption.isSome = true := by decide +kernel
  exact ⟨hc, hs, hxs, hok, fit_negated c 1 hc hs hxs⟩

end Classifier

end OutlierBand
