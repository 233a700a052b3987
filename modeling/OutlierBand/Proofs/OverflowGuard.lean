import OutlierBand.Proofs.FittedBand

/-!
Overflow does not go unnoticed. What an addition, a product or a square root makes of a number that is not finite is not
finite either, so a finite centre and a finite dispersion mean that every number on the way to them was finite: each
partial sum in the order of the layout, and each number that the running mean and the sum of squares went through.
-/

namespace OutlierBand

open Binary64

namespace Binary64

theorem isFinite_of_foldl_add {xs : List Binary64} {a : Binary64} (h : (xs.foldl (· + ·) a).isFinite = true) :
    a.isFinite = true ∧ ∀ x ∈ xs, x.isFinite = true := by
  induction xs generalizing a with
  | nil => exact ⟨h, by simp⟩
  | cons x xs ih =>
    obtain ⟨hsum, hxs⟩ := ih h
    obtain ⟨ha, hx⟩ := isFinite_of_add hsum
    exact ⟨ha, List.forall_mem_cons.2 ⟨hx, hxs⟩⟩

theorem isFinite_of_zipWith_add {xs ys : List Binary64} (hlength : xs.length = ys.length)
    (h : ∀ z ∈ xs.zipWith (· + ·) ys, z.isFinite = true) :
    (∀ x ∈ xs, x.isFinite = true) ∧ ∀ y ∈ ys, y.isFinite = true := by
  induction xs generalizing ys with
  | nil =>
    obtain rfl := List.length_eq_zero_iff.1 hlength.symm
    exact ⟨by simp, by simp⟩
  | cons x xs ih =>
    cases ys with
    | nil => cases hlength
    | cons y ys =>
      obtain ⟨hz, hzs⟩ := List.forall_mem_cons.1 h
      obtain ⟨hx, hy⟩ := isFinite_of_add hz
      obtain ⟨hxs, hys⟩ := ih (Nat.succ.inj hlength) hzs
      exact ⟨List.forall_mem_cons.2 ⟨hx, hxs⟩, List.forall_mem_cons.2 ⟨hy, hys⟩⟩

end Binary64

namespace Statistics

def SumFinite (xs : List Binary64) : Prop := ∀ k, (sum (xs.take k)).isFinite = true

theorem sumFinite_of_isFinite {xs : List Binary64} (h : (sum xs).isFinite = true) : SumFinite xs := by
  intro k
  rw [sum, ← List.take_append_drop k xs, List.foldl_append] at h
  exact (isFinite_of_foldl_add h).1

def laneTerms (xs : List Binary64) : List Binary64 :=
  let (lanes, rest) := addToLanes (List.replicate 8 zero) xs
  (lanes.take 4).zipWith (· + ·) (lanes.drop 4) ++ rest

theorem sumInLanes_eq (xs : List Binary64) : sumInLanes xs = sum (laneTerms xs) := rfl

structure LanesFinite (xs : List Binary64) : Prop where
  lanes : ∀ k, ∀ lane ∈ (addToLanes (List.replicate 8 zero) (xs.take (8 * k))).1, lane.isFinite = true
  terms : ∀ x ∈ laneTerms xs, x.isFinite = true
  sums : SumFinite (laneTerms xs)

theorem length_addToLanes {lanes : List Binary64} (hlanes : lanes.length = 8) (xs : List Binary64) :
    (addToLanes lanes xs).1.length = 8 := by
  fun_induction addToLanes lanes xs with
  | case1 lanes a b c d e f g h rest ih => exact ih (by simp [hlanes])
  | case2 => exact hlanes

theorem isFinite_of_addToLanes {lanes xs : List Binary64} (hlanes : lanes.length = 8)
    (h : ∀ lane ∈ (addToLanes lanes xs).1, lane.isFinite = true) :
    (∀ lane ∈ lanes, lane.isFinite = true) ∧
      ∀ k, ∀ lane ∈ (addToLanes lanes (xs.take (8 * k))).1, lane.isFinite = true := by
  fun_induction addToLanes lanes xs with
  | case1 lanes x₀ x₁ x₂ x₃ x₄ x₅ x₆ x₇ rest ih =>
    obtain ⟨hsums, hlater⟩ := ih (by simp [hlanes]) h
    have hfirst := (isFinite_of_zipWith_add (by simp [hlanes]) hsums).1
    refine ⟨hfirst, fun k => ?_⟩
    cases k with
    | zero => exact hfirst
    | succ k => exact hlater k
  | case2 lanes rest hshort =>
    refine ⟨h, fun k => ?_⟩
    have hprefix : ∀ x₀ x₁ x₂ x₃ x₄ x₅ x₆ x₇ l,
        rest.take (8 * k) = x₀ :: x₁ :: x₂ :: x₃ :: x₄ :: x₅ :: x₆ :: x₇ :: l → False := by
      intro x₀ x₁ x₂ x₃ x₄ x₅ x₆ x₇ l htake
      apply hshort x₀ x₁ x₂ x₃ x₄ x₅ x₆ x₇ (l ++ rest.drop (8 * k))
      exact (List.take_append_drop (8 * k) rest).symm.trans (congrArg (· ++ rest.drop (8 * k)) htake)
    rw [addToLanes.eq_2 _ _ hprefix]
    exact h

theorem lanesFinite_of_isFinite {xs : List Binary64} (h : (sumInLanes xs).isFinite = true) : LanesFinite xs := by
  rw [sumInLanes_eq] at h
  have hterms := (isFinite_of_foldl_add h).2
  refine ⟨?_, hterms, sumFinite_of_isFinite h⟩
  have hlength : (addToLanes (List.replicate 8 zero) xs).1.length = 8 := length_addToLanes rfl xs
  have hlanes : ∀ lane ∈ (addToLanes (List.replicate 8 zero) xs).1, lane.isFinite = true := by
    have hhalves : ((addToLanes (List.replicate 8 zero) xs).1.take 4).length =
        ((addToLanes (List.replicate 8 zero) xs).1.drop 4).length := by
      rw [List.length_take, List.length_drop, hlength, Nat.min_eq_left (by decide)]
    have hpairs := isFinite_of_zipWith_add hhalves fun x hx => hterms x (List.mem_append_left _ hx)
    intro lane hlane
    rw [← List.take_append_drop 4 (addToLanes (List.replicate 8 zero) xs).1] at hlane
    rcases List.mem_append.1 hlane with hfront | hback
    · exact hpairs.1 lane hfront
    · exact hpairs.2 lane hback
  exact (isFinite_of_addToLanes rfl hlanes).2

namespace Spread

structure PushFinite (s : Spread) (x : Binary64) : Prop where
  delta : (x - s.mean).isFinite = true
  step : ((x - s.mean) / ofNat (s.count + 1)).isFinite = true
  mean : (s.push x).mean.isFinite = true
  distance : (x - (s.push x).mean).isFinite = true
  squares : (s.push x).squares.isFinite = true

theorem pushFinite_of_isFinite {s : Spread} {x : Binary64} (h : (s.push x).squares.isFinite = true) :
    PushFinite s x ∧ s.squares.isFinite = true := by
  obtain ⟨hdistance, hdelta, hsquares⟩ := isFinite_of_fma h
  have hmean := (isFinite_of_sub hdistance).2
  exact ⟨⟨hdelta, (isFinite_of_add hmean).2, hmean, hdistance, h⟩, hsquares⟩

theorem isFinite_of_foldl_push {xs : List Binary64} {s : Spread} (h : (xs.foldl push s).squares.isFinite = true) :
    s.squares.isFinite = true ∧ ∀ k x, xs[k]? = some x → PushFinite ((xs.take k).foldl push s) x := by
  induction xs generalizing s with
  | nil => exact ⟨h, by simp⟩
  | cons y xs ih =>
    obtain ⟨hpush, hlater⟩ := ih h
    obtain ⟨hfirst, hs⟩ := pushFinite_of_isFinite hpush
    refine ⟨hs, fun k x hx => ?_⟩
    cases k with
    | zero =>
      obtain rfl : y = x := Option.some.inj hx
      exact hfirst
    | succ k => exact hlater k x hx

def SpreadFinite (xs : List Binary64) : Prop := ∀ k x, xs[k]? = some x → PushFinite (ofList (xs.take k)) x

theorem spreadFinite_of_isFinite {xs : List Binary64} (h : (ofList xs).deviation.isFinite = true) :
    SpreadFinite xs :=
  (isFinite_of_foldl_push (isFinite_of_div (isFinite_of_sqrt h))).2

end Spread

end Statistics

open Statistics in
def Layout.SumFinite (layout : Layout) (width : Nat) (column : List Binary64) : Prop :=
  match layout with
  | .rowMajor | .columnMajorStrided => Statistics.SumFinite column
  | .columnMajor => LanesFinite column
  | .columnMajorReversed => if width = 1 then Statistics.SumFinite column else LanesFinite column.reverse

theorem Layout.sumFinite_of_isFinite {layout : Layout} {width : Nat} {column : List Binary64}
    (h : (layout.sum width column).isFinite = true) : layout.SumFinite width column := by
  cases layout with
  | rowMajor => exact Statistics.sumFinite_of_isFinite h
  | columnMajorStrided => exact Statistics.sumFinite_of_isFinite h
  | columnMajor => exact Statistics.lanesFinite_of_isFinite h
  | columnMajorReversed =>
    unfold SumFinite
    unfold sum at h
    split_ifs at h ⊢
    · exact Statistics.sumFinite_of_isFinite h
    · exact Statistics.lanesFinite_of_isFinite h

def Samples.MeansFinite (xs : Samples) : Prop :=
  ∀ column ∈ xs.columns, xs.layout.SumFinite xs.width column ∧ Statistics.Spread.SpreadFinite column

namespace Band

variable {c : Config} {s : Binary64} {xs : Samples}

theorem fit_ok_or_overflow (hs : checkSensitivity s = .ok ()) (hxs : xs.check = .ok ()) :
    (∃ b, fit xs s c = .ok b) ∨ ∃ j < xs.width, fit xs s c = .error (.overflow j) := by
  rw [fit_of_check hs hxs]
  split
  next j hj =>
    obtain ⟨hlt, -⟩ := List.findIdx?_eq_some_iff_getElem.1 hj
    rw [List.length_map, xs.length_summaries] at hlt
    exact .inr ⟨j, hlt, rfl⟩
  next => exact .inl ⟨_, rfl⟩

theorem meansFinite_of_fit (hmean : c.reference = .mean) {b : Band} (h : fit xs s c = .ok b) : xs.MeansFinite := by
  obtain ⟨-, hxs, hfinite, -⟩ := fit_eq_ok_iff.1 h
  obtain ⟨⟨hheight, -⟩, -⟩ := Samples.check_eq_ok_iff.1 hxs
  rw [hmean, Samples.summaries, List.forall_mem_map] at hfinite
  intro column hcolumn
  obtain ⟨hcentre, -, -, hdispersion⟩ := Config.isFinite_of_isFinite_feature (hfinite column hcolumn)
  simp only [Statistic.summary, if_neg (Samples.ne_nil_of_mem_columns hheight hcolumn)] at hcentre
  exact ⟨Layout.sumFinite_of_isFinite (isFinite_of_div hcentre),
    Statistics.Spread.spreadFinite_of_isFinite hdispersion⟩

/-- A matrix that is fitted with means overflowed nowhere; one that overflows anywhere is refused for it, whatever the
settings are and also when the dispersion counts for nothing. -/
theorem overflow_refused (hmean : c.reference = .mean) (hs : checkSensitivity s = .ok ()) (hxs : xs.check = .ok ()) :
    (∀ b, fit xs s c = .ok b → xs.MeansFinite) ∧
      (¬xs.MeansFinite → ∃ j < xs.width, fit xs s c = .error (.overflow j) ∧
        ∃ text, (Fault.overflow j).report = .invalidInput text) := by
  refine ⟨fun b => meansFinite_of_fit hmean, fun hoverflow => ?_⟩
  rcases fit_ok_or_overflow hs hxs with ⟨b, hb⟩ | ⟨j, hj, hfault⟩
  · exact absurd (meansFinite_of_fit hmean hb) hoverflow
  · exact ⟨j, hj, hfault, _, rfl⟩

theorem overflow_refused_opposite :
    let c : Config := ⟨zero, one, .mean⟩
    let huge := Decimal.toBinary64 ⟨false, 1, 200⟩
    let xs : Samples := ⟨2, 1, [huge, neg huge], .columnMajor, rfl⟩
    c.reference = .mean ∧ checkSensitivity (one / two) = .ok () ∧ xs.check = .ok () ∧ ¬xs.MeansFinite ∧
      ∃ j < 1, fit xs (one / two) c = .error (.overflow j) := by
  intro c huge xs
  have hmean : c.reference = .mean := rfl
  have hs : checkSensitivity (one / two) = .ok () := by decide +kernel
  have hxs : xs.check = .ok () := by decide +kernel
  have hoverflow : ¬xs.MeansFinite := by
    intro hfinite
    have hcolumn : [huge, neg huge] ∈ xs.columns := List.mem_singleton_self _
    have hsquares := ((hfinite _ hcolumn).2 1 (neg huge) rfl).squares
    revert hsquares
    decide +kernel
  obtain ⟨j, hj, hfault, -⟩ := (overflow_refused hmean hs hxs).2 hoverflow
  exact ⟨hmean, hs, hxs, hoverflow, j, hj, hfault⟩

end Band

end OutlierBand
