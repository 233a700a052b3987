import OutlierBand.Proofs.FittedBand

/-!
The rows in a band make a box. Taking a centre away, dropping the sign and dividing by a tolerance each keep order,
through rounding and overflow, so a number between two others is no worse than one of them, even where the centre lies
between them too; and a row is as bad as the worst of its numbers.
-/

namespace OutlierBand

open Binary64

namespace Binary64

theorem not_finite_le_negative_infinity (s : Bool) (m : Magnitude) : ¬finite s m ≤ infinite true := by
  rw [le_iff_place_le (place?_finite s m) rfl]
  exact not_le.2 (abs_signed_lt s m).1

theorem negative_infinity_le {a : Binary64} (ha : a.isNaN = false) : infinite true ≤ a := by
  obtain ⟨p, hp⟩ := exists_place ha
  rw [le_iff_place_le rfl hp]
  cases a with
  | nan => cases ha
  | infinite s =>
    obtain rfl := Option.some.inj hp
    cases s <;> simp [signed]
  | finite s m =>
    obtain rfl := Option.some.inj hp
    exact (abs_signed_lt s m).1.le

theorem sub_mono {a b c : Binary64} (h : a ≤ b) (hc : c.isFinite = true) : a - c ≤ b - c := by
  obtain ⟨u, n, rfl⟩ := exists_finite hc
  have hnan {x : Binary64} (hx : x.isNaN = false) : (x - finite u n).isNaN = false := by
    cases x with
    | nan => cases hx
    | infinite => rfl
    | finite s m =>
      rw [sub_finite]
      exact isNaN_of_place? (place?_nearest _ _)
  obtain ⟨p, q, hp, hq, -⟩ := le_iff.1 h
  cases a with
  | nan => cases hp
  | infinite s =>
    cases s with
    | true => exact negative_infinity_le (hnan (isNaN_of_place? hq))
    | false =>
      cases b with
      | nan => cases hq
      | infinite t =>
        cases t with
        | true => exact absurd h (by decide +kernel)
        | false => exact le_refl_of_isNaN rfl
      | finite t k => exact absurd h (not_infinity_le_finite t k)
  | finite s m =>
    cases b with
    | nan => cases hq
    | infinite t =>
      cases t with
      | true => exact absurd h (not_finite_le_negative_infinity s m)
      | false => exact le_infinity (hnan rfl)
    | finite t k =>
      rw [le_iff_value_le rfl rfl] at h
      rw [sub_finite, sub_finite]
      exact nearest_le_nearest _ _ (sub_le_sub_right h _)

def LiesBetween (a b x : Binary64) : Prop := a ≤ x ∧ x ≤ b ∨ b ≤ x ∧ x ≤ a

instance (a b x : Binary64) : Decidable (LiesBetween a b x) := inferInstanceAs (Decidable (_ ∨ _))

variable {a b c x : Binary64}

theorem LiesBetween.sub (h : LiesBetween a b x) (hc : c.isFinite = true) : LiesBetween (a - c) (b - c) (x - c) :=
  h.imp (fun h => ⟨sub_mono h.1 hc, sub_mono h.2 hc⟩)
    fun h => ⟨sub_mono h.1 hc, sub_mono h.2 hc⟩

theorem LiesBetween.abs_le (h : LiesBetween a b x) : x.abs ≤ a.abs ∨ x.abs ≤ b.abs := by
  have sides {a b : Binary64} (hax : a ≤ x) (hxb : x ≤ b) : x.abs ≤ a.abs ∨ x.abs ≤ b.abs := by
    obtain ⟨p, q, hp, hq, hpq⟩ := le_iff.1 hax
    obtain ⟨q', r, hq', hr, hqr⟩ := le_iff.1 hxb
    obtain rfl : q = q' := Option.some.inj (hq.symm.trans hq')
    rw [le_iff_place_le (place?_abs hq) (place?_abs hp), le_iff_place_le (place?_abs hq) (place?_abs hr)]
    exact le_max_iff.1 (abs_le_max_abs_abs hpq hqr)
  rcases h with ⟨hax, hxb⟩ | ⟨hbx, hxa⟩
  · exact sides hax hxb
  · exact (sides hbx hxa).symm

theorem multiple_le_multiple_of_abs_le {d e : Binary64} (h : d.abs ≤ e.abs) (n : Magnitude) :
    multiple d.abs (finite false n) ≤ multiple e.abs (finite false n) := by
  cases e with
  | nan => cases isNaN_of_le h
  | infinite => exact le_infinity (isNaN_multiple _ _)
  | finite t l =>
    cases d with
    | nan => cases (le_iff.1 h).choose_spec.choose_spec.1
    | infinite => exact absurd h (not_infinity_le_finite false l)
    | finite s k =>
      rw [abs_finite, abs_finite, finite_false_le_iff] at h
      rw [abs_finite, abs_finite, multiple_finite, multiple_finite]
      split_ifs with hn
      · exact le_infinity rfl
      · have hpos := Nat.pos_of_ne_zero hn
        have hround := roundUnits_mono hpos hpos (Nat.mul_le_mul_right n.units (Nat.mul_le_mul_right unitsInOne h))
        rw [le_iff_place_le (place?_round ..) (place?_round ..)]
        simp only [signed, Bool.false_eq_true, if_false]
        omega

end Binary64

namespace Feature

variable {f : Feature} {u v w : Binary64}

theorem excess_le_excess (ht : ∃ n, f.tolerance = finite false n) (h : (u - f.centre).abs ≤ (v - f.centre).abs) :
    f.excess u ≤ f.excess v := by
  obtain ⟨n, hn⟩ := ht
  rw [excess, excess, hn]
  exact multiple_le_multiple_of_abs_le h n

theorem excess_le_of_between (hc : f.centre.isFinite = true) (ht : ∃ n, f.tolerance = finite false n)
    (h : LiesBetween u v w) : f.excess w ≤ f.excess u ∨ f.excess w ≤ f.excess v :=
  (h.sub hc).abs_le.imp (excess_le_excess ht) (excess_le_excess ht)

end Feature

namespace Band

def InBox (x y z : List Binary64) : Prop :=
  ∀ (j : Nat) (u v w : Binary64), x[j]? = some u → y[j]? = some v → z[j]? = some w → LiesBetween u v w

def Nearer (b : Band) (x y : List Binary64) : Prop :=
  ∀ (j : Nat) (f : Feature) (u v : Binary64), b.features[j]? = some f → x[j]? = some u → y[j]? = some v →
    (u - f.centre).abs ≤ (v - f.centre).abs

theorem score_le_iff_getElem? {b : Band} {x : List Binary64} (h : x.length = b.width) {e : Binary64} (he : zero ≤ e) :
    b.score x ≤ e ↔ ∀ (j : Nat) (f : Feature) (u : Binary64), b.features[j]? = some f → x[j]? = some u →
      f.excess u ≤ e := by
  rw [score_le_iff h he]
  simp only [List.mem_iff_getElem?, List.getElem?_zipWith_eq_some]
  constructor
  · intro hall j f u hf hu
    exact hall _ ⟨j, f, u, hf, hu, rfl⟩
  · rintro hall _ ⟨j, f, u, hf, hu, rfl⟩
    exact hall j f u hf hu

variable {c : Config} {s : Binary64} {xs : Samples} {b : Band}

theorem excess_le_score {x : List Binary64} (h : x.length = b.width) {j : Nat} {f : Feature} {u : Binary64}
    (hf : b.features[j]? = some f) (hu : x[j]? = some u) : f.excess u ≤ b.score x := by
  have hscore := zero_le_score b x
  exact (score_le_iff_getElem? h hscore).1 (le_refl_of_isNaN (isNaN_of_le hscore)) j f u hf hu

theorem score_le_maxNum_of_inBox (hc : c.validate = .ok ()) (h : fit xs s c = .ok b) {x y z : List Binary64}
    (hx : x.length = b.width) (hy : y.length = b.width) (hz : z.length = b.width) (hbox : InBox x y z) :
    b.score z ≤ (b.score x).maxNum (b.score y) := by
  have hnx := isNaN_of_le (zero_le_score b x)
  have hny := isNaN_of_le (zero_le_score b y)
  have hzero : zero ≤ (b.score x).maxNum (b.score y) :=
    Binary64.le_trans (zero_le_score b x) (le_maxNum_left hnx hny)
  rw [score_le_iff_getElem? hz hzero]
  intro j f w hf hw
  obtain ⟨hj, -⟩ := List.getElem?_eq_some_iff.1 hw
  have hu := List.getElem?_eq_getElem (hx.trans hz.symm ▸ hj : j < x.length)
  have hv := List.getElem?_eq_getElem (hy.trans hz.symm ▸ hj : j < y.length)
  obtain ⟨hcentre, htolerance⟩ := exists_tolerance_of_fit hc h (List.mem_of_getElem? hf)
  -- Which of the two rows is the worse one may change from feature to feature.
  rcases Feature.excess_le_of_between hcentre htolerance (hbox j _ _ w hu hv hw) with hle | hle
  · exact Binary64.le_trans hle (Binary64.le_trans (excess_le_score hx hf hu) (le_maxNum_left hnx hny))
  · exact Binary64.le_trans hle (Binary64.le_trans (excess_le_score hy hf hv) (le_maxNum_right hnx hny))

theorem score_le_score_of_nearer (hc : c.validate = .ok ()) (h : fit xs s c = .ok b) {x y : List Binary64}
    (hx : x.length = b.width) (hy : y.length = b.width) (hnearer : b.Nearer x y) : b.score x ≤ b.score y := by
  rw [score_le_iff_getElem? hx (zero_le_score b y)]
  intro j f u hf hu
  obtain ⟨hj, -⟩ := List.getElem?_eq_some_iff.1 hu
  have hv := List.getElem?_eq_getElem (hx.trans hy.symm ▸ hj : j < y.length)
  obtain ⟨-, htolerance⟩ := exists_tolerance_of_fit hc h (List.mem_of_getElem? hf)
  exact Binary64.le_trans (Feature.excess_le_excess htolerance (hnearer j f u _ hf hu hv)) (excess_le_score hy hf hv)

/-- A row in the box that two others span scores at most what the worse of them scores, so it is in the band when both
of them are; and a row that is nowhere farther from the centre than another scores at most what that one does. Numbers
may be infinite, and a tolerance may be zero. -/
theorem score_of_box (hc : c.validate = .ok ()) (h : fit xs s c = .ok b) :
    (∀ x y z : List Binary64, x.length = b.width → y.length = b.width → z.length = b.width → InBox x y z →
      b.score z ≤ (b.score x).maxNum (b.score y) ∧
        (b.contains x = true → b.contains y = true → b.contains z = true)) ∧
      ∀ x y : List Binary64, x.length = b.width → y.length = b.width → b.Nearer x y → b.score x ≤ b.score y := by
  refine ⟨fun x y z hx hy hz hbox => ?_, fun x y => score_le_score_of_nearer hc h⟩
  have hscore := score_le_maxNum_of_inBox hc h hx hy hz hbox
  refine ⟨hscore, fun hinx hiny => ?_⟩
  have hmax : (b.score x).maxNum (b.score y) ≤ one := by
    rw [maxNum_le_iff (isNaN_of_le (zero_le_score b x)) (isNaN_of_le (zero_le_score b y))]
    exact ⟨of_decide_eq_true hinx, of_decide_eq_true hiny⟩
  exact decide_eq_true (Binary64.le_trans hscore hmax)

theorem score_of_box_corner :
    let samples : Samples := ⟨1, 2, [one, two], .rowMajor, rfl⟩
    let b : Band := ⟨[⟨one, one / two⟩, ⟨two, one⟩], one / two, 1⟩
    let x := [one / two, ofNat 3]
    let y := [ofNat 3 / two, one]
    let z := [ofNat 3 / two, ofNat 3]
    let far := [infinite true, zero]
    Config.default.validate = .ok () ∧ fit samples (one / two) .default = .ok b ∧ InBox x y z ∧
      b.contains x = true ∧ b.contains y = true ∧ b.contains z = true ∧ b.Nearer z far ∧ b.score z ≤ b.score far := by
  intro samples b x y z far
  have hc : Config.default.validate = .ok () := by decide +kernel
  have h : fit samples (one / two) .default = .ok b := by decide +kernel
  have hbox : InBox x y z := by
    rintro (_ | _ | j) u v w ⟨⟩ ⟨⟩ ⟨⟩
    · decide +kernel
    · decide +kernel
  have hnearer : b.Nearer z far := by
    rintro (_ | _ | j) f u v ⟨⟩ ⟨⟩ ⟨⟩
    · decide +kernel
    · decide +kernel
  obtain ⟨hboxes, hdistances⟩ := score_of_box hc h
  have hx : b.contains x = true := by decide +kernel
  have hy : b.contains y = true := by decide +kernel
  exact ⟨hc, h, hbox, hx, hy, (hboxes x y z rfl rfl rfl hbox).2 hx hy, hnearer, hdistances z far rfl rfl hnearer⟩

end Band

end OutlierBand
