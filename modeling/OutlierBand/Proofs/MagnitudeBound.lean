import OutlierBand.Proofs.NumberOrder

namespace OutlierBand.Binary64

def Exact (q : ℚ) : Prop := ∃ x : Binary64, x.isFinite = true ∧ x.value = q

theorem exact_value {x : Binary64} (h : x.isFinite = true) : Exact x.value := ⟨x, h, rfl⟩

theorem Exact.neg {q : ℚ} (h : Exact q) : Exact (-q) := by
  obtain ⟨x, hx, rfl⟩ := h
  exact ⟨-x, (isFinite_neg x).trans hx, value_neg x⟩

theorem exact_of_units {q : ℚ} {i : Int} (hi : q * unitsInOne = i) (hr : Representable i.natAbs)
    (hb : i.natAbs < unitsInLimit) : Exact q := by
  refine ⟨finite (i < 0) ⟨i.natAbs, hr, hb⟩, rfl, ?_⟩
  apply mul_right_cancel₀ cast_unitsInOne_pos.ne'
  rw [value_finite_mul, hi, Int.cast_inj]
  simp only [signed, decide_eq_true_eq]
  split_ifs with hneg
  · omega
  · omega

theorem exact_mul_two_pow {k e f : ℕ} (hk : k ≤ 2 ^ f) (hf : f ≤ 53) (he : f + e ≤ 1023) :
    Exact ((k : ℚ) * 2 ^ e) := by
  have hr : Representable (k * 2 ^ e * unitsInOne) := by
    unfold unitsInOne
    generalize 1074 = u
    rw [Nat.mul_assoc, ← Nat.pow_add]
    exact representable_mul_two_pow (hk.trans (Nat.pow_le_pow_right two_pos hf)) _
  have hb : k * 2 ^ e * unitsInOne < unitsInLimit := by
    have hlt (u l : ℕ) (hu : f + e + u < l) : k * 2 ^ e * 2 ^ u < 2 ^ l :=
      calc k * 2 ^ e * 2 ^ u ≤ 2 ^ f * 2 ^ e * 2 ^ u := by gcongr
        _ = 2 ^ (f + e + u) := by rw [← Nat.pow_add, ← Nat.pow_add]
        _ < 2 ^ l := Nat.pow_lt_pow_right Nat.one_lt_two hu
    unfold unitsInOne unitsInLimit
    generalize hu : 1074 = u, hl : 2098 = l
    exact hlt u l (by omega)
  exact exact_of_units (i := (k * 2 ^ e * unitsInOne : ℕ)) (by push_cast; ring) hr hb

theorem exact_two_pow {e : ℕ} (he : e ≤ 1023) : Exact (2 ^ e) := by
  have h := exact_mul_two_pow (k := 1) (e := e) (f := 0) (by decide) (by decide) (by omega)
  rwa [Nat.cast_one, one_mul] at h

theorem nearest_between {l u q : ℚ} (hl : Exact l) (hu : Exact u) (hlq : l ≤ q) (hqu : q ≤ u) (z : Bool) :
    (nearest z q).isFinite = true ∧ l ≤ (nearest z q).value ∧ (nearest z q).value ≤ u := by
  obtain ⟨x, hx, rfl⟩ := hl
  obtain ⟨y, hy, rfl⟩ := hu
  obtain ⟨hxf, hxv⟩ := nearest_value_eq z hx
  obtain ⟨hyf, hyv⟩ := nearest_value_eq z hy
  have hlow := nearest_le_nearest z z hlq
  have hhigh := nearest_le_nearest z z hqu
  have hfinite := isFinite_of_le_of_le hxf hyf hlow hhigh
  rw [le_iff_value_le hxf hfinite, hxv] at hlow
  rw [le_iff_value_le hfinite hyf, hyv] at hhigh
  exact ⟨hfinite, hlow, hhigh⟩

def greatest : Binary64 := finite false (.scaled (2 ^ 53 - 1) 2045 (by decide) (by decide))

structure Within (bound : ℚ) (x : Binary64) : Prop where
  isFinite : x.isFinite = true
  abs_value_le : |x.value| ≤ bound

theorem within_nearest {bound q : ℚ} (hb : Exact bound) (h : |q| ≤ bound) (z : Bool) : Within bound (nearest z q) := by
  obtain ⟨hl, hu⟩ := abs_le.1 h
  obtain ⟨hfinite, hlow, hhigh⟩ := nearest_between hb.neg hb hl hu z
  exact ⟨hfinite, abs_le.2 ⟨hlow, hhigh⟩⟩

theorem within_zero {bound : ℚ} (h : 0 ≤ bound) : Within bound zero :=
  ⟨isFinite_zero, by rwa [value_zero, abs_zero]⟩

theorem within_half_zero : Within (greatest.value / 2) zero :=
  within_zero (half_pos ((zero_lt_iff rfl).1 (by decide +kernel))).le

theorem within_of_value_le {bound : ℚ} {x : Binary64} (hx : x.isFinite = true) (h0 : zero ≤ x)
    (h : x.value ≤ bound) : Within bound x :=
  ⟨hx, by rwa [abs_of_nonneg (value_nonneg_of_zero_le h0)]⟩

namespace Within

variable {a b c : ℚ} {x y : Binary64}

theorem nonneg (h : Within a x) : 0 ≤ a := (abs_nonneg _).trans h.abs_value_le

theorem mono (h : Within a x) (hab : a ≤ b) : Within b x := ⟨h.isFinite, h.abs_value_le.trans hab⟩

theorem abs (h : Within a x) : Within a x.abs := by
  refine ⟨by rw [isFinite_abs]; exact h.isFinite, ?_⟩
  rw [value_abs, abs_abs]
  exact h.abs_value_le

theorem neg (h : Within a x) : Within a (-x) := by
  refine ⟨(isFinite_neg x).trans h.isFinite, ?_⟩
  rw [value_neg, abs_neg]
  exact h.abs_value_le

theorem maxNum (hx : Within a x) (hy : Within a y) : Within a (x.maxNum y) := by
  unfold Binary64.maxNum
  split_ifs
  · exact hy
  · exact hy
  · exact hx

theorem add (hx : Within a x) (hy : Within b y) (hc : Exact c) (h : a + b ≤ c) : Within c (x + y) := by
  obtain ⟨z, hz⟩ := exists_add_eq_nearest hx.isFinite hy.isFinite
  rw [hz]
  apply within_nearest hc
  exact (abs_add_le _ _).trans ((add_le_add hx.abs_value_le hy.abs_value_le).trans h)

theorem mul (hx : Within a x) (hy : Within b y) (hc : Exact c) (h : a * b ≤ c) : Within c (x * y) := by
  obtain ⟨z, hz⟩ := exists_mul_eq_nearest hx.isFinite hy.isFinite
  rw [hz]
  apply within_nearest hc
  rw [abs_mul]
  exact (mul_le_mul hx.abs_value_le hy.abs_value_le (abs_nonneg _) hx.nonneg).trans h

theorem div (hx : Within a x) (hy : y.isFinite = true) (h0 : 0 < y.value) (hc : Exact c) (h : a ≤ c * y.value) :
    Within c (x / y) := by
  obtain ⟨z, hz⟩ := exists_div_eq_nearest hx.isFinite hy h0.ne'
  rw [hz]
  apply within_nearest hc
  rw [abs_div, abs_of_pos h0, div_le_iff₀ h0]
  exact hx.abs_value_le.trans h

variable {e : ℕ}

theorem add_two_pow (hx : Within (2 ^ e) x) (hy : Within (2 ^ e) y) (he : e < 1023) : Within (2 ^ (e + 1)) (x + y) :=
  hx.add hy (exact_two_pow he) (by rw [pow_succ, mul_two])

theorem sub_two_pow (hx : Within (2 ^ e) x) (hy : Within (2 ^ e) y) (he : e < 1023) : Within (2 ^ (e + 1)) (x - y) :=
  hx.add_two_pow hy.neg he

theorem div_ofNat {n : ℕ} (hx : Within (n * 2 ^ e) x) (h0 : n ≠ 0) (hn : n ≤ 2 ^ 53) (he : e ≤ 1023) :
    Within (2 ^ e) (x / ofNat n) := by
  have hvalue := value_ofNat hn
  apply hx.div (isFinite_ofNat hn) _ (exact_two_pow he)
  · rw [hvalue, mul_comm]
  · rw [hvalue]
    exact Nat.cast_pos.2 (Nat.pos_of_ne_zero h0)

end Within

def doubledRoot (n : ℕ) : ℕ :=
  let r := floorRoot (n.log2 / 2 + 1) n
  2 * r + if r * r = n then 0 else 1

theorem doubledRoot_le {n b : ℕ} (h : n ≤ b * b) : doubledRoot n ≤ 2 * b := by
  have hlt : n < 4 ^ (n.log2 / 2 + 1) := by
    rw [show (4 : ℕ) = 2 ^ 2 from rfl, ← Nat.pow_mul]
    exact Nat.lt_log2_self.trans_le (Nat.pow_le_pow_right two_pos (by omega))
  obtain ⟨hl, -⟩ := floorRoot_spec hlt
  unfold doubledRoot
  generalize floorRoot (n.log2 / 2 + 1) n = r at *
  have hr : r ≤ b := Nat.mul_self_le_mul_self_iff.1 (hl.trans h)
  dsimp only
  split_ifs with hsquare
  · omega
  · have hne : r ≠ b := by
      rintro rfl
      exact hsquare (Nat.le_antisymm hl h)
    omega

theorem sqrt_finite {m : Magnitude} (hm : m.units ≠ 0) :
    sqrt (finite false m) = nearest false (doubledRoot (m.units * unitsInOne) / (2 * unitsInOne)) := by
  rw [sqrt, if_neg hm, if_neg Bool.false_ne_true]
  change round false (doubledRoot (m.units * unitsInOne)) 2 = _
  rw [round_eq_roundSigned false _ two_pos]
  apply roundSigned_eq_nearest false _ two_pos
  rw [Nat.cast_ofNat, div_mul_cancel₀ _ (mul_pos two_pos cast_unitsInOne_pos).ne']
  simp [signed]

theorem units_mul_le_of_value_le {m n : Magnitude}
    (h : (finite false m).value ≤ (finite false n).value * (finite false n).value) :
    m.units * unitsInOne ≤ n.units * n.units := by
  have hu := cast_unitsInOne_pos
  have hm : (finite false m).value * unitsInOne = m.units := value_finite_mul false m
  have hn : (finite false n).value * unitsInOne = n.units := value_finite_mul false n
  have hsquare : (m.units * unitsInOne : ℚ) ≤ n.units * n.units :=
    calc (m.units * unitsInOne : ℚ) = (finite false m).value * (unitsInOne * unitsInOne) := by rw [← hm]; ring
      _ ≤ (finite false n).value * (finite false n).value * (unitsInOne * unitsInOne) :=
        mul_le_mul_of_nonneg_right h (mul_pos hu hu).le
      _ = n.units * n.units := by rw [← hn]; ring
  exact_mod_cast hsquare

theorem within_sqrt {x : Binary64} {b : ℚ} (hx : x.isFinite = true) (h0 : 0 ≤ x.value) (hb : Exact b) (hb0 : 0 ≤ b)
    (h : x.value ≤ b * b) : Within b (sqrt x) := by
  rcases h0.eq_or_lt with h0 | hpos
  · obtain ⟨s, m, rfl⟩ := exists_finite hx
    have hm : m.units = 0 := not_not.1 (mt (value_ne_zero_iff s m).2 (not_not.2 h0.symm))
    rw [sqrt, if_pos hm]
    exact ⟨rfl, by rwa [← h0, abs_zero]⟩
  · obtain ⟨m, rfl, hm⟩ := exists_finite_of_zero_lt hx ((zero_lt_iff hx).2 hpos)
    obtain ⟨y, hy, rfl⟩ := hb
    have hypos : 0 < y.value := hb0.lt_of_ne (by rintro hy0; rw [← hy0] at h; linarith)
    obtain ⟨n, rfl, -⟩ := exists_finite_of_zero_lt hy ((zero_lt_iff hy).2 hypos)
    rw [sqrt_finite hm]
    apply within_nearest (exact_value hy)
    have hroot : (doubledRoot (m.units * unitsInOne) : ℚ) ≤ 2 * n.units := by
      exact_mod_cast doubledRoot_le (units_mul_le_of_value_le h)
    have hu := cast_unitsInOne_pos
    rw [abs_of_nonneg (by positivity), div_le_iff₀ (by positivity)]
    calc (doubledRoot (m.units * unitsInOne) : ℚ) ≤ 2 * n.units := hroot
      _ = 2 * ((finite false n).value * unitsInOne) := by rw [value_finite_mul]; rfl
      _ = (finite false n).value * (2 * unitsInOne) := by ring

end OutlierBand.Binary64
