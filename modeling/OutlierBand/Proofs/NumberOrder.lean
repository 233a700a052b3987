import OutlierBand.Proofs.ExactValue

namespace OutlierBand.Binary64

theorem le_trans {a b c : Binary64} (hab : a ≤ b) (hbc : b ≤ c) : a ≤ c := by
  obtain ⟨x, y, hx, hy, hxy⟩ := le_iff.1 hab
  obtain ⟨y', z, hy', hz, hyz⟩ := le_iff.1 hbc
  obtain rfl : y = y' := Option.some.inj (hy.symm.trans hy')
  exact le_iff.2 ⟨x, z, hx, hz, hxy.trans hyz⟩

instance : Trans (α := Binary64) (· ≤ ·) (· ≤ ·) (· ≤ ·) := ⟨le_trans⟩

theorem lt_of_lt_of_le {a b c : Binary64} (hab : a < b) (hbc : b ≤ c) : a < c := by
  obtain ⟨x, y, hx, hy, hxy⟩ := lt_iff.1 hab
  obtain ⟨y', z, hy', hz, hyz⟩ := le_iff.1 hbc
  obtain rfl : y = y' := Option.some.inj (hy.symm.trans hy')
  exact lt_iff.2 ⟨x, z, hx, hz, hxy.trans_le hyz⟩

theorem lt_of_le_of_lt {a b c : Binary64} (hab : a ≤ b) (hbc : b < c) : a < c := by
  obtain ⟨x, y, hx, hy, hxy⟩ := le_iff.1 hab
  obtain ⟨y', z, hy', hz, hyz⟩ := lt_iff.1 hbc
  obtain rfl : y = y' := Option.some.inj (hy.symm.trans hy')
  exact lt_iff.2 ⟨x, z, hx, hz, hxy.trans_lt hyz⟩

theorem le_of_lt {a b : Binary64} (h : a < b) : a ≤ b := by
  obtain ⟨x, y, hx, hy, hxy⟩ := lt_iff.1 h
  exact le_iff.2 ⟨x, y, hx, hy, hxy.le⟩

theorem le_iff_place_le {a b : Binary64} {x y : Int} (ha : a.place? = some x) (hb : b.place? = some y) :
    a ≤ b ↔ x ≤ y := by
  rw [le_iff]
  simp [ha, hb]

theorem lt_iff_place_lt {a b : Binary64} {x y : Int} (ha : a.place? = some x) (hb : b.place? = some y) :
    a < b ↔ x < y := by
  rw [lt_iff]
  simp [ha, hb]

theorem place?_finite (s : Bool) (m : Magnitude) : (finite s m).place? = some (signed s m.units) := rfl

theorem abs_signed_lt (s : Bool) (m : Magnitude) :
    -(unitsInLimit : Int) < signed s m.units ∧ signed s m.units < unitsInLimit := by
  have := m.bounded
  unfold signed
  split_ifs <;> omega

theorem isFinite_iff {x : Binary64} :
    x.isFinite = true ↔ ∃ p, x.place? = some p ∧ -(unitsInLimit : Int) < p ∧ p < unitsInLimit := by
  cases x with
  | nan s => simp [isFinite, place?]
  | infinite s => cases s <;> simp [isFinite, place?, signed]
  | finite s m => exact ⟨fun _ => ⟨_, place?_finite s m, abs_signed_lt s m⟩, fun _ => rfl⟩

theorem isFinite_of_le_of_le {a b c : Binary64} (ha : a.isFinite = true) (hc : c.isFinite = true)
    (hab : a ≤ b) (hbc : b ≤ c) : b.isFinite = true := by
  obtain ⟨p, hp, hl, -⟩ := isFinite_iff.1 ha
  obtain ⟨r, hr, -, hu⟩ := isFinite_iff.1 hc
  obtain ⟨p', q, hp', hq, hpq⟩ := le_iff.1 hab
  obtain ⟨q', r', hq', hr', hqr⟩ := le_iff.1 hbc
  obtain rfl : p = p' := Option.some.inj (hp.symm.trans hp')
  obtain rfl : q = q' := Option.some.inj (hq.symm.trans hq')
  obtain rfl : r = r' := Option.some.inj (hr.symm.trans hr')
  exact isFinite_iff.2 ⟨q, hq, by omega, by omega⟩

theorem le_iff_value_le {a b : Binary64} (ha : a.isFinite = true) (hb : b.isFinite = true) :
    a ≤ b ↔ a.value ≤ b.value := by
  obtain ⟨s, m, rfl⟩ := exists_finite ha
  obtain ⟨t, n, rfl⟩ := exists_finite hb
  rw [le_iff_place_le (place?_finite s m) (place?_finite t n), value, value,
    div_le_div_iff_of_pos_right cast_unitsInOne_pos, Int.cast_le]

theorem lt_iff_value_lt {a b : Binary64} (ha : a.isFinite = true) (hb : b.isFinite = true) :
    a < b ↔ a.value < b.value := by
  obtain ⟨s, m, rfl⟩ := exists_finite ha
  obtain ⟨t, n, rfl⟩ := exists_finite hb
  rw [lt_iff_place_lt (place?_finite s m) (place?_finite t n), value, value,
    div_lt_div_iff_of_pos_right cast_unitsInOne_pos, Int.cast_lt]

theorem same_iff_value_eq {a b : Binary64} (ha : a.isFinite = true) (hb : b.isFinite = true) :
    a.same b = true ↔ a.value = b.value := by
  obtain ⟨s, m, rfl⟩ := exists_finite ha
  obtain ⟨t, n, rfl⟩ := exists_finite hb
  rw [same_iff, value, value, div_left_inj' cast_unitsInOne_pos.ne', Int.cast_inj]
  simp [place?_finite, eq_comm]

theorem same_of_le_of_not_lt {a b : Binary64} (h : a ≤ b) (hn : ¬a < b) : a.same b = true := by
  obtain ⟨x, y, hx, hy, hxy⟩ := le_iff.1 h
  rw [lt_iff_place_lt hx hy] at hn
  obtain rfl : x = y := by omega
  exact same_iff.2 ⟨x, hx, hy⟩

theorem le_of_same {a b : Binary64} (h : a.same b = true) : a ≤ b := by
  obtain ⟨x, hx, hy⟩ := same_iff.1 h
  exact le_iff.2 ⟨x, x, hx, hy, le_rfl⟩

theorem isFinite_of_same {a b : Binary64} (h : a.same b = true) (hb : b.isFinite = true) : a.isFinite = true := by
  obtain ⟨x, hx, hy⟩ := same_iff.1 h
  obtain ⟨y, hy', hbound⟩ := isFinite_iff.1 hb
  obtain rfl : x = y := Option.some.inj (hy.symm.trans hy')
  exact isFinite_iff.2 ⟨x, hx, hbound⟩

theorem abs_eq_of_same {a b : Binary64} (h : a.same b = true) (hb : b.isFinite = true) : a.abs = b.abs := by
  obtain ⟨s, m, rfl⟩ := exists_finite (isFinite_of_same h hb)
  obtain ⟨t, n, rfl⟩ := exists_finite hb
  obtain ⟨x, hx, hy⟩ := same_iff.1 h
  have hplace := Option.some.inj (hx.trans hy.symm)
  have hunits : m.units = n.units := by
    unfold signed at hplace
    split_ifs at hplace <;> omega
  exact congrArg (finite false) (Magnitude.ext_units hunits)

theorem same_zero_iff {a : Binary64} : a.same zero = true ↔ ∃ z, a = finite z .zero := by
  constructor
  · intro h
    obtain ⟨s, m, rfl⟩ := exists_finite (isFinite_of_same h isFinite_zero)
    exact ⟨s, congrArg (finite s) (finite.inj (abs_eq_of_same h isFinite_zero)).2⟩
  · rintro ⟨z, rfl⟩
    rw [same_iff_value_eq rfl isFinite_zero, value_finite_zero, value_zero]

def nearestPlace (q : ℚ) : Int :=
  signed (q < 0) (min (roundUnits (q.num.natAbs * unitsInOne) q.den) unitsInLimit)

theorem place?_round (s : Bool) (num den : Nat) :
    (round s num den).place? = some (signed s (min (roundUnits num den) unitsInLimit)) := by
  unfold round
  split_ifs with h
  · rw [place?_finite, min_eq_left h.le]
  · rw [min_eq_right (not_lt.1 h)]
    rfl

theorem place?_nearest (z : Bool) (q : ℚ) : (nearest z q).place? = some (nearestPlace q) := by
  unfold nearest roundSigned nearestPlace
  by_cases hq : q = 0
  · subst hq
    cases z <;> simp [signed, place?_finite, Magnitude.zero, roundUnits_eq_zero]
  · have hu : (0 : Int) < unitsInOne := Int.natCast_pos.2 unitsInOne_pos
    have hn : q.num * unitsInOne ≠ 0 := mul_ne_zero (Rat.num_ne_zero.2 hq) hu.ne'
    have hs : q.num * unitsInOne < 0 ↔ q < 0 := by
      rw [← Rat.num_neg]
      exact ⟨fun h => neg_of_mul_neg_left h hu.le, fun h => mul_neg_of_neg_of_pos h hu⟩
    rw [if_neg hn, place?_round, Int.natAbs_mul, Int.natAbs_natCast]
    simp only [hs]

theorem nearestPlace_mono {p q : ℚ} (h : p ≤ q) : nearestPlace p ≤ nearestPlace q := by
  have hc : p.num * q.den ≤ q.num * p.den := (Rat.le_iff p q).1 h
  unfold nearestPlace
  by_cases hp0 : p < 0
  · by_cases hq0 : q < 0
    · have hn : q.num.natAbs * p.den ≤ p.num.natAbs * q.den := by
        have hp1 := Rat.num_neg.2 hp0
        have hq1 := Rat.num_neg.2 hq0
        zify
        rw [abs_of_neg hp1, abs_of_neg hq1]
        linarith
      have hr := roundUnits_mono q.den_pos p.den_pos (a := q.num.natAbs * unitsInOne)
        (c := p.num.natAbs * unitsInOne) (by nlinarith [Nat.mul_le_mul_right unitsInOne hn])
      simp only [hp0, hq0, decide_true, signed, if_true]
      omega
    · simp only [hp0, hq0, decide_true, decide_false, signed, if_true, Bool.false_eq_true, if_false]
      omega
  · have hq0 : ¬q < 0 := fun hq0 => hp0 (h.trans_lt hq0)
    have hn : p.num.natAbs * q.den ≤ q.num.natAbs * p.den := by
      have hp1 : 0 ≤ p.num := Rat.num_nonneg.2 (not_lt.1 hp0)
      have hq1 : 0 ≤ q.num := Rat.num_nonneg.2 (not_lt.1 hq0)
      zify
      rw [abs_of_nonneg hp1, abs_of_nonneg hq1]
      exact hc
    have hr := roundUnits_mono p.den_pos q.den_pos (a := p.num.natAbs * unitsInOne)
      (c := q.num.natAbs * unitsInOne) (by nlinarith [Nat.mul_le_mul_right unitsInOne hn])
    simp only [hp0, hq0, decide_false, signed, Bool.false_eq_true, if_false]
    omega

theorem nearestPlace_neg (q : ℚ) : nearestPlace (-q) = -nearestPlace q := by
  unfold nearestPlace
  rw [Rat.num_neg_eq_neg_num, Rat.den_neg_eq_den, Int.natAbs_neg]
  rcases lt_trichotomy q 0 with hq | rfl | hq
  · have hq' : ¬-q < 0 := by linarith
    simp only [hq, hq', decide_true, decide_false, signed, Bool.false_eq_true, if_true, if_false, neg_neg]
  · simp [signed, roundUnits_eq_zero]
  · have hq' : -q < 0 := by linarith
    simp only [hq.not_gt, hq', decide_true, decide_false, signed, Bool.false_eq_true, if_true, if_false]

theorem place?_abs {a : Binary64} {p : Int} (h : a.place? = some p) : a.abs.place? = some |p| := by
  cases a with
  | nan => cases h
  | infinite s =>
    obtain rfl : signed s unitsInLimit = p := Option.some.inj h
    cases s <;> simp [abs, place?, signed]
  | finite s m =>
    obtain rfl : signed s m.units = p := Option.some.inj h
    cases s <;> simp [abs, place?, signed]

theorem abs_nearest_le (y z : Bool) {p q : ℚ} (h : |q| ≤ p) : (nearest z q).abs ≤ nearest y p := by
  obtain ⟨hl, hu⟩ := abs_le.1 h
  rw [le_iff_place_le (place?_abs (place?_nearest z q)) (place?_nearest y p), abs_le, ← nearestPlace_neg]
  exact ⟨nearestPlace_mono hl, nearestPlace_mono hu⟩

theorem nearest_le_nearest (y z : Bool) {p q : ℚ} (h : p ≤ q) : nearest y p ≤ nearest z q :=
  le_iff.2 ⟨_, _, place?_nearest y p, place?_nearest z q, nearestPlace_mono h⟩

theorem le_nearest_of_value_le {a : Binary64} (ha : a.isFinite = true) (z : Bool) {q : ℚ} (h : a.value ≤ q) :
    a ≤ nearest z q := by
  obtain ⟨s, m, rfl⟩ := exists_finite ha
  have hle := nearest_le_nearest s z h
  rwa [nearest_value] at hle

theorem zero_le_iff {a : Binary64} (ha : a.isFinite = true) : zero ≤ a ↔ 0 ≤ a.value := by
  rw [le_iff_value_le isFinite_zero ha, value_zero]

theorem zero_lt_iff {a : Binary64} (ha : a.isFinite = true) : zero < a ↔ 0 < a.value := by
  rw [lt_iff_value_lt isFinite_zero ha, value_zero]

theorem zero_le_of_not_lt {a : Binary64} (ha : a.isFinite = true) (h : ¬a < zero) : zero ≤ a := by
  rw [lt_iff_value_lt ha isFinite_zero, value_zero] at h
  exact (zero_le_iff ha).2 (not_lt.1 h)

theorem zero_lt_of_not_le {a : Binary64} (ha : a.isFinite = true) (h : ¬a ≤ zero) : zero < a := by
  rw [le_iff_value_le ha isFinite_zero, value_zero] at h
  exact (zero_lt_iff ha).2 (not_le.1 h)

theorem exists_finite_of_zero_lt {a : Binary64} (ha : a.isFinite = true) (h : zero < a) :
    ∃ m, a = finite false m ∧ m.units ≠ 0 := by
  obtain ⟨s, m, rfl⟩ := exists_finite ha
  rw [zero_lt_iff ha] at h
  have hm := (value_ne_zero_iff s m).1 h.ne'
  cases s with
  | false => exact ⟨m, rfl, hm⟩
  | true =>
    exfalso
    have hv : (finite true m).value = -(finite true m).abs.value := value_neg (finite false m)
    rw [hv, value_abs] at h
    linarith [abs_nonneg (finite true m).value]

theorem exists_finite_mul {a b : Binary64} (ha : zero < a) (hb : zero < b) (h : (a * b).isFinite = true) :
    ∃ n, a * b = finite false n := by
  obtain ⟨hfa, hfb⟩ := isFinite_of_mul h
  obtain ⟨m, rfl, -⟩ := exists_finite_of_zero_lt hfa ha
  obtain ⟨n, rfl, -⟩ := exists_finite_of_zero_lt hfb hb
  rw [mul_def, mul, bne_self_eq_false] at h ⊢
  unfold round at h ⊢
  split_ifs at h ⊢
  · exact ⟨_, rfl⟩
  · cases h

theorem le_add_of_value_le {a b c : Binary64} (ha : a.isFinite = true) (hb : b.isFinite = true)
    (hc : c.isFinite = true) (h : c.value ≤ a.value + b.value) : c ≤ a + b := by
  obtain ⟨z, hz⟩ := exists_add_eq_nearest ha hb
  rw [hz]
  exact le_nearest_of_value_le hc z h

theorem le_add_of_zero_le {a b : Binary64} (ha : zero ≤ a) (hfa : a.isFinite = true) (hfb : b.isFinite = true) :
    b ≤ a + b := by
  apply le_add_of_value_le hfa hfb hfb
  linarith [(zero_le_iff hfa).1 ha]

theorem zero_le_nearest (z : Bool) {q : ℚ} (hq : 0 ≤ q) : zero ≤ nearest z q := by
  have h := nearest_le_nearest false z hq
  rwa [nearest_zero] at h

theorem ofNat_le_ofNat {m n : Nat} (h : m ≤ n) : ofNat m ≤ ofNat n := by
  rw [ofNat_eq_nearest, ofNat_eq_nearest]
  exact nearest_le_nearest _ _ (Nat.cast_le.2 h)

theorem isFinite_ofNat_of_lt {n : Nat} (hn : n < 2 ^ 64) : (ofNat n).isFinite = true := by
  apply isFinite_of_le_of_le isFinite_zero (c := ofNat (2 ^ 64)) (by decide +kernel)
  · rw [ofNat_eq_nearest]
    exact zero_le_nearest _ (Nat.cast_nonneg n)
  · exact ofNat_le_ofNat hn.le

theorem value_ofNat_pos {n : Nat} (h0 : 0 < n) (hn : n < 2 ^ 64) : 0 < (ofNat n).value := by
  have hle : one ≤ ofNat n := ofNat_le_ofNat h0
  rw [le_iff_value_le isFinite_one (isFinite_ofNat_of_lt hn), value_one] at hle
  linarith

theorem zero_div_ofNat {n : Nat} (h0 : 0 < n) (hn : n < 2 ^ 64) : zero / ofNat n = zero := by
  have hfinite := isFinite_ofNat_of_lt hn
  obtain ⟨m, hm, hm0⟩ := exists_finite_of_zero_lt hfinite ((zero_lt_iff hfinite).2 (value_ofNat_pos h0 hn))
  have hunits : Magnitude.zero.units = 0 := rfl
  rw [zero, hm, div_def, div, if_neg hm0, hunits, Nat.zero_mul]
  exact round_eq_zero false (by omega)

def halfUnit : ℚ := 1 / (2 * unitsInOne)

theorem two_pow_mul_halfUnit_le {a e : ℕ} (h : a + e ≤ 1074) : 2 ^ a * halfUnit ≤ 1 / 2 ^ e := by
  have hunits : (2 : ℚ) ^ a * 2 ^ e ≤ unitsInOne := by
    rw [← pow_add]
    exact_mod_cast two_pow_le_unitsInOne h
  have hu := cast_unitsInOne_pos
  rw [halfUnit, mul_one_div, div_le_div_iff₀ (by positivity) (by positivity)]
  linarith

theorem halfUnit_pos : 0 < halfUnit := div_pos one_pos (mul_pos two_pos cast_unitsInOne_pos)

theorem zero_lt_nearest_iff (z : Bool) {q : ℚ} : zero < nearest z q ↔ halfUnit < q := by
  have hu := cast_unitsInOne_pos
  have hplace : zero < nearest z q ↔ 0 < nearestPlace q :=
    lt_iff_place_lt (place?_finite false .zero) (place?_nearest z q)
  rw [hplace]
  by_cases hq : q ≤ 0
  · have hle : nearestPlace q ≤ nearestPlace 0 := nearestPlace_mono hq
    have h0 : nearestPlace 0 = 0 := by simp [nearestPlace, signed, roundUnits_eq_zero]
    exact iff_of_false (by omega) (by linarith [halfUnit_pos])
  · have hpos : 0 < q := not_le.1 hq
    have hnum := Rat.num_pos.2 hpos
    have hq' : q = q.num.natAbs / q.den := by
      rw [Nat.cast_natAbs, abs_of_pos hnum]
      exact (Rat.num_div_den q).symm
    have hplace' : 0 < nearestPlace q ↔ 0 < roundUnits (q.num.natAbs * unitsInOne) q.den := by
      have := unitsInLimit_pos
      simp only [nearestPlace, hpos.not_gt, decide_false, signed, Bool.false_eq_true, if_false]
      omega
    rw [hplace', roundUnits_pos_iff q.den_pos, hq', halfUnit,
      div_lt_div_iff₀ (mul_pos two_pos hu) (Nat.cast_pos.2 q.den_pos)]
    rw [← hq', ← Nat.cast_lt (α := ℚ)]
    push_cast
    constructor
    · intro h
      linarith
    · intro h
      linarith

theorem zero_lt_mul_iff {a b : Binary64} (ha : a.isFinite = true) (hb : b.isFinite = true) :
    zero < a * b ↔ halfUnit < a.value * b.value := by
  obtain ⟨z, hz⟩ := exists_mul_eq_nearest ha hb
  rw [hz, zero_lt_nearest_iff]

theorem value_nonneg_of_zero_le {a : Binary64} (h : zero ≤ a) : 0 ≤ a.value := by
  by_cases ha : a.isFinite = true
  · exact (zero_le_iff ha).1 h
  · rw [value_eq_zero_of_not_finite (Bool.not_eq_true _ ▸ ha)]

theorem value_nearest_nonneg (z : Bool) {q : ℚ} (hq : 0 ≤ q) : 0 ≤ (nearest z q).value :=
  value_nonneg_of_zero_le (zero_le_nearest z hq)

theorem value_nearest_nonpos (z : Bool) {q : ℚ} (hq : q ≤ 0) : (nearest z q).value ≤ 0 := by
  by_cases hfinite : (nearest z q).isFinite = true
  · have h := nearest_le_nearest z false hq
    rwa [nearest_zero, le_iff_value_le hfinite rfl, value_finite_zero] at h
  · rw [value_eq_zero_of_not_finite (Bool.not_eq_true _ ▸ hfinite)]

theorem value_mul_nonneg {a b : Binary64} (ha : 0 ≤ a.value) (hb : 0 ≤ b.value) : 0 ≤ (a * b).value := by
  by_cases h : (a * b).isFinite = true
  · obtain ⟨hfa, hfb⟩ := isFinite_of_mul h
    obtain ⟨z, hz⟩ := exists_mul_eq_nearest hfa hfb
    rw [hz]
    exact value_nearest_nonneg z (mul_nonneg ha hb)
  · rw [value_eq_zero_of_not_finite (Bool.not_eq_true _ ▸ h)]

theorem value_add_nonneg {a b : Binary64} (ha : 0 ≤ a.value) (hb : 0 ≤ b.value) : 0 ≤ (a + b).value := by
  by_cases h : (a + b).isFinite = true
  · obtain ⟨hfa, hfb⟩ := isFinite_of_add h
    obtain ⟨z, hz⟩ := exists_add_eq_nearest hfa hfb
    rw [hz]
    exact value_nearest_nonneg z (add_nonneg ha hb)
  · rw [value_eq_zero_of_not_finite (Bool.not_eq_true _ ▸ h)]

theorem value_div_nonneg {a b : Binary64} (ha : 0 ≤ a.value) (hb : 0 ≤ b.value) : 0 ≤ (a / b).value := by
  by_cases h : a.isFinite = true ∧ b.isFinite = true ∧ b.value ≠ 0
  · obtain ⟨hfa, hfb, h0⟩ := h
    obtain ⟨z, hz⟩ := exists_div_eq_nearest hfa hfb h0
    rw [hz]
    exact value_nearest_nonneg z (div_nonneg ha hb)
  · rw [value_div_eq_zero h]

theorem value_round_nonneg (num den : Nat) : 0 ≤ (round false num den).value := by
  unfold round
  split_ifs
  · exact div_nonneg (Int.cast_nonneg (Int.natCast_nonneg _)) cast_unitsInOne_pos.le
  · exact le_refl _

theorem value_sqrt_nonneg (a : Binary64) : 0 ≤ (sqrt a).value := by
  cases a with
  | nan s => exact le_refl _
  | infinite s => cases s <;> exact le_refl _
  | finite s m =>
    by_cases h0 : m.units = 0
    · have hv : (finite s m).value = 0 := not_not.1 (mt (value_ne_zero_iff s m).1 (not_not.2 h0))
      rw [sqrt, if_pos h0, hv]
    · cases s with
      | true =>
        rw [sqrt, if_neg h0]
        exact le_refl _
      | false =>
        rw [sqrt, if_neg h0, if_neg Bool.false_ne_true]
        exact value_round_nonneg _ _

theorem zero_le_abs {a : Binary64} (ha : a.isFinite = true) : zero ≤ a.abs := by
  rw [zero_le_iff (by rwa [isFinite_abs]), value_abs]
  exact abs_nonneg _

theorem isNaN_of_place? {a : Binary64} {x : Int} (h : a.place? = some x) : a.isNaN = false := by
  cases a with
  | nan => cases h
  | infinite => rfl
  | finite => rfl

theorem isNaN_abs_sub {a b : Binary64} (ha : a.isFinite = true) (hb : b.isFinite = true) :
    (a - b).abs.isNaN = false := by
  obtain ⟨z, hz⟩ := exists_sub_eq_nearest ha hb
  rw [hz]
  exact isNaN_of_place? (place?_abs (place?_nearest z _))

theorem place?_maxNum {a b : Binary64} {x y : Int} (ha : a.place? = some x) (hb : b.place? = some y) :
    (a.maxNum b).place? = some (max x y) := by
  have hlt := lt_iff_place_lt ha hb
  unfold maxNum
  rw [isNaN_of_place? ha, if_neg Bool.false_ne_true]
  split_ifs with h
  · rw [hb, max_eq_right (hlt.1 h).le]
  · rw [ha, max_eq_left (not_lt.1 (mt hlt.2 h))]

theorem maxNum_le_maxNum {a b c d : Binary64} (hab : a ≤ b) (hcd : c ≤ d) : a.maxNum c ≤ b.maxNum d := by
  obtain ⟨x, y, hx, hy, hxy⟩ := le_iff.1 hab
  obtain ⟨u, v, hu, hv, huv⟩ := le_iff.1 hcd
  exact le_iff.2 ⟨_, _, place?_maxNum hx hu, place?_maxNum hy hv, max_le_max hxy huv⟩

theorem exists_place {a : Binary64} (h : a.isNaN = false) : ∃ p, a.place? = some p := by
  cases a with
  | nan => cases h
  | infinite s => exact ⟨_, rfl⟩
  | finite s m => exact ⟨_, rfl⟩

theorem le_refl_of_isNaN {a : Binary64} (h : a.isNaN = false) : a ≤ a := by
  obtain ⟨p, hp⟩ := exists_place h
  exact (le_iff_place_le hp hp).2 le_rfl

theorem not_lt_of_le {a b : Binary64} (h : a ≤ b) : ¬b < a := by
  obtain ⟨x, y, hx, hy, hxy⟩ := le_iff.1 h
  rw [lt_iff_place_lt hy hx]
  exact not_lt.2 hxy

theorem isNaN_of_le {a b : Binary64} (h : a ≤ b) : b.isNaN = false := by
  obtain ⟨-, y, -, hy, -⟩ := le_iff.1 h
  exact isNaN_of_place? hy

theorem isNaN_of_isFinite {a : Binary64} (h : a.isFinite = true) : a.isNaN = false := by
  obtain ⟨s, m, rfl⟩ := exists_finite h
  rfl

theorem maxNum_le_iff {a b c : Binary64} (ha : a.isNaN = false) (hb : b.isNaN = false) :
    a.maxNum b ≤ c ↔ a ≤ c ∧ b ≤ c := by
  obtain ⟨x, hx⟩ := exists_place ha
  obtain ⟨y, hy⟩ := exists_place hb
  have hxy := place?_maxNum hx hy
  constructor
  · intro h
    obtain ⟨p, z, hp, hz, hle⟩ := le_iff.1 h
    obtain rfl : p = max x y := Option.some.inj (hp.symm.trans hxy)
    constructor
    · exact le_iff.2 ⟨x, z, hx, hz, (le_max_left x y).trans hle⟩
    · exact le_iff.2 ⟨y, z, hy, hz, (le_max_right x y).trans hle⟩
  · rintro ⟨hac, hbc⟩
    obtain ⟨p, z, hp, hz, -⟩ := le_iff.1 hac
    rw [le_iff_place_le hxy hz]
    exact max_le ((le_iff_place_le hx hz).1 hac) ((le_iff_place_le hy hz).1 hbc)

theorem le_maxNum_left {a b : Binary64} (ha : a.isNaN = false) (hb : b.isNaN = false) : a ≤ a.maxNum b := by
  obtain ⟨x, hx⟩ := exists_place ha
  obtain ⟨y, hy⟩ := exists_place hb
  exact le_iff.2 ⟨x, _, hx, place?_maxNum hx hy, le_max_left x y⟩

theorem le_maxNum_right {a b : Binary64} (ha : a.isNaN = false) (hb : b.isNaN = false) : b ≤ a.maxNum b := by
  obtain ⟨x, hx⟩ := exists_place ha
  obtain ⟨y, hy⟩ := exists_place hb
  exact le_iff.2 ⟨y, _, hy, place?_maxNum hx hy, le_max_right x y⟩

theorem isNaN_maxNum {a b : Binary64} (ha : a.isNaN = false) (hb : b.isNaN = false) : (a.maxNum b).isNaN = false := by
  unfold maxNum
  split_ifs <;> assumption

theorem value_maxNum {a b : Binary64} (ha : a.isFinite = true) (hb : b.isFinite = true) :
    (a.maxNum b).value = max a.value b.value := by
  rw [maxNum, isNaN_of_isFinite ha, if_neg Bool.false_ne_true]
  by_cases h : a < b
  · rw [if_pos h, max_eq_right ((lt_iff_value_lt ha hb).1 h).le]
  · rw [if_neg h, max_eq_left (not_lt.1 (mt (lt_iff_value_lt ha hb).2 h))]

theorem le_infinity {a : Binary64} (ha : a.isNaN = false) : a ≤ infinity := by
  cases a with
  | nan => cases ha
  | infinite s =>
    refine le_iff.2 ⟨_, _, rfl, rfl, ?_⟩
    cases s <;> simp [signed]
  | finite s m => exact le_iff.2 ⟨_, _, rfl, rfl, (abs_signed_lt s m).2.le⟩

theorem maxNum_infinity (a : Binary64) : a.maxNum infinity = infinity := by
  have top {a : Binary64} (ha : a.isNaN = false) (hlt : a < infinity) : a.maxNum infinity = infinity := by
    rw [maxNum, ha, if_neg Bool.false_ne_true, if_pos hlt]
  cases a with
  | nan => rfl
  | finite s m => exact top rfl (lt_iff.2 ⟨_, _, rfl, rfl, (abs_signed_lt s m).2⟩)
  | infinite s =>
    cases s with
    | true =>
      have := unitsInLimit_pos
      apply top rfl
      refine lt_iff.2 ⟨_, _, rfl, rfl, ?_⟩
      simp only [signed, if_true, Bool.false_eq_true, if_false]
      omega
    | false =>
      unfold maxNum
      split_ifs <;> rfl

theorem infinity_maxNum (a : Binary64) : infinity.maxNum a = infinity := by
  have hn : infinity.isNaN = false := rfl
  rw [maxNum, hn, if_neg Bool.false_ne_true, if_neg]
  intro h
  exact not_lt_of_le (le_infinity (isNaN_of_le (le_of_lt h))) h

theorem isFinite_maxNum {a b : Binary64} (ha : a.isFinite = true) (hb : b.isFinite = true) :
    (a.maxNum b).isFinite = true := by
  unfold maxNum
  split_ifs <;> assumption

structure Below (a b : Binary64) : Prop where
  zero_le : zero ≤ a
  le : a ≤ b
  isFinite_right : b.isFinite = true

namespace Below

variable {a b c d : Binary64}

theorem isFinite_left (h : Below a b) : a.isFinite = true :=
  isFinite_of_le_of_le isFinite_zero h.isFinite_right h.zero_le h.le

theorem value_nonneg (h : Below a b) : 0 ≤ a.value := (zero_le_iff h.isFinite_left).1 h.zero_le

theorem value_le (h : Below a b) : a.value ≤ b.value := (le_iff_value_le h.isFinite_left h.isFinite_right).1 h.le

theorem refl (h : zero ≤ a) (hf : a.isFinite = true) : Below a a :=
  ⟨h, (le_iff_value_le hf hf).2 (le_refl _), hf⟩

theorem mul (hab : Below a b) (hcd : Below c d) (h : (b * d).isFinite = true) : Below (a * c) (b * d) := by
  obtain ⟨y, hy⟩ := exists_mul_eq_nearest hab.isFinite_left hcd.isFinite_left
  obtain ⟨z, hz⟩ := exists_mul_eq_nearest hab.isFinite_right hcd.isFinite_right
  refine ⟨?_, ?_, h⟩
  · rw [hy]
    exact zero_le_nearest y (mul_nonneg hab.value_nonneg hcd.value_nonneg)
  · rw [hy, hz]
    apply nearest_le_nearest
    exact mul_le_mul hab.value_le hcd.value_le hcd.value_nonneg (hab.value_nonneg.trans hab.value_le)

theorem add (hab : Below a b) (hcd : Below c d) (h : (b + d).isFinite = true) : Below (a + c) (b + d) := by
  obtain ⟨y, hy⟩ := exists_add_eq_nearest hab.isFinite_left hcd.isFinite_left
  obtain ⟨z, hz⟩ := exists_add_eq_nearest hab.isFinite_right hcd.isFinite_right
  refine ⟨?_, ?_, h⟩
  · rw [hy]
    exact zero_le_nearest y (add_nonneg hab.value_nonneg hcd.value_nonneg)
  · rw [hy, hz]
    apply nearest_le_nearest
    exact add_le_add hab.value_le hcd.value_le

theorem maxNum (hab : Below a b) (hcd : Below c d) : Below (a.maxNum c) (b.maxNum d) := by
  refine ⟨?_, maxNum_le_maxNum hab.le hcd.le, isFinite_maxNum hab.isFinite_right hcd.isFinite_right⟩
  exact Binary64.le_trans hab.zero_le (le_maxNum_left (isNaN_of_isFinite hab.isFinite_left)
    (isNaN_of_isFinite hcd.isFinite_left))

end Below

end OutlierBand.Binary64
