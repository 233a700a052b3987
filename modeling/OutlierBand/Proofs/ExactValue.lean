import OutlierBand.Binary64.Arithmetic
import OutlierBand.Proofs.RoundingOrder
import Mathlib.Algebra.Order.Field.Rat
import Mathlib.Data.Rat.Cast.Order
import Mathlib.Tactic.FieldSimp
import Mathlib.Tactic.Positivity

namespace OutlierBand.Binary64

theorem two_pow_le_unitsInOne {e : ℕ} (he : e ≤ 1074) : 2 ^ e ≤ unitsInOne := by
  unfold unitsInOne
  generalize 1074 = k at he ⊢
  exact Nat.pow_le_pow_right (by decide) he

theorem unitsInOne_pos : 0 < unitsInOne := (Nat.two_pow_pos 0).trans_le (two_pow_le_unitsInOne (Nat.zero_le _))

theorem cast_unitsInOne_pos : (0 : ℚ) < unitsInOne := Nat.cast_pos.2 unitsInOne_pos

theorem zpow_mul_unitsInOne (e : ℕ) : (2 : ℚ) ^ (e - 1074 : ℤ) * unitsInOne = 2 ^ e := by
  have hpow (u : ℕ) : (2 : ℚ) ^ (e - u : ℤ) * (2 ^ u : ℕ) = 2 ^ e := by
    rw [zpow_sub₀ two_ne_zero, zpow_natCast, zpow_natCast, Nat.cast_pow, Nat.cast_ofNat]
    exact div_mul_cancel₀ _ (pow_pos two_pos u).ne'
  unfold unitsInOne
  generalize hu : (1074 : ℕ) = u
  obtain hu' : (1074 : ℤ) = u := by omega
  rw [hu']
  exact hpow u

def value : Binary64 → ℚ
  | finite s m => (signed s m.units : ℚ) / unitsInOne
  | _ => 0

def nearest (zeroSign : Bool) (q : ℚ) : Binary64 := roundSigned zeroSign (q.num * unitsInOne) q.den

theorem exists_finite {x : Binary64} (h : x.isFinite = true) : ∃ s m, x = finite s m := by
  cases x with
  | nan => cases h
  | infinite => cases h
  | finite s m => exact ⟨s, m, rfl⟩

theorem value_eq_zero_of_not_finite {x : Binary64} (h : x.isFinite = false) : x.value = 0 := by
  cases x with
  | nan => rfl
  | infinite => rfl
  | finite => cases h

theorem round_congr (s : Bool) {a b c d : Nat} (hb : 0 < b) (hd : 0 < d) (h : a * d = c * b) :
    round s a b = round s c d := by
  unfold round
  simp only [roundUnits_congr hb hd h]

theorem round_eq_roundSigned (s : Bool) (k : Nat) {den : Nat} (hd : 0 < den) :
    round s k den = roundSigned s (signed s k) den := by
  unfold roundSigned
  by_cases hk : k = 0
  · subst hk
    rw [if_pos (by cases s <;> rfl)]
    exact round_eq_zero s (by omega)
  · have hn : (signed s k).natAbs = k := by cases s <;> simp [signed]
    have hs : decide (signed s k < 0) = s := by
      cases s
      · simp [signed]
      · simp [signed]
        omega
    rw [if_neg (by omega), hn, hs]

theorem roundSigned_congr (s : Bool) {a c : Int} {b d : Nat} (hb : 0 < b) (hd : 0 < d) (h : a * d = c * b) :
    roundSigned s a b = roundSigned s c d := by
  have hb' : (0 : Int) < b := by exact_mod_cast hb
  have hd' : (0 : Int) < d := by exact_mod_cast hd
  have hz : a = 0 ↔ c = 0 := by
    constructor
    · rintro rfl
      nlinarith
    · rintro rfl
      nlinarith
  have hs : a < 0 ↔ c < 0 := by
    constructor
    · intro hn
      nlinarith
    · intro hn
      nlinarith
  have hn : a.natAbs * d = c.natAbs * b := by
    have := congrArg Int.natAbs h
    simpa only [Int.natAbs_mul, Int.natAbs_natCast] using this
  unfold roundSigned
  simp only [hz, hs, round_congr _ hb hd hn]

theorem roundSigned_eq_nearest (s : Bool) (a : Int) {b : Nat} (hb : 0 < b) {q : ℚ}
    (h : q * (b * unitsInOne) = a) : roundSigned s a b = nearest s q := by
  unfold nearest
  apply roundSigned_congr s hb q.den_pos
  have hq : (q.num : ℚ) = q * q.den := (Rat.mul_den_eq_num q).symm
  have hc : (a : ℚ) * q.den = q.num * unitsInOne * b := by
    rw [← h, hq]
    ring
  exact_mod_cast hc

theorem value_finite_mul (s : Bool) (m : Magnitude) : (finite s m).value * unitsInOne = signed s m.units :=
  div_mul_cancel₀ _ cast_unitsInOne_pos.ne'

theorem nearest_value (s : Bool) (m : Magnitude) : nearest s (finite s m).value = finite s m := by
  rw [← roundSigned_eq_nearest s (signed s m.units) Nat.one_pos (by simp [value_finite_mul]),
    ← round_eq_roundSigned s m.units Nat.one_pos]
  simpa only [Nat.mul_one] using round_units s m Nat.one_pos

theorem add_finite (s t : Bool) (m n : Magnitude) :
    finite s m + finite t n = nearest (s && t) ((finite s m).value + (finite t n).value) := by
  apply roundSigned_eq_nearest _ _ Nat.one_pos
  rw [Nat.cast_one, one_mul, add_mul, value_finite_mul, value_finite_mul, Int.cast_add]

theorem value_neg (x : Binary64) : (-x).value = -x.value := by
  cases x with
  | nan => exact neg_zero.symm
  | infinite => exact neg_zero.symm
  | finite s m =>
    change (signed (!s) m.units : ℚ) / unitsInOne = -((signed s m.units : ℚ) / unitsInOne)
    rw [← neg_div]
    congr 1
    cases s <;> simp [signed]

theorem isFinite_neg (x : Binary64) : (-x).isFinite = x.isFinite := by cases x <;> rfl

theorem sub_finite (s t : Bool) (m n : Magnitude) :
    finite s m - finite t n = nearest (s && !t) ((finite s m).value - (finite t n).value) := by
  have h := add_finite s (!t) m n
  have hn : (finite (!t) n).value = -(finite t n).value := value_neg (finite t n)
  rw [hn, ← sub_eq_add_neg] at h
  exact h

theorem signed_mul (s t : Bool) (m n : Nat) : signed s m * signed t n = signed (s != t) (m * n) := by
  cases s <;> cases t <;> simp [signed]

theorem mul_finite (s t : Bool) (m n : Magnitude) :
    finite s m * finite t n = nearest (s != t) ((finite s m).value * (finite t n).value) := by
  rw [mul_def, mul, round_eq_roundSigned _ _ unitsInOne_pos]
  apply roundSigned_eq_nearest _ _ unitsInOne_pos
  rw [← signed_mul, Int.cast_mul, ← value_finite_mul, ← value_finite_mul]
  ring

theorem value_ne_zero_iff (s : Bool) (m : Magnitude) : (finite s m).value ≠ 0 ↔ m.units ≠ 0 := by
  have hs : signed s m.units ≠ 0 ↔ m.units ≠ 0 := by cases s <;> simp [signed]
  rw [← hs, ← Int.cast_ne_zero (α := ℚ), ← value_finite_mul]
  exact (mul_ne_zero_iff_right cast_unitsInOne_pos.ne').symm

theorem div_finite (s t : Bool) (m : Magnitude) {n : Magnitude} (hn : n.units ≠ 0) :
    finite s m / finite t n = nearest (s != t) ((finite s m).value / (finite t n).value) := by
  have hv := (value_ne_zero_iff t n).2 hn
  have hu : (n.units : ℚ) = signed t n.units * signed t 1 := by cases t <;> simp [signed]
  have hm : (signed (s != t) (m.units * unitsInOne) : ℚ) = signed s m.units * signed t 1 * unitsInOne := by
    cases s <;> cases t <;> simp [signed]
  rw [div_def, div, if_neg hn, round_eq_roundSigned _ _ (Nat.pos_of_ne_zero hn)]
  apply roundSigned_eq_nearest _ _ (Nat.pos_of_ne_zero hn)
  rw [hu, hm, ← value_finite_mul, ← value_finite_mul]
  field_simp

theorem value_finite_zero (s : Bool) : (finite s .zero).value = 0 := by
  have h := value_ne_zero_iff s .zero
  exact not_not.1 (mt h.1 (not_not.2 rfl))

theorem ofNat_eq_nearest (n : Nat) : ofNat n = nearest false n := by
  unfold ofNat
  rw [round_eq_roundSigned false _ Nat.one_pos]
  apply roundSigned_eq_nearest _ _ Nat.one_pos
  simp [signed]

theorem exists_ofNat {n : Nat} (hn : n ≤ 2 ^ 53) :
    ∃ m : Magnitude, ofNat n = finite false m ∧ m.units = n * unitsInOne := by
  have hr := representable_mul_unitsInOne hn
  have hb := mul_unitsInOne_lt hn
  refine ⟨⟨n * unitsInOne, hr, hb⟩, ?_, rfl⟩
  have h := round_units false ⟨n * unitsInOne, hr, hb⟩ Nat.one_pos
  rwa [Nat.mul_one] at h

theorem isFinite_ofNat {n : Nat} (hn : n ≤ 2 ^ 53) : (ofNat n).isFinite = true := by
  obtain ⟨m, h, -⟩ := exists_ofNat hn
  rw [h]
  rfl

theorem value_ofNat {n : Nat} (hn : n ≤ 2 ^ 53) : (ofNat n).value = n := by
  obtain ⟨m, h, hm⟩ := exists_ofNat hn
  have hv := value_finite_mul false m
  rw [h]
  apply mul_right_cancel₀ cast_unitsInOne_pos.ne'
  simpa [signed, hm] using hv

theorem isFinite_one : one.isFinite = true := isFinite_ofNat (by decide)

theorem isFinite_two : two.isFinite = true := isFinite_ofNat (by decide)

theorem value_one : one.value = 1 := (value_ofNat (n := 1) (by decide)).trans Nat.cast_one

theorem value_two : two.value = 2 := (value_ofNat (n := 2) (by decide)).trans Nat.cast_two

theorem exists_mul_eq_nearest {a b : Binary64} (ha : a.isFinite = true) (hb : b.isFinite = true) :
    ∃ z, a * b = nearest z (a.value * b.value) := by
  obtain ⟨s, m, rfl⟩ := exists_finite ha
  obtain ⟨t, n, rfl⟩ := exists_finite hb
  exact ⟨_, mul_finite s t m n⟩

theorem exists_add_eq_nearest {a b : Binary64} (ha : a.isFinite = true) (hb : b.isFinite = true) :
    ∃ z, a + b = nearest z (a.value + b.value) := by
  obtain ⟨s, m, rfl⟩ := exists_finite ha
  obtain ⟨t, n, rfl⟩ := exists_finite hb
  exact ⟨_, add_finite s t m n⟩

theorem exists_sub_eq_nearest {a b : Binary64} (ha : a.isFinite = true) (hb : b.isFinite = true) :
    ∃ z, a - b = nearest z (a.value - b.value) := by
  obtain ⟨s, m, rfl⟩ := exists_finite ha
  obtain ⟨t, n, rfl⟩ := exists_finite hb
  exact ⟨_, sub_finite s t m n⟩

theorem exists_div_eq_nearest {a b : Binary64} (ha : a.isFinite = true) (hb : b.isFinite = true)
    (h0 : b.value ≠ 0) : ∃ z, a / b = nearest z (a.value / b.value) := by
  obtain ⟨s, m, rfl⟩ := exists_finite ha
  obtain ⟨t, n, rfl⟩ := exists_finite hb
  exact ⟨_, div_finite s t m ((value_ne_zero_iff t n).1 h0)⟩

theorem fma_finite (s t u : Bool) (m n k : Magnitude) :
    fma (finite s m) (finite t n) (finite u k) =
      nearest ((s != t) && u) ((finite s m).value * (finite t n).value + (finite u k).value) := by
  rw [fma]
  apply roundSigned_eq_nearest _ _ unitsInOne_pos
  rw [← signed_mul, Int.cast_add, Int.cast_mul, ← value_finite_mul s m, ← value_finite_mul t n]
  have hk : (signed u (k.units * unitsInOne) : ℚ) = (finite u k).value * unitsInOne * unitsInOne := by
    rw [value_finite_mul]
    cases u <;> simp [signed]
  rw [hk]
  ring

theorem exists_fma_eq_nearest {a b c : Binary64} (ha : a.isFinite = true) (hb : b.isFinite = true)
    (hc : c.isFinite = true) : ∃ z, fma a b c = nearest z (a.value * b.value + c.value) := by
  obtain ⟨s, m, rfl⟩ := exists_finite ha
  obtain ⟨t, n, rfl⟩ := exists_finite hb
  obtain ⟨u, k, rfl⟩ := exists_finite hc
  exact ⟨_, fma_finite s t u m n k⟩

theorem value_div_eq_zero {a b : Binary64} (h : ¬(a.isFinite = true ∧ b.isFinite = true ∧ b.value ≠ 0)) :
    (a / b).value = 0 := by
  rw [div_def]
  cases a with
  | nan => rfl
  | infinite s => cases b <;> rfl
  | finite s m =>
    cases b with
    | nan => rfl
    | infinite t => exact value_finite_zero _
    | finite t n =>
      have hn : n.units = 0 := not_not.1 fun hn => h ⟨rfl, rfl, (value_ne_zero_iff t n).2 hn⟩
      rw [div, if_pos hn]
      split_ifs <;> rfl

theorem isFinite_of_mul {a b : Binary64} (h : (a * b).isFinite = true) : a.isFinite = true ∧ b.isFinite = true := by
  rw [mul_def] at h
  cases a <;> cases b <;> grind [mul, isFinite, invalid]

theorem isFinite_of_add {a b : Binary64} (h : (a + b).isFinite = true) : a.isFinite = true ∧ b.isFinite = true := by
  rw [add_def] at h
  cases a <;> cases b <;> grind [add, isFinite, invalid]

theorem isFinite_of_div {a b : Binary64} (h : (a / b).isFinite = true) : a.isFinite = true := by
  rw [div_def] at h
  cases a <;> cases b <;> grind [div, isFinite, invalid]

theorem isFinite_of_sub {a b : Binary64} (h : (a - b).isFinite = true) : a.isFinite = true ∧ b.isFinite = true := by
  obtain ⟨ha, hb⟩ := isFinite_of_add (b := -b) h
  exact ⟨ha, isFinite_neg b ▸ hb⟩

theorem isFinite_of_fma {a b c : Binary64} (h : (fma a b c).isFinite = true) :
    a.isFinite = true ∧ b.isFinite = true ∧ c.isFinite = true := by
  have through (h : (mul a b + c).isFinite = true) : a.isFinite = true ∧ b.isFinite = true ∧ c.isFinite = true := by
    obtain ⟨hab, hc⟩ := isFinite_of_add h
    obtain ⟨ha, hb⟩ := isFinite_of_mul hab
    exact ⟨ha, hb, hc⟩
  cases a with
  | nan => exact through h
  | infinite => exact through h
  | finite =>
    cases b with
    | nan => exact through h
    | infinite => exact through h
    | finite =>
      cases c with
      | nan => cases h
      | infinite => cases h
      | finite => exact ⟨rfl, rfl, rfl⟩

theorem isFinite_of_sqrt {a : Binary64} (h : (sqrt a).isFinite = true) : a.isFinite = true := by
  cases a with
  | nan => cases h
  | infinite s => cases s <;> cases h
  | finite => rfl

theorem isFinite_zero : zero.isFinite = true := rfl

theorem value_zero : zero.value = 0 := value_finite_zero false

theorem nearest_zero (z : Bool) : nearest z 0 = finite z .zero := by
  unfold nearest roundSigned
  rw [if_pos (by simp)]

theorem nearest_of_ne_zero (y z : Bool) {q : ℚ} (hq : q ≠ 0) : nearest y q = nearest z q := by
  have hn : q.num * unitsInOne ≠ 0 := mul_ne_zero (Rat.num_ne_zero.2 hq) (Int.natCast_pos.2 unitsInOne_pos).ne'
  unfold nearest roundSigned
  rw [if_neg hn, if_neg hn]

theorem nearest_value_eq (z : Bool) {x : Binary64} (hx : x.isFinite = true) :
    (nearest z x.value).isFinite = true ∧ (nearest z x.value).value = x.value := by
  by_cases h0 : x.value = 0
  · rw [h0, nearest_zero]
    exact ⟨rfl, value_finite_zero z⟩
  · obtain ⟨s, m, rfl⟩ := exists_finite hx
    rw [nearest_of_ne_zero z s h0, nearest_value]
    exact ⟨rfl, rfl⟩

theorem sub_eq_zero_of_value_eq {a b : Binary64} (ha : a.isFinite = true) (hb : b.isFinite = true)
    (h : a.value = b.value) : ∃ z, a - b = finite z .zero := by
  obtain ⟨z, hz⟩ := exists_sub_eq_nearest ha hb
  exact ⟨z, by rw [hz, h, sub_self, nearest_zero]⟩

theorem abs_sub_self {a : Binary64} (ha : a.isFinite = true) : (a - a).abs = zero := by
  obtain ⟨z, hz⟩ := sub_eq_zero_of_value_eq ha ha rfl
  rw [hz]
  rfl

theorem mul_zero_eq {a : Binary64} (ha : a.isFinite = true) (z : Bool) :
    ∃ y, a * finite z .zero = finite y .zero := by
  obtain ⟨y, hy⟩ := exists_mul_eq_nearest ha (b := finite z .zero) rfl
  exact ⟨y, by rw [hy, value_finite_zero, mul_zero, nearest_zero]⟩

theorem zero_mul_eq (z : Bool) {a : Binary64} (ha : a.isFinite = true) :
    ∃ y, finite z .zero * a = finite y .zero := by
  obtain ⟨y, hy⟩ := exists_mul_eq_nearest (a := finite z .zero) rfl ha
  exact ⟨y, by rw [hy, value_finite_zero, zero_mul, nearest_zero]⟩

theorem zero_div_eq (z : Bool) {a : Binary64} (ha : a.isFinite = true) (h0 : a.value ≠ 0) :
    ∃ y, finite z .zero / a = finite y .zero := by
  obtain ⟨y, hy⟩ := exists_div_eq_nearest (a := finite z .zero) rfl ha h0
  exact ⟨y, by rw [hy, value_finite_zero, zero_div, nearest_zero]⟩

theorem isFinite_abs (a : Binary64) : a.abs.isFinite = a.isFinite := by cases a <;> rfl

theorem value_abs (a : Binary64) : a.abs.value = |a.value| := by
  cases a with
  | nan => exact abs_zero.symm
  | infinite => exact abs_zero.symm
  | finite s m =>
    change (signed false m.units : ℚ) / unitsInOne = |(signed s m.units : ℚ) / unitsInOne|
    rw [abs_div, abs_of_pos cast_unitsInOne_pos]
    cases s <;> simp [signed]

end OutlierBand.Binary64
