import OutlierBand.Proofs.RoundingError
import OutlierBand.Proofs.WrittenNumber
import Mathlib.Data.List.DropRight
import Mathlib.Data.Nat.Factorization.Basic

/-!
No decimal of fewer significant digits than the shortest one denotes the number. What is rounded to a number has no gaps,
so on each grid one of the two multiples next to the number is rounded to it if any multiple is. The search therefore ends
on the coarsest grid that has one, and a decimal of fewer digits would leave room for a multiple of a coarser grid.
-/

namespace OutlierBand

attribute [local instance (high)] instPowNat

open Binary64

namespace Decimal

variable {m : Magnitude}

theorem nearest_eq_of_between (h0 : m.units ≠ 0) {x y z : ℚ} (hx : nearest false x = finite false m)
    (hz : nearest false z = finite false m) (hxy : x ≤ y) (hyz : y ≤ z) : nearest false y = finite false m := by
  have hlow : finite false m ≤ nearest false y := hx ▸ nearest_le_nearest false false hxy
  have hhigh : nearest false y ≤ finite false m := hz ▸ nearest_le_nearest false false hyz
  obtain ⟨s, n, hn⟩ := exists_finite (isFinite_of_le_of_le rfl rfl hlow hhigh)
  rw [hn] at hlow hhigh ⊢
  have hplace := le_antisymm ((le_iff_place_le (place?_finite s n) (place?_finite false m)).1 hhigh)
    ((le_iff_place_le (place?_finite false m) (place?_finite s n)).1 hlow)
  cases s with
  | false =>
    congr 1
    apply Magnitude.ext_units
    simpa [signed] using hplace
  | true =>
    simp only [signed, if_true, Bool.false_eq_true, if_false] at hplace
    omega

theorem readsAs_iff {k : ℕ} {p : ℤ} : readsAs m k p = true ↔ nearest false (k * 10 ^ p) = finite false m := by
  rw [readsAs, decide_eq_true_iff, toBinary64_eq_nearest]
  rfl

theorem readsAs_of_between (h0 : m.units ≠ 0) {i j k : ℕ} {p q r : ℤ} (hi : readsAs m i p = true)
    (hk : readsAs m k r = true) (hij : (i : ℚ) * 10 ^ p ≤ j * 10 ^ q) (hjk : (j : ℚ) * 10 ^ q ≤ k * 10 ^ r) :
    readsAs m j q = true :=
  readsAs_iff.2 (nearest_eq_of_between h0 (readsAs_iff.1 hi) (readsAs_iff.1 hk) hij hjk)

theorem readsAs_mul_pow (k n : ℕ) (p : ℤ) : readsAs m (k * 10 ^ n) p = readsAs m k (n + p) := by
  have hvalue : ((k * 10 ^ n : ℕ) : ℚ) * 10 ^ p = k * 10 ^ (n + p) := by
    rw [zpow_add₀ (by norm_num), zpow_natCast]
    push_cast
    ring
  rw [Bool.eq_iff_iff, readsAs_iff, readsAs_iff, hvalue]

theorem ne_zero_of_readsAs (h0 : m.units ≠ 0) {k : ℕ} {p : ℤ} (h : readsAs m k p = true) : k ≠ 0 := by
  rintro rfl
  rw [readsAs_iff, Nat.cast_zero, zero_mul, nearest_zero] at h
  obtain ⟨-, rfl⟩ := finite.inj h
  exact h0 rfl

theorem toBinary64_eq_finite_iff {s t : Bool} {k : ℕ} {p : ℤ} :
    toBinary64 ⟨t, k, p⟩ = finite s m ↔ t = s ∧ readsAs m k p = true := by
  have hsign (h : toBinary64 ⟨t, k, p⟩ = finite s m) : t = s := by
    unfold toBinary64 Binary64.round at h
    split_ifs at h <;> exact (finite.inj h).1
  constructor
  · intro h
    obtain rfl := hsign h
    refine ⟨rfl, decide_eq_true ?_⟩
    cases t with
    | false => exact h
    | true =>
      rw [← Bool.not_true, toBinary64_not, h]
      rfl
  · rintro ⟨rfl, h⟩
    exact toBinary64_of_readsAs h t

theorem value_between_multiples (m : Magnitude) (p : ℤ) :
    let below := m.units * 10 ^ (-p).toNat / (unitsInOne * 10 ^ p.toNat)
    below * 10 ^ p ≤ (finite false m).value ∧ (finite false m).value < (below + 1 : ℕ) * 10 ^ p := by
  intro below
  have hgrid : (0 : ℚ) < 10 ^ (-p).toNat * unitsInOne := mul_pos (by positivity) cast_unitsInOne_pos
  have hvalue : (finite false m).value * (10 ^ (-p).toNat * unitsInOne) = (m.units * 10 ^ (-p).toNat : ℕ) := by
    rw [mul_left_comm, value_finite_mul, mul_comm]
    push_cast [signed]
    rfl
  have hmultiple (k : ℕ) : (k : ℚ) * 10 ^ p * (10 ^ (-p).toNat * unitsInOne) = (k * (unitsInOne * 10 ^ p.toNat) : ℕ) := by
    rw [← mul_assoc, mul_assoc (k : ℚ), zpow_mul_pow_toNat]
    push_cast
    ring
  constructor
  · rw [← mul_le_mul_iff_of_pos_right hgrid, hvalue, hmultiple, Nat.cast_le]
    exact Nat.div_mul_le_self _ _
  · rw [← mul_lt_mul_iff_of_pos_right hgrid, hvalue, hmultiple, Nat.cast_lt, mul_comm (below + 1)]
    exact Nat.lt_mul_div_succ _ (Nat.mul_pos unitsInOne_pos (Nat.pow_pos (by decide)))

theorem isSome_multiple? (h0 : m.units ≠ 0) {k : ℕ} {p : ℤ} (h : readsAs m k p = true) :
    (multiple? m p).isSome = true := by
  obtain ⟨hlow, hhigh⟩ := value_between_multiples m p
  have hm := nearest_value false m
  have hpow : (0 : ℚ) < 10 ^ p := zpow_pos (by norm_num) p
  simp only [multiple?]
  generalize m.units * 10 ^ (-p).toNat / (unitsInOne * 10 ^ p.toNat) = below at *
  rcases Nat.lt_or_ge below k with hk | hk
  · have hle : ((below + 1 : ℕ) : ℚ) * 10 ^ p ≤ k * 10 ^ p :=
      mul_le_mul_of_nonneg_right (Nat.cast_le.2 hk) hpow.le
    have habove := readsAs_iff.2 (nearest_eq_of_between h0 hm (readsAs_iff.1 h) hhigh.le hle)
    cases hbelow : readsAs m below p <;> simp [habove]
  · have hle : (k : ℚ) * 10 ^ p ≤ below * 10 ^ p := mul_le_mul_of_nonneg_right (Nat.cast_le.2 hk) hpow.le
    have hbelow := readsAs_iff.2 (nearest_eq_of_between h0 (readsAs_iff.1 h) hm hle hlow)
    cases habove : readsAs m (below + 1) p <;> simp [hbelow]

theorem two_zpow_le_ten_zpow {n p : ℤ} (hn : n ≤ 1025) (hp : 3 * n + 21 ≤ 10 * p) : (2 : ℚ) ^ n ≤ 10 ^ p := by
  -- Three tenths are a little less than the logarithm of two, and over the range of binary64 the difference adds up
  -- to less than three tens.
  have hratio : (1024 / 1000 : ℚ) ^ n ≤ 10 ^ 21 :=
    calc (1024 / 1000 : ℚ) ^ n ≤ (1024 / 1000) ^ (1025 : ℤ) := zpow_le_zpow_right₀ (by norm_num) hn
      _ = ((1024 / 1000) ^ 41) ^ 25 := by rw [← pow_mul]; rfl
      _ ≤ 3 ^ 25 := pow_le_pow_left₀ (by norm_num) (by norm_num) 25
      _ ≤ 10 ^ 21 := by norm_num
  rw [← pow_le_pow_iff_left₀ (zpow_pos (by norm_num) n).le (zpow_pos (by norm_num) p).le (by decide : 10 ≠ 0)]
  calc ((2 : ℚ) ^ n) ^ 10 = (2 ^ 10) ^ n := by
        rw [← zpow_natCast, ← zpow_natCast, ← zpow_mul, ← zpow_mul, mul_comm]
    _ = (1024 / 1000) ^ n * (10 ^ 3) ^ n := by rw [← mul_zpow]; norm_num
    _ ≤ 10 ^ 21 * (10 ^ 3) ^ n := mul_le_mul_of_nonneg_right hratio (zpow_pos (by norm_num) n).le
    _ = 10 ^ (3 * n + 21) := by rw [zpow_add₀ (by norm_num), zpow_mul, mul_comm]; rfl
    _ ≤ 10 ^ (10 * p) := zpow_le_zpow_right₀ (by norm_num) hp
    _ = (10 ^ p) ^ 10 := by rw [mul_comm, zpow_mul]; rfl

theorem two_mul_value_lt (m : Magnitude) : 2 * (finite false m).value < 2 ^ (m.units.log2 + 2 - 1074 : ℤ) := by
  have hunits : (m.units : ℚ) < 2 ^ (m.units.log2 + 1) := by exact_mod_cast @Nat.lt_log2_self m.units
  have hexponent : (m.units.log2 + 2 - 1074 : ℤ) = (m.units.log2 + 2 : ℕ) - 1074 := by push_cast; rfl
  rw [← mul_lt_mul_iff_of_pos_right cast_unitsInOne_pos, mul_assoc, value_finite_mul, hexponent, zpow_mul_unitsInOne,
    pow_succ', mul_lt_mul_iff_right₀ two_pos]
  exact hunits

theorem two_mul_halfUnit_le_value (h0 : m.units ≠ 0) : 2 * halfUnit ≤ (finite false m).value := by
  have hunits : (1 : ℚ) ≤ (signed false m.units : ℤ) := by simpa [signed] using Nat.one_le_iff_ne_zero.2 h0
  rw [← mul_le_mul_iff_of_pos_right cast_unitsInOne_pos, value_finite_mul, halfUnit]
  have hu := cast_unitsInOne_pos
  field_simp
  exact hunits

theorem le_coarsest_of_readsAs (h0 : m.units ≠ 0) {k : ℕ} {p : ℤ} (h : readsAs m k p = true) : p ≤ coarsest m := by
  by_contra hp
  have hk : (1 : ℚ) ≤ k := Nat.one_le_cast.2 (Nat.one_le_iff_ne_zero.2 (ne_zero_of_readsAs h0 h))
  have hlog := log2_lt_of_lt_unitsInLimit h0 m.bounded
  have hpow : (2 : ℚ) ^ (m.units.log2 + 2 - 1074 : ℤ) ≤ 10 ^ p := by
    apply two_zpow_le_ten_zpow
    · omega
    · unfold coarsest at hp
      omega
  have hlarge : 2 * (finite false m).value < k * 10 ^ p :=
    (two_mul_value_lt m).trans_le (hpow.trans (le_mul_of_one_le_left (zpow_pos (by norm_num) p).le hk))
  rw [readsAs_iff] at h
  have hfinite : (nearest false (k * 10 ^ p)).isFinite = true := h ▸ rfl
  have herror := abs_value_nearest_sub_le hfinite
  have hleast := two_mul_halfUnit_le_value h0
  have hhalf := halfUnit_pos
  rw [h, abs_sub_comm, abs_of_pos (by linarith), abs_of_pos (by linarith), roundoff] at herror
  linarith

structure IsCoarsest (m : Magnitude) (d : Decimal) : Prop where
  reads : readsAs m d.significand d.exponent = true
  le_exponent : ∀ k p, readsAs m k p = true → p ≤ d.exponent

theorem readsAs_exact (m : Magnitude) : readsAs m (m.units * 5 ^ 1074) (-1074) = true :=
  (toBinary64_eq_finite_iff.1 (toBinary64_exact false m)).2

theorem isCoarsest_shortestBelow (h0 : m.units ≠ 0) (s : Bool) {steps : ℕ}
    (h : ∀ k p, readsAs m k p = true → p ≤ steps - 1074) : IsCoarsest m (shortestBelow s m steps) := by
  induction steps with
  | zero => exact ⟨readsAs_exact m, h⟩
  | succ steps ih =>
    simp only [shortestBelow]
    split
    next k hk => exact ⟨readsAs_of_multiple? hk, h⟩
    next hnone =>
      apply ih
      intro k p hk
      have hp : p ≠ (steps + 1 : ℕ) - 1074 := by
        rintro rfl
        have hsome := isSome_multiple? h0 hk
        rw [hnone] at hsome
        cases hsome
      have hle := h k p hk
      omega

theorem isCoarsest_shortest (h0 : m.units ≠ 0) (s : Bool) : IsCoarsest m (shortest s m) := by
  rw [shortest, if_neg h0]
  apply isCoarsest_shortestBelow h0
  intro k p hk
  have hle := le_coarsest_of_readsAs h0 hk
  omega

theorem IsCoarsest.mod_ten_ne_zero {d : Decimal} (h : IsCoarsest m d) : d.significand % 10 ≠ 0 := by
  intro hmod
  obtain ⟨k, hk⟩ := Nat.dvd_of_mod_eq_zero hmod
  have hreads := h.reads
  rw [hk, Nat.mul_comm, ← Nat.pow_one 10, readsAs_mul_pow] at hreads
  have hle := h.le_exponent k _ hreads
  omega

theorem IsCoarsest.significand_lt (h0 : m.units ≠ 0) {d : Decimal} (h : IsCoarsest m d) {k n : ℕ} {p : ℤ}
    (hk : readsAs m k p = true) (hkn : k < 10 ^ n) : d.significand < 10 ^ n := by
  -- Otherwise the least number with more digits, a power of ten and so on a coarser grid, would lie between the
  -- two.
  by_contra hle
  have hk0 := ne_zero_of_readsAs h0 hk
  have hn : n ≠ 0 := by
    rintro rfl
    omega
  have hpow : (10 : ℚ) ^ p ≤ 10 ^ d.exponent := zpow_le_zpow_right₀ (by norm_num) (h.le_exponent k p hk)
  have hpower : readsAs m (1 * 10 ^ n) d.exponent = true := by
    rw [Nat.one_mul]
    apply readsAs_of_between h0 hk h.reads
    · exact mul_le_mul (Nat.cast_le.2 hkn.le) hpow (zpow_pos (by norm_num) p).le (Nat.cast_nonneg _)
    · exact mul_le_mul_of_nonneg_right (Nat.cast_le.2 (not_lt.1 hle)) (zpow_pos (by norm_num) _).le
  rw [readsAs_mul_pow] at hpower
  have hexponent := h.le_exponent 1 _ hpower
  omega

def significantDigits (d : Decimal) : ℕ := ((Nat.toDigits 10 d.significand).rdropWhile (· == '0')).length

theorem rdropWhile_toDigits_mul_ten (k : ℕ) :
    (Nat.toDigits 10 (10 * k)).rdropWhile (· == '0') = (Nat.toDigits 10 k).rdropWhile (· == '0') := by
  rcases Nat.eq_zero_or_pos k with rfl | hk
  · rfl
  · rw [← Nat.add_zero (10 * k), ← Nat.toDigits_append_toDigits (by decide) hk (by decide)]
    exact List.rdropWhile_concat_pos _ _ _ rfl

theorem rdropWhile_toDigits_mul_ten_pow (k n : ℕ) :
    (Nat.toDigits 10 (k * 10 ^ n)).rdropWhile (· == '0') = (Nat.toDigits 10 k).rdropWhile (· == '0') := by
  induction n with
  | zero => rw [Nat.pow_zero, Nat.mul_one]
  | succ n ih => rw [Nat.pow_succ', Nat.mul_left_comm, rdropWhile_toDigits_mul_ten, ih]

theorem rdropWhile_toDigits {k : ℕ} (h : k % 10 ≠ 0) :
    (Nat.toDigits 10 k).rdropWhile (· == '0') = Nat.toDigits 10 k := by
  have hlast : ¬((k % 10).digitChar == '0') = true := by simpa using h
  rw [Nat.toDigits_eq_if (by decide)]
  split_ifs with hk
  · rw [Nat.mod_eq_of_lt hk] at hlast
    exact List.rdropWhile_concat_neg _ [] _ hlast
  · exact List.rdropWhile_concat_neg _ _ _ hlast

theorem significantDigits_spread (d : Decimal) : d.spread.significantDigits = d.significantDigits := by
  unfold spread
  split_ifs
  · rfl
  · rw [significantDigits, rdropWhile_toDigits_mul_ten_pow, significantDigits]

theorem IsCoarsest.significantDigits_le (h0 : m.units ≠ 0) {d : Decimal} (h : IsCoarsest m d) {k : ℕ} {p : ℤ}
    (hk : readsAs m k p = true) (s : Bool) : d.significantDigits ≤ significantDigits ⟨s, k, p⟩ := by
  obtain ⟨n, l, hl, rfl⟩ := Nat.exists_eq_pow_mul_and_not_dvd (ne_zero_of_readsAs h0 hk) 10 (by decide)
  have hl : l % 10 ≠ 0 := by omega
  rw [Nat.mul_comm] at hk ⊢
  rw [significantDigits, significantDigits, rdropWhile_toDigits_mul_ten_pow, rdropWhile_toDigits hl,
    rdropWhile_toDigits h.mod_ten_ne_zero]
  have hlength : 0 < (Nat.toDigits 10 l).length := List.length_pos_iff.2 Nat.toDigits_ne_nil
  rw [Nat.length_toDigits_le_iff (by decide) hlength]
  rw [readsAs_mul_pow] at hk
  exact h.significand_lt h0 hk ((Nat.length_toDigits_le_iff (by decide) hlength).1 (le_refl _))

theorem significantDigits_shortest_le {s : Bool} {d : Decimal} (h : d.toBinary64 = finite s m) :
    (shortest s m).significantDigits ≤ d.significantDigits := by
  by_cases h0 : m.units = 0
  · have hzero : significantDigits ⟨s, 0, 0⟩ = 0 := by simp [significantDigits, List.rdropWhile]
    rw [shortest, if_pos h0, hzero]
    exact Nat.zero_le _
  · exact (isCoarsest_shortest h0 s).significantDigits_le h0 (toBinary64_eq_finite_iff.1 h).2 d.negative

end Decimal

end OutlierBand
