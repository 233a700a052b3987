import OutlierBand.Decimal.Basic
import OutlierBand.Proofs.ExactValue

namespace OutlierBand.Decimal

open Binary64

def value (d : Decimal) : ℚ := signed d.negative d.significand * 10 ^ d.exponent

theorem den_pos (d : Decimal) : 0 < d.den := Nat.pow_pos (by decide)

theorem zpow_mul_pow_toNat (p : ℤ) : (10 : ℚ) ^ p * 10 ^ (-p).toNat = 10 ^ p.toNat := by
  have hsplit : (p.toNat : ℤ) = p + ((-p).toNat : ℤ) := by omega
  rw [← zpow_natCast, ← zpow_natCast, hsplit, zpow_add₀ (by norm_num)]

theorem value_mul_den (d : Decimal) : d.value * (d.den * unitsInOne) = signed d.negative d.num := by
  have hpow : (10 : ℚ) ^ d.exponent * d.den = 10 ^ d.exponent.toNat := by
    rw [den, Nat.cast_pow, Nat.cast_ofNat, zpow_mul_pow_toNat]
  have hnum : (signed d.negative d.num : ℚ) =
      signed d.negative d.significand * 10 ^ d.exponent.toNat * unitsInOne := by
    cases d.negative <;> simp [signed, num]
  rw [value, hnum, ← hpow]
  ring

theorem toBinary64_eq_nearest (d : Decimal) : d.toBinary64 = nearest d.negative d.value := by
  by_cases h : d.significand = 0
  · have hvalue : d.value = 0 := by simp [value, h, signed]
    rw [hvalue, nearest_zero, toBinary64, if_pos h]
  · rw [toBinary64_eq_round h, round_eq_roundSigned _ _ d.den_pos]
    exact roundSigned_eq_nearest _ _ d.den_pos d.value_mul_den

end OutlierBand.Decimal
