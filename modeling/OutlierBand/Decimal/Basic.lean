import OutlierBand.Binary64.Arithmetic

namespace OutlierBand

attribute [local instance (high)] instPowNat

/-- The number `±significand * 10 ^ exponent`, not reduced: `1.50` has the significand `150`. -/
structure Decimal where
  negative : Bool
  significand : Nat
  exponent : Int
deriving DecidableEq

namespace Decimal

def num (d : Decimal) : Nat := d.significand * 10 ^ d.exponent.toNat * Binary64.unitsInOne

def den (d : Decimal) : Nat := 10 ^ (-d.exponent).toNat

/-- The nearest binary64 number. From `10 ^ 310` on it is infinite; below `2 ^ (-1075)`, half the least positive
number, it is zero. -/
def toBinary64 (d : Decimal) : Binary64 :=
  if d.significand = 0 then .finite d.negative .zero
  else if 310 ≤ d.exponent then .infinite d.negative
  else if d.significand.log2 + 1 + 3 * d.exponent < -1075 then .finite d.negative .zero
  else .round d.negative d.num d.den

theorem toBinary64_large (s : Bool) {k : Nat} (hk : k ≠ 0) {e : Int} (he : 310 ≤ e) :
    Binary64.round s (num ⟨s, k, e⟩) (den ⟨s, k, e⟩) = .infinite s := by
  have hn : (-e).toNat = 0 := by omega
  apply Binary64.round_eq_infinite
  simp only [num, den, hn, Nat.pow_zero, Nat.div_one]
  calc Binary64.unitsInLimit ≤ 10 ^ 310 * Binary64.unitsInOne := by decide +kernel
    _ ≤ 10 ^ e.toNat * Binary64.unitsInOne :=
        Nat.mul_le_mul_right _ (Nat.pow_le_pow_right (by decide) (by omega))
    _ ≤ k * 10 ^ e.toNat * Binary64.unitsInOne := by
        rw [Nat.mul_assoc]; exact Nat.le_mul_of_pos_left _ (Nat.pos_of_ne_zero hk)

theorem toBinary64_small (s : Bool) {k : Nat} {e : Int} (he : k.log2 + 1 + 3 * e < -1075) :
    Binary64.round s (num ⟨s, k, e⟩) (den ⟨s, k, e⟩) = .finite s .zero := by
  have hp : e.toNat = 0 := by omega
  apply Binary64.round_eq_zero
  simp only [num, den, hp, Nat.pow_zero, Nat.mul_one]
  unfold Binary64.unitsInOne
  generalize hj : (-e).toNat = j
  have hk : k < 2 ^ (k.log2 + 1) := Nat.lt_log2_self
  have h8 : 2 ^ (3 * j) ≤ 10 ^ j := by rw [Nat.pow_mul]; exact Nat.pow_le_pow_left (by decide) j
  have hlt (n : Nat) : 2 * (k * 2 ^ n) < 2 ^ (k.log2 + 1 + (n + 1)) := by
    rw [Nat.pow_add, Nat.mul_left_comm, ← Nat.pow_succ']
    exact Nat.mul_lt_mul_of_pos_right hk (Nat.two_pow_pos _)
  exact Nat.lt_of_lt_of_le (hlt 1074) (Nat.le_trans (Nat.pow_le_pow_right (by decide) (by omega)) h8)

theorem toBinary64_eq_round {d : Decimal} (h : d.significand ≠ 0) :
    d.toBinary64 = .round d.negative d.num d.den := by
  unfold toBinary64
  rw [if_neg h]
  split
  · exact (toBinary64_large d.negative h (by assumption)).symm
  · split
    · exact (toBinary64_small d.negative (by assumption)).symm
    · rfl

end Decimal

end OutlierBand
