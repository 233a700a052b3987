import OutlierBand.Binary64.Rounding

/-!
Numbers of IEEE 754 binary64. A finite number is a sign and a count of units, the unit being the least positive
number `2 ^ (-1074)`; every number has one form, so equality of terms is equality of bit patterns. A NaN keeps its
sign, which the order used for sorting looks at, and nothing else.
Numeric order is read off `place?` and the order used for sorting off `rank`.
-/

namespace OutlierBand

attribute [local instance (high)] instPowNat

namespace Binary64

@[irreducible] def unitsInOne : Nat := 2 ^ 1074

@[irreducible] def unitsInLimit : Nat := 2 ^ 2098

theorem two_pow_le_unitsInLimit {e : Nat} (he : e ≤ 2098) : 2 ^ e ≤ unitsInLimit := by
  unfold unitsInLimit
  generalize 2098 = k at he ⊢
  exact Nat.pow_le_pow_right (by decide) he

theorem log2_lt_of_lt_unitsInLimit {n : Nat} (h0 : n ≠ 0) (h : n < unitsInLimit) : n.log2 < 2098 := by
  unfold unitsInLimit at h
  generalize 2098 = k at h ⊢
  exact (Nat.log2_lt h0).2 h

theorem unitsInLimit_pos : 0 < unitsInLimit :=
  Nat.lt_of_lt_of_le (Nat.two_pow_pos 0) (two_pow_le_unitsInLimit (Nat.zero_le _))

theorem representable_mul_unitsInOne {n : Nat} (hn : n ≤ 2 ^ 53) : Representable (n * unitsInOne) := by
  unfold unitsInOne
  generalize 1074 = k
  exact representable_mul_two_pow hn k

theorem mul_unitsInOne_lt {n : Nat} (hn : n ≤ 2 ^ 53) : n * unitsInOne < unitsInLimit := by
  have hlt (k l : Nat) (h : k + 53 < l) : n * 2 ^ k < 2 ^ l :=
    Nat.lt_of_le_of_lt (Nat.mul_le_mul_right _ hn)
      (by rw [← Nat.pow_add]; exact Nat.pow_lt_pow_right (by decide) (by omega))
  unfold unitsInOne unitsInLimit
  exact hlt 1074 2098 (by decide)

structure Magnitude where
  units : Nat
  representable : Representable units
  bounded : units < unitsInLimit
deriving DecidableEq

namespace Magnitude

theorem ext_units {m n : Magnitude} (h : m.units = n.units) : m = n := by
  cases m; cases n; cases h; rfl

def zero : Magnitude := ⟨0, representable_zero, unitsInLimit_pos⟩

def scaled (k e : Nat) (hk : k < 2 ^ 53) (he : e ≤ 2045) : Magnitude :=
  ⟨k * 2 ^ e, ⟨k, e, hk, rfl⟩, Nat.lt_of_lt_of_le
    (Nat.pow_add 2 53 e ▸ Nat.mul_lt_mul_of_pos_right hk (Nat.two_pow_pos e))
    (two_pow_le_unitsInLimit (by omega))⟩

end Magnitude

end Binary64

open Binary64 in
inductive Binary64 where
  | nan (negative : Bool)
  | infinite (negative : Bool)
  | finite (negative : Bool) (magnitude : Magnitude)
deriving DecidableEq

namespace Binary64

def zero : Binary64 := finite false .zero

def infinity : Binary64 := infinite false

instance : Inhabited Binary64 := ⟨zero⟩

def isNaN : Binary64 → Bool
  | nan _ => true
  | _ => false

def isFinite : Binary64 → Bool
  | finite .. => true
  | _ => false

def signed (negative : Bool) (units : Nat) : Int := if negative then -(units : Int) else units

/-- The place on the number line in units; the infinities lie just beyond the finite numbers. -/
def place? : Binary64 → Option Int
  | nan _ => none
  | infinite s => some (signed s unitsInLimit)
  | finite s m => some (signed s m.units)

def lt (a b : Binary64) : Bool :=
  match a.place?, b.place? with
  | some x, some y => x < y
  | _, _ => false

def le (a b : Binary64) : Bool :=
  match a.place?, b.place? with
  | some x, some y => x ≤ y
  | _, _ => false

def same (a b : Binary64) : Bool :=
  match a.place?, b.place? with
  | some x, some y => x == y
  | _, _ => false

instance : LT Binary64 := ⟨fun a b => a.lt b = true⟩
instance : LE Binary64 := ⟨fun a b => a.le b = true⟩
instance (a b : Binary64) : Decidable (a < b) := inferInstanceAs (Decidable (a.lt b = true))
instance (a b : Binary64) : Decidable (a ≤ b) := inferInstanceAs (Decidable (a.le b = true))

theorem lt_iff {a b : Binary64} : a < b ↔ ∃ x y, a.place? = some x ∧ b.place? = some y ∧ x < y := by
  change a.lt b = true ↔ _
  unfold lt
  cases a.place? <;> cases b.place? <;> simp

theorem le_iff {a b : Binary64} : a ≤ b ↔ ∃ x y, a.place? = some x ∧ b.place? = some y ∧ x ≤ y := by
  change a.le b = true ↔ _
  unfold le
  cases a.place? <;> cases b.place? <;> simp

theorem same_iff {a b : Binary64} :
    a.same b = true ↔ ∃ x, a.place? = some x ∧ b.place? = some x := by
  unfold same
  generalize a.place? = p
  generalize b.place? = q
  rcases p with _ | x <;> rcases q with _ | y <;> simp
  exact ⟨fun h => h.symm, fun h => h.symm⟩

def maxNum (a b : Binary64) : Binary64 := if a.isNaN then b else if a < b then b else a

def neg : Binary64 → Binary64
  | nan s => nan !s
  | infinite s => infinite !s
  | finite s m => finite (!s) m

def abs : Binary64 → Binary64
  | nan _ => nan false
  | infinite _ => infinite false
  | finite _ m => finite false m

instance : Neg Binary64 := ⟨neg⟩

/-- The place in the total order: `-0` comes just before `+0`, a negative NaN first and a positive one last. -/
def rank : Binary64 → Int
  | finite true m => -(m.units : Int) - 1
  | finite false m => m.units
  | infinite true => -(unitsInLimit : Int) - 1
  | infinite false => unitsInLimit
  | nan true => -(unitsInLimit : Int) - 2
  | nan false => unitsInLimit + 1

theorem rank_injective {a b : Binary64} (h : a.rank = b.rank) : a = b := by
  have bound (m : Magnitude) : m.units ≤ unitsInLimit - 1 := by have := m.bounded; omega
  have unique (m n : Magnitude) : m.units = n.units → m = n := Magnitude.ext_units
  have := unitsInLimit_pos
  rcases a with (_ | _) | (_ | _) | ⟨_ | _, m⟩ <;> rcases b with (_ | _) | (_ | _) | ⟨_ | _, n⟩ <;> grind [rank]

end Binary64

end OutlierBand
