import OutlierBand.Binary64.Basic

/-!
Arithmetic of binary64. Each operation forms its exact result as a quotient of whole numbers of units and rounds it
once, to nearest with ties to even; the other branches are the rules for infinities, NaN and signed zeros.
-/

namespace OutlierBand.Binary64

attribute [local instance (high)] instPowNat

def round (negative : Bool) (num den : Nat) : Binary64 :=
  if h : roundUnits num den < unitsInLimit then
    finite negative ⟨roundUnits num den, representable_roundUnits num den, h⟩
  else infinite negative

def roundSigned (zeroSign : Bool) (num : Int) (den : Nat) : Binary64 :=
  if num = 0 then finite zeroSign .zero else round (num < 0) num.natAbs den

def ofNat (n : Nat) : Binary64 := round false (n * unitsInOne) 1

def one : Binary64 := ofNat 1

def two : Binary64 := ofNat 2

def invalid : Binary64 := nan false

def add : Binary64 → Binary64 → Binary64
  | nan _, _ | _, nan _ => invalid
  | infinite s, infinite t => if s = t then infinite s else invalid
  | infinite s, finite .. | finite .., infinite s => infinite s
  | finite s m, finite t n => roundSigned (s && t) (signed s m.units + signed t n.units) 1

def mul : Binary64 → Binary64 → Binary64
  | nan _, _ | _, nan _ => invalid
  | infinite s, infinite t => infinite (s != t)
  | infinite s, finite t m | finite t m, infinite s =>
    if m.units = 0 then invalid else infinite (s != t)
  | finite s m, finite t n => round (s != t) (m.units * n.units) unitsInOne

def div : Binary64 → Binary64 → Binary64
  | nan _, _ | _, nan _ | infinite _, infinite _ => invalid
  | infinite s, finite t _ => infinite (s != t)
  | finite s _, infinite t => finite (s != t) .zero
  | finite s m, finite t n =>
    if n.units = 0 then if m.units = 0 then invalid else infinite (s != t)
    else round (s != t) (m.units * unitsInOne) n.units

instance : Add Binary64 := ⟨add⟩
instance : Sub Binary64 := ⟨fun a b => add a (neg b)⟩
instance : Mul Binary64 := ⟨mul⟩
instance : Div Binary64 := ⟨div⟩

theorem add_def (a b : Binary64) : a + b = add a b := rfl

theorem mul_def (a b : Binary64) : a * b = mul a b := rfl

theorem div_def (a b : Binary64) : a / b = div a b := rfl

def fma : Binary64 → Binary64 → Binary64 → Binary64
  | finite s m, finite t n, finite u k =>
    roundSigned ((s != t) && u)
      (signed (s != t) (m.units * n.units) + signed u (k.units * unitsInOne)) unitsInOne
  | finite .., finite .., z => z
  | x, y, z => mul x y + z

def floorRoot : Nat → Nat → Nat
  | 0, _ => 0
  | bits + 1, n =>
    let r := 2 * floorRoot bits (n / 4)
    if (r + 1) * (r + 1) ≤ n then r + 1 else r

def sqrt : Binary64 → Binary64
  | nan _ => invalid
  | infinite s => if s then invalid else infinite s
  | finite s m =>
    if m.units = 0 then finite s m
    else if s then invalid
    else
      -- The whole part of the root has more bits than the result, so of the rest only whether there is any counts.
      let n := m.units * unitsInOne
      let r := floorRoot (n.log2 / 2 + 1) n
      round false (2 * r + if r * r = n then 0 else 1) 2

theorem roundUnits_units (m : Magnitude) {den : Nat} (hd : 0 < den) :
    roundUnits (m.units * den) den = m.units := roundUnits_of_representable m.representable hd

theorem round_units (s : Bool) (m : Magnitude) {den : Nat} (hd : 0 < den) :
    round s (m.units * den) den = finite s m := by
  simp [round, roundUnits_units m hd, m.bounded]

theorem round_eq_infinite (s : Bool) {num den : Nat} (h : unitsInLimit ≤ num / den) :
    round s num den = infinite s := by
  rw [round, dif_neg]
  unfold unitsInLimit at h ⊢
  generalize 2098 = k at *
  exact Nat.not_lt.2 (two_pow_le_roundUnits h)

theorem round_eq_zero (s : Bool) {num den : Nat} (h : 2 * num < den) : round s num den = finite s .zero := by
  have h0 := roundUnits_eq_zero h
  rw [round, dif_pos (h0 ▸ unitsInLimit_pos)]
  congr 1
  exact Magnitude.ext_units h0

theorem floorRoot_spec {bits n : Nat} (h : n < 4 ^ bits) :
    floorRoot bits n * floorRoot bits n ≤ n ∧ n < (floorRoot bits n + 1) * (floorRoot bits n + 1) := by
  induction bits generalizing n with
  | zero => simp at h; simp [floorRoot, h]
  | succ bits ih =>
    obtain ⟨hl, hu⟩ := ih (n := n / 4) (by rw [Nat.pow_succ] at h; omega)
    simp only [floorRoot]
    generalize floorRoot bits (n / 4) = r at *
    have h4 : 2 * r * (2 * r) = 4 * (r * r) := by grind
    have h5 : (2 * r + 1 + 1) * (2 * r + 1 + 1) = 4 * ((r + 1) * (r + 1)) := by grind
    split
    · exact ⟨by assumption, by omega⟩
    · exact ⟨by omega, by omega⟩

end OutlierBand.Binary64
