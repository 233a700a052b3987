namespace OutlierBand.Binary64

-- Powers are core's, also where a library with powers of its own is in scope.
attribute [local instance (high)] instPowNat
attribute [default_instance (high + 1)] instPowNat

def roundHalfEven (num den : Nat) : Nat :=
  let q := num / den
  let r := num % den
  if 2 * r < den ∨ 2 * r = den ∧ q % 2 = 0 then q else q + 1

def spareBits (n : Nat) : Nat := n.log2 - 52

/-- The number of at most 53 significant bits nearest to `num / den`, in whole units; ties go to the even one. -/
def roundUnits (num den : Nat) : Nat :=
  let grain := 2 ^ spareBits (num / den)
  roundHalfEven num (den * grain) * grain

def Representable (n : Nat) : Prop := ∃ k e, k < 2 ^ 53 ∧ n = k * 2 ^ e

theorem div_le_roundHalfEven (num den : Nat) : num / den ≤ roundHalfEven num den := by
  unfold roundHalfEven; grind

theorem roundHalfEven_le (num den : Nat) : roundHalfEven num den ≤ num / den + 1 := by
  unfold roundHalfEven; grind

theorem roundHalfEven_mul {den : Nat} (hd : 0 < den) (n : Nat) : roundHalfEven (n * den) den = n := by
  simp [roundHalfEven, Nat.mul_div_cancel n hd, hd]

theorem lt_two_pow_spareBits (n : Nat) : n < 2 ^ 53 * 2 ^ spareBits n := by
  rw [← Nat.pow_add]
  exact Nat.lt_of_lt_of_le Nat.lt_log2_self (Nat.pow_le_pow_right (by decide) (by unfold spareBits; omega))

theorem representable_mul_two_pow {k : Nat} (hk : k ≤ 2 ^ 53) (e : Nat) : Representable (k * 2 ^ e) := by
  rcases Nat.lt_or_eq_of_le hk with hk | rfl
  · exact ⟨k, e, hk, rfl⟩
  · exact ⟨2 ^ 52, e + 1, by decide, by rw [← Nat.pow_add, ← Nat.pow_add]; congr 1; omega⟩

theorem representable_zero : Representable 0 := ⟨0, 0, by decide, rfl⟩

theorem spareBits_le {k : Nat} (hk : k < 2 ^ 53) (e : Nat) : spareBits (k * 2 ^ e) ≤ e := by
  unfold spareBits
  by_cases h0 : k * 2 ^ e = 0
  · simp [h0]
  · have h : (k * 2 ^ e).log2 < 53 + e := by
      rw [Nat.log2_lt h0, Nat.pow_add]
      exact Nat.mul_lt_mul_of_pos_right hk (Nat.two_pow_pos e)
    omega

theorem representable_roundUnits (num den : Nat) : Representable (roundUnits num den) := by
  have h := roundHalfEven_le num (den * 2 ^ spareBits (num / den))
  have hq : num / (den * 2 ^ spareBits (num / den)) < 2 ^ 53 := by
    rw [← Nat.div_div_eq_div_mul]
    exact Nat.div_lt_of_lt_mul (by rw [Nat.mul_comm]; exact lt_two_pow_spareBits _)
  exact representable_mul_two_pow (by omega) _

theorem two_pow_le_roundUnits {k num den : Nat} (h : 2 ^ k ≤ num / den) : 2 ^ k ≤ roundUnits num den := by
  have h0 : num / den ≠ 0 := by have := Nat.two_pow_pos k; omega
  have hk : k ≤ (num / den).log2 := (Nat.le_log2 h0).2 h
  have hl := Nat.log2_self_le h0
  unfold roundUnits spareBits
  generalize (num / den).log2 = l at *
  have hq : 2 ^ (l - (l - 52)) ≤ num / (den * 2 ^ (l - 52)) := by
    rw [← Nat.div_div_eq_div_mul, Nat.le_div_iff_mul_le (Nat.two_pow_pos _), ← Nat.pow_add]
    exact Nat.le_trans (Nat.pow_le_pow_right (by decide) (by omega)) hl
  calc 2 ^ k ≤ 2 ^ (l - (l - 52)) * 2 ^ (l - 52) := by
        rw [← Nat.pow_add]; exact Nat.pow_le_pow_right (by decide) (by omega)
    _ ≤ _ := Nat.mul_le_mul_right _ (Nat.le_trans hq (div_le_roundHalfEven _ _))

theorem roundUnits_eq_zero {num den : Nat} (h : 2 * num < den) : roundUnits num den = 0 := by
  have hd : num / den = 0 := Nat.div_eq_of_lt (by omega)
  have hm : num % den = num := Nat.mod_eq_of_lt (by omega)
  simp [roundUnits, roundHalfEven, spareBits, hd, hm, h]

theorem roundUnits_of_representable {n den : Nat} (hn : Representable n) (hd : 0 < den) :
    roundUnits (n * den) den = n := by
  obtain ⟨k, e, hk, rfl⟩ := hn
  have hs := spareBits_le hk e
  unfold roundUnits
  rw [Nat.mul_div_cancel _ hd]
  generalize spareBits (k * 2 ^ e) = g at *
  have hg : 0 < 2 ^ g := Nat.two_pow_pos g
  have hsplit : k * 2 ^ e = k * 2 ^ (e - g) * 2 ^ g := by
    rw [Nat.mul_assoc, ← Nat.pow_add, Nat.sub_add_cancel hs]
  have hnum : k * 2 ^ e * den = k * 2 ^ (e - g) * (den * 2 ^ g) := by
    rw [hsplit, Nat.mul_assoc, Nat.mul_comm (2 ^ g)]
  simp only [hnum, roundHalfEven_mul (Nat.mul_pos hd hg)]
  exact hsplit.symm

end OutlierBand.Binary64
