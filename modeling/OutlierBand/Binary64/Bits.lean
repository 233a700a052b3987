import OutlierBand.Binary64.Basic

namespace OutlierBand.Binary64

attribute [local instance (high)] instPowNat

def ofFields (negative : Bool) (exponent fraction : Nat) : Binary64 :=
  if h : exponent < 2047 ∧ fraction < 2 ^ 52 then
    if exponent = 0 then finite negative (.scaled fraction 0 (by omega) (by omega))
    else finite negative (.scaled (2 ^ 52 + fraction) (exponent - 1) (by omega) (by omega))
  else if fraction = 0 then infinite negative else nan negative

/-- The bits below the sign: the exponent counts how far the significand is shifted, and its leading bit carries
into the exponent field. -/
def Magnitude.word (m : Magnitude) : Nat :=
  m.units / 2 ^ spareBits m.units + spareBits m.units * 2 ^ 52

def signWord (negative : Bool) : Nat := if negative then 2 ^ 63 else 0

def toWord : Binary64 → Nat
  | nan s => signWord s + 2047 * 2 ^ 52 + 2 ^ 51
  | infinite s => signWord s + 2047 * 2 ^ 52
  | finite s m => signWord s + m.word

def ofWord (w : Nat) : Binary64 := ofFields (decide (2 ^ 63 ≤ w)) (w / 2 ^ 52 % 2 ^ 11) (w % 2 ^ 52)

def toBits (x : Binary64) : UInt64 := .ofNat x.toWord

def ofBits (w : UInt64) : Binary64 := ofWord w.toNat

theorem ofFields_nan (s : Bool) {f : Nat} (hf : f ≠ 0) : ofFields s 2047 f = nan s := by simp [ofFields, hf]

theorem ofFields_infinite (s : Bool) : ofFields s 2047 0 = infinite s := by simp [ofFields]

theorem spareBits_eq_zero {n : Nat} (h : n < 2 ^ 53) : spareBits n = 0 := by
  have := spareBits_le h 0
  simpa using this

theorem two_pow_le_div_spareBits {n : Nat} (h : 2 ^ 52 ≤ n) : 2 ^ 52 ≤ n / 2 ^ spareBits n := by
  have h0 : n ≠ 0 := by omega
  have hl : 52 ≤ n.log2 := (Nat.le_log2 h0).2 h
  rw [Nat.le_div_iff_mul_le (Nat.two_pow_pos _), ← Nat.pow_add]
  exact Nat.le_trans (Nat.pow_le_pow_right (by decide) (by unfold spareBits; omega)) (Nat.log2_self_le h0)

theorem div_spareBits_lt (n : Nat) : n / 2 ^ spareBits n < 2 ^ 53 :=
  Nat.div_lt_of_lt_mul (by rw [Nat.mul_comm]; exact lt_two_pow_spareBits n)

theorem Magnitude.div_mul_spareBits (m : Magnitude) :
    m.units / 2 ^ spareBits m.units * 2 ^ spareBits m.units = m.units := by
  obtain ⟨k, e, hk, h⟩ := m.representable
  refine Nat.div_mul_cancel ?_
  rw [h]
  exact Nat.dvd_mul_left_of_dvd (Nat.pow_dvd_pow 2 (spareBits_le hk e)) k

theorem Magnitude.spareBits_units_le (m : Magnitude) : spareBits m.units ≤ 2045 := by
  by_cases h0 : m.units = 0
  · simp [h0, spareBits]
  · have h := log2_lt_of_lt_unitsInLimit h0 m.bounded
    unfold spareBits; omega

theorem ofWord_word (s : Bool) (m : Magnitude) : ofWord (signWord s + m.word) = finite s m := by
  have hd := m.div_mul_spareBits
  have hu := div_spareBits_lt m.units
  have hs := m.spareBits_units_le
  have hb (m' : Magnitude) (h : m'.units = m.units) : finite s m' = finite s m := by rw [Magnitude.ext_units h]
  unfold ofWord Magnitude.word
  by_cases hsub : m.units < 2 ^ 52
  · have h0 : spareBits m.units = 0 := spareBits_eq_zero (by omega)
    have hsign : decide (2 ^ 63 ≤ signWord s + m.units) = s := by cases s <;> simp [signWord]; omega
    have hexp : (signWord s + m.units) / 2 ^ 52 % 2 ^ 11 = 0 := by cases s <;> simp [signWord] <;> omega
    have hfrac : (signWord s + m.units) % 2 ^ 52 = m.units := by cases s <;> simp [signWord] <;> omega
    simp only [h0, Nat.pow_zero, Nat.div_one, Nat.zero_mul, Nat.add_zero, hsign, hexp, hfrac]
    rw [ofFields, dif_pos ⟨by decide, hsub⟩, if_pos rfl]
    exact hb _ (by simp [Magnitude.scaled])
  · have hl := two_pow_le_div_spareBits (n := m.units) (by omega)
    generalize hg : spareBits m.units = g at *
    generalize hk : m.units / 2 ^ g = k at *
    have hsign : decide (2 ^ 63 ≤ signWord s + (k + g * 2 ^ 52)) = s := by cases s <;> simp [signWord]; omega
    have hexp : (signWord s + (k + g * 2 ^ 52)) / 2 ^ 52 % 2 ^ 11 = g + 1 := by
      cases s <;> simp [signWord] <;> omega
    have hfrac : (signWord s + (k + g * 2 ^ 52)) % 2 ^ 52 = k - 2 ^ 52 := by cases s <;> simp [signWord] <;> omega
    rw [hsign, hexp, hfrac, ofFields, dif_pos ⟨by omega, by omega⟩, if_neg (by omega)]
    refine hb _ ?_
    simp only [Magnitude.scaled, Nat.add_sub_cancel]
    rw [Nat.add_sub_cancel' hl]
    exact hd

theorem ofWord_toWord (x : Binary64) : ofWord x.toWord = x := by
  cases x with
  | nan s => cases s <;> exact ofFields_nan _ (by decide)
  | infinite s => cases s <;> exact ofFields_infinite _
  | finite s m => exact ofWord_word s m

theorem Magnitude.word_lt (m : Magnitude) : m.word < 2 ^ 63 := by
  have hu := div_spareBits_lt m.units
  have hs := m.spareBits_units_le
  unfold Magnitude.word; omega

theorem toWord_lt (x : Binary64) : x.toWord < 2 ^ 64 := by
  cases x with
  | nan s => cases s <;> decide
  | infinite s => cases s <;> decide
  | finite s m => have := m.word_lt; cases s <;> simp [toWord, signWord] <;> omega

theorem ofBits_toBits (x : Binary64) : ofBits x.toBits = x := by
  rw [ofBits, toBits, UInt64.toNat_ofNat_of_lt' x.toWord_lt, ofWord_toWord]

end OutlierBand.Binary64
