import OutlierBand.Binary64.Rounding
import Mathlib.Tactic.Linarith
import Mathlib.Tactic.Ring

namespace OutlierBand.Binary64

theorem div_le_div_of_mul_le {a b c d : Nat} (hb : 0 < b) (hd : 0 < d) (h : a * d ≤ c * b) : a / b ≤ c / d := by
  rw [Nat.le_div_iff_mul_le hd]
  apply Nat.le_of_mul_le_mul_right _ hb
  calc a / b * d * b = a / b * b * d := by ring
    _ ≤ a * d := Nat.mul_le_mul_right d (Nat.div_mul_le_self a b)
    _ ≤ c * b := h

theorem roundHalfEven_mono {a b c d : Nat} (hb : 0 < b) (hd : 0 < d) (h : a * d ≤ c * b) :
    roundHalfEven a b ≤ roundHalfEven c d := by
  rcases Nat.lt_or_eq_of_le (div_le_div_of_mul_le hb hd h) with hq | hq
  · exact (roundHalfEven_le a b).trans (hq.trans_le (div_le_roundHalfEven c d))
  · -- With equal whole parts the remainders are in the order of the quotients.
    have hr : a % b * d ≤ c % d * b := by
      have ha := Nat.div_add_mod a b
      have hc := Nat.div_add_mod c d
      rw [← ha, ← hc, hq] at h
      linarith [h, mul_right_comm b (c / d) d, mul_comm (b * d) (c / d), mul_right_comm d (c / d) b]
    unfold roundHalfEven
    dsimp only
    rw [hq]
    split_ifs with hx hy hy
    · exact le_refl _
    · exact Nat.le_succ _
    · exfalso
      apply hx
      rcases hy with hy | ⟨hy, he⟩
      · left
        apply Nat.lt_of_mul_lt_mul_right (a := d)
        nlinarith
      · have hle : 2 * (a % b) ≤ b := by
          apply Nat.le_of_mul_le_mul_right _ hd
          nlinarith
        omega
    · exact le_refl _

theorem spareBits_eq_or_two_pow_between {m n : Nat} (h : m ≤ n) :
    spareBits m = spareBits n ∨ ∃ k, m < 2 ^ k ∧ 2 ^ k ≤ n := by
  by_cases hn : n = 0
  · left
    have hm : m = 0 := by omega
    rw [hm, hn]
  · by_cases hm : m < 2 ^ n.log2
    · exact .inr ⟨n.log2, hm, Nat.log2_self_le hn⟩
    · left
      have hm0 : m ≠ 0 := by have := Nat.two_pow_pos n.log2; omega
      have hl : m.log2 = n.log2 := (Nat.log2_eq_iff hm0).2 ⟨by omega, h.trans_lt Nat.lt_log2_self⟩
      rw [spareBits, spareBits, hl]

theorem roundUnits_le_two_pow {k num den : Nat} (h : num / den < 2 ^ k) : roundUnits num den ≤ 2 ^ k := by
  unfold roundUnits
  have hg : spareBits (num / den) ≤ k := by
    by_cases h0 : num / den = 0
    · simp [h0, spareBits]
    · have hl := (Nat.log2_lt h0).2 h
      unfold spareBits
      omega
  generalize spareBits (num / den) = g at *
  have hk : 2 ^ k = 2 ^ (k - g) * 2 ^ g := by rw [← Nat.pow_add, Nat.sub_add_cancel hg]
  have hq : num / (den * 2 ^ g) < 2 ^ (k - g) := by
    rw [← Nat.div_div_eq_div_mul, Nat.div_lt_iff_lt_mul (Nat.two_pow_pos g), ← hk]
    exact h
  rw [hk]
  exact Nat.mul_le_mul_right _ ((roundHalfEven_le _ _).trans hq)

theorem roundUnits_mono {a b c d : Nat} (hb : 0 < b) (hd : 0 < d) (h : a * d ≤ c * b) :
    roundUnits a b ≤ roundUnits c d := by
  rcases spareBits_eq_or_two_pow_between (div_le_div_of_mul_le hb hd h) with hs | ⟨k, ha, hc⟩
  · unfold roundUnits
    dsimp only
    rw [hs]
    generalize 2 ^ spareBits (c / d) = grain, Nat.two_pow_pos (spareBits (c / d)) = hg
    apply Nat.mul_le_mul_right
    apply roundHalfEven_mono (Nat.mul_pos hb hg) (Nat.mul_pos hd hg)
    calc a * (d * grain) = a * d * grain := by ring
      _ ≤ c * b * grain := Nat.mul_le_mul_right _ h
      _ = c * (b * grain) := by ring
  · exact (roundUnits_le_two_pow ha).trans (two_pow_le_roundUnits hc)

theorem roundUnits_congr {a b c d : Nat} (hb : 0 < b) (hd : 0 < d) (h : a * d = c * b) :
    roundUnits a b = roundUnits c d :=
  Nat.le_antisymm (roundUnits_mono hb hd h.le) (roundUnits_mono hd hb h.ge)

theorem roundUnits_le {n num den : Nat} (hd : 0 < den) (hn : Representable n) (h : num ≤ n * den) :
    roundUnits num den ≤ n := by
  rw [← roundUnits_of_representable hn hd]
  exact roundUnits_mono hd hd (Nat.mul_le_mul_right den h)

theorem roundUnits_two_mul {num den : Nat} (hd : 0 < den) (h : 2 ^ 52 ≤ num / den) :
    roundUnits (2 * num) den = 2 * roundUnits num den := by
  have hne : num / den ≠ 0 := by
    have := Nat.two_pow_pos 52
    omega
  have hhalf : 2 * num / den / 2 = num / den := by
    rw [Nat.div_div_eq_div_mul, Nat.mul_comm den, Nat.mul_div_mul_left _ _ two_pos]
  have hlog : (2 * num / den).log2 = (num / den).log2 + 1 := by
    rw [Nat.log2_def, if_pos (by omega), hhalf]
  have hgrain : spareBits (2 * num / den) = spareBits (num / den) + 1 := by
    have := (Nat.le_log2 hne).2 h
    unfold spareBits
    omega
  unfold roundUnits
  rw [hgrain]
  generalize spareBits (num / den) = g
  have hpos : 0 < den * 2 ^ g := Nat.mul_pos hd (Nat.two_pow_pos g)
  have hpos' : 0 < den * 2 ^ (g + 1) := Nat.mul_pos hd (Nat.two_pow_pos (g + 1))
  have hratio : 2 * num * (den * 2 ^ g) = num * (den * 2 ^ (g + 1)) := by ring
  have hround : roundHalfEven (2 * num) (den * 2 ^ (g + 1)) = roundHalfEven num (den * 2 ^ g) :=
    Nat.le_antisymm (roundHalfEven_mono hpos' hpos hratio.le) (roundHalfEven_mono hpos hpos' hratio.ge)
  dsimp only
  rw [hround]
  ring

theorem roundUnits_pos_iff {num den : Nat} (hd : 0 < den) : 0 < roundUnits num den ↔ den < 2 * num := by
  rcases Nat.lt_or_ge num den with h | h
  · have hq : num / den = 0 := Nat.div_eq_of_lt h
    have hr : num % den = num := Nat.mod_eq_of_lt h
    have hg : spareBits 0 = 0 := rfl
    simp only [roundUnits, roundHalfEven, hq, hg, Nat.pow_zero, Nat.mul_one, hr, Nat.zero_mod, and_true]
    split_ifs <;> omega
  · have hq : 2 ^ 0 ≤ num / den := (Nat.one_le_div_iff hd).2 h
    have := two_pow_le_roundUnits hq
    omega

theorem two_mul_le_roundHalfEven (a : Nat) {d : Nat} (hd : 0 < d) : 2 * a ≤ (2 * roundHalfEven a d + 1) * d := by
  have ha := Nat.div_add_mod a d
  have hr := Nat.mod_lt a hd
  unfold roundHalfEven
  dsimp only
  split_ifs with h
  · have h2 : 2 * (a % d) ≤ d := by omega
    nlinarith
  · nlinarith

theorem roundHalfEven_mul_le (a d : Nat) : 2 * roundHalfEven a d * d ≤ 2 * a + d := by
  have ha := Nat.div_add_mod a d
  unfold roundHalfEven
  dsimp only
  split_ifs with h
  · nlinarith [Nat.zero_le (a % d), Nat.zero_le d]
  · have h2 : d ≤ 2 * (a % d) := by omega
    nlinarith

theorem roundUnits_near (num : Nat) {den : Nat} (hd : 0 < den) :
    ∃ grain, 2 * num ≤ 2 * roundUnits num den * den + den * grain ∧
      2 * roundUnits num den * den ≤ 2 * num + den * grain ∧ (grain = 1 ∨ 2 ^ 52 * (den * grain) ≤ num) := by
  refine ⟨2 ^ spareBits (num / den), ?_, ?_, ?_⟩
  · have h := two_mul_le_roundHalfEven num (Nat.mul_pos hd (Nat.two_pow_pos (spareBits (num / den))))
    unfold roundUnits
    dsimp only
    linarith
  · have h := roundHalfEven_mul_le num (den * 2 ^ spareBits (num / den))
    unfold roundUnits
    dsimp only
    linarith
  · rcases Nat.lt_or_ge (num / den).log2 53 with hl | hl
    · left
      have hg : spareBits (num / den) = 0 := by unfold spareBits; omega
      rw [hg, Nat.pow_zero]
    · right
      have h0 : num / den ≠ 0 := by
        intro h0
        rw [h0] at hl
        exact absurd hl (by decide)
      have hsplit : 2 ^ 52 * 2 ^ spareBits (num / den) = 2 ^ (num / den).log2 := by
        rw [← Nat.pow_add]
        congr 1
        unfold spareBits
        omega
      calc 2 ^ 52 * (den * 2 ^ spareBits (num / den)) = 2 ^ (num / den).log2 * den := by rw [← hsplit]; ring
        _ ≤ num / den * den := Nat.mul_le_mul_right _ (Nat.log2_self_le h0)
        _ ≤ num := Nat.div_mul_le_self num den

theorem lt_mul_sub_of_lt {m n : Nat} (hm : Representable m) (hn : Representable n) (h : n < m) :
    n < 2 ^ 53 * (m - n) := by
  obtain ⟨k, e, hk, rfl⟩ := hm
  obtain ⟨l, f, hl, rfl⟩ := hn
  have spaced (g : Nat) (he : g ≤ e) (hf : g ≤ f) : 2 ^ g ≤ k * 2 ^ e - l * 2 ^ f := by
    apply Nat.le_of_dvd (by omega)
    exact Nat.dvd_sub (Nat.dvd_mul_left_of_dvd (Nat.pow_dvd_pow 2 he) k)
      (Nat.dvd_mul_left_of_dvd (Nat.pow_dvd_pow 2 hf) l)
  rcases Nat.le_total e f with hef | hef
  · calc l * 2 ^ f < k * 2 ^ e := h
      _ ≤ 2 ^ 53 * 2 ^ e := Nat.mul_le_mul_right _ hk.le
      _ ≤ _ := Nat.mul_le_mul_left _ (spaced e (le_refl e) hef)
  · calc l * 2 ^ f < 2 ^ 53 * 2 ^ f := Nat.mul_lt_mul_of_pos_right hl (Nat.two_pow_pos f)
      _ ≤ _ := Nat.mul_le_mul_left _ (spaced f hef (le_refl f))

theorem two_pow_lt_roundUnits {m n j : Nat} (hm : Representable m) (hn : Representable n) (h0 : 0 < n) (h : n < m)
    (hj : 52 ≤ j) : 2 ^ j < roundUnits (m * 2 ^ j) n := by
  have hq : 2 ^ j ≤ m * 2 ^ j / n := by
    rw [Nat.le_div_iff_mul_le h0, Nat.mul_comm]
    exact Nat.mul_le_mul_right _ h.le
  rcases Nat.lt_or_ge (m * 2 ^ j / n) (2 ^ (j + 1)) with hlt | hge
  · have hl : (m * 2 ^ j / n).log2 = j := (Nat.log2_eq_iff (by have := Nat.two_pow_pos j; omega)).2 ⟨hq, hlt⟩
    obtain ⟨g, rfl⟩ := Nat.exists_eq_add_of_le hj
    unfold roundUnits spareBits
    rw [hl, Nat.add_sub_cancel_left]
    dsimp only
    have hs := lt_mul_sub_of_lt hm hn h
    have hg := Nat.two_pow_pos g
    have hr := two_mul_le_roundHalfEven (m * 2 ^ (52 + g)) (Nat.mul_pos h0 hg)
    generalize roundHalfEven (m * 2 ^ (52 + g)) (n * 2 ^ g) = r at hr ⊢
    rw [Nat.pow_add] at hr ⊢
    apply Nat.mul_lt_mul_of_pos_right _ hg
    by_contra hle
    have hle : r ≤ 2 ^ 52 := by omega
    have hr' : 2 * (m * 2 ^ 52) ≤ (2 * r + 1) * n := by
      apply Nat.le_of_mul_le_mul_right _ hg
      calc 2 * (m * 2 ^ 52) * 2 ^ g = 2 * (m * (2 ^ 52 * 2 ^ g)) := by ring
        _ ≤ (2 * r + 1) * (n * 2 ^ g) := hr
        _ = (2 * r + 1) * n * 2 ^ g := by ring
    have hr2 : (2 * r + 1) * n ≤ (2 * 2 ^ 52 + 1) * n := Nat.mul_le_mul_right n (by omega)
    omega
  · exact (Nat.pow_lt_pow_right (by decide) (Nat.lt_succ_self j)).trans_le (two_pow_le_roundUnits hge)

end OutlierBand.Binary64
