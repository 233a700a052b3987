import OutlierBand.Proofs.DecimalValue
import OutlierBand.Proofs.NumberGrammar

namespace OutlierBand

attribute [local instance (high)] instPowNat

open Binary64

theorem Binary64.round_not (s : Bool) (num den : Nat) : round (!s) num den = -round s num den := by
  unfold round
  split_ifs <;> rfl

namespace Decimal

theorem toBinary64_not (s : Bool) (k : Nat) (e : Int) : toBinary64 ⟨!s, k, e⟩ = -toBinary64 ⟨s, k, e⟩ := by
  unfold toBinary64
  split_ifs
  · rfl
  · rfl
  · rfl
  · exact round_not s _ _

theorem toBinary64_of_readsAs {m : Magnitude} {k : Nat} {p : Int} (h : readsAs m k p = true) (s : Bool) :
    toBinary64 ⟨s, k, p⟩ = .finite s m := by
  have hpositive : toBinary64 ⟨false, k, p⟩ = .finite false m := of_decide_eq_true h
  cases s with
  | false => exact hpositive
  | true =>
    rw [← Bool.not_false, toBinary64_not, hpositive]
    rfl

theorem readsAs_of_multiple? {m : Magnitude} {k : Nat} {p : Int} (h : multiple? m p = some k) :
    readsAs m k p = true := by
  simp only [multiple?] at h
  split at h
  next hbelow habove =>
    cases h
    split
    · exact hbelow
    · exact habove
  next hbelow _ =>
    cases h
    exact hbelow
  next habove =>
    cases h
    exact habove
  next => cases h

theorem value_mul_five_pow (s : Bool) (k n : Nat) : value ⟨s, k * 5 ^ n, -(n : Int)⟩ = signed s k / (2 ^ n : Nat) := by
  have hsigned : (signed s (k * 5 ^ n) : ℚ) = signed s k * 5 ^ n := by cases s <;> simp [signed]
  have hten : (10 : ℚ) ^ n = 2 ^ n * 5 ^ n := by rw [← mul_pow]; norm_num
  rw [value, hsigned, zpow_neg, zpow_natCast, hten, Nat.cast_pow, Nat.cast_ofNat]
  field_simp

theorem toBinary64_exact (s : Bool) (m : Magnitude) : toBinary64 ⟨s, m.units * 5 ^ 1074, -1074⟩ = .finite s m := by
  have hvalue (n : Nat) (hn : n = 1074) : value ⟨s, m.units * 5 ^ n, -(n : Int)⟩ = (finite s m).value := by
    have hunits : unitsInOne = 2 ^ n := by
      unfold unitsInOne
      rw [← hn]
    rw [value_mul_five_pow, Binary64.value, hunits]
  have h := hvalue 1074 rfl
  rw [Nat.cast_ofNat] at h
  rw [toBinary64_eq_nearest, h]
  exact nearest_value s m

theorem toBinary64_shortestBelow (s : Bool) (m : Magnitude) (steps : Nat) :
    (shortestBelow s m steps).toBinary64 = .finite s m := by
  induction steps with
  | zero => exact toBinary64_exact s m
  | succ steps ih =>
    simp only [shortestBelow]
    split
    next k hk => exact toBinary64_of_readsAs (readsAs_of_multiple? hk) s
    next => exact ih

theorem toBinary64_shortest (s : Bool) (m : Magnitude) : (shortest s m).toBinary64 = .finite s m := by
  unfold shortest
  split_ifs with h
  · have hzero : m = .zero := Magnitude.ext_units h
    rw [hzero]
    rfl
  · exact toBinary64_shortestBelow s m _

def spread (d : Decimal) : Decimal :=
  if d.exponent < 0 then d else ⟨d.negative, d.significand * 10 ^ d.exponent.toNat, 0⟩

theorem value_spread (d : Decimal) : d.spread.value = d.value := by
  unfold spread
  split_ifs with h
  · rfl
  · have hpow : (10 : ℚ) ^ d.exponent = 10 ^ d.exponent.toNat := by
      rw [← zpow_natCast, Int.toNat_of_nonneg (Int.not_lt.1 h)]
    simp only [value, hpow]
    cases d.negative <;> simp [signed]

theorem toBinary64_spread (d : Decimal) : d.spread.toBinary64 = d.toBinary64 := by
  have hsign : d.spread.negative = d.negative := by
    unfold spread
    split_ifs <;> rfl
  rw [toBinary64_eq_nearest, toBinary64_eq_nearest, value_spread, hsign]

theorem isDigits_toDigits (n : Nat) : IsDigits (Nat.toDigits 10 n) :=
  ⟨Nat.toDigits_ne_nil, fun _ => Nat.isDigit_of_mem_toDigits (by decide) (by decide)⟩

theorem toDigits_of_head_zero {n : Nat} (h : (Nat.toDigits 10 n).head? = some '0') : Nat.toDigits 10 n = ['0'] := by
  induction n using Nat.base_induction 10 (by decide) with
  | single n hn =>
    rw [Nat.toDigits_of_lt_base hn] at h ⊢
    exact congrArg (fun c => [c]) (Option.some.inj h)
  | digit n k hk hn ih =>
    rw [← Nat.toDigits_append_toDigits (by decide) hn hk, List.head?_append_of_ne_nil _ Nat.toDigits_ne_nil] at h
    have hzero := congrArg (Nat.ofDigitChars 10 · 0) (ih h)
    simp only [Nat.ofDigitChars_ten_toDigits] at hzero
    exact absurd hzero hn.ne'

def padded (n places : Nat) : List Char :=
  List.replicate (places + 1 - (Nat.toDigits 10 n).length) '0' ++ Nat.toDigits 10 n

section

variable {n places : Nat}

theorem length_padded (n places : Nat) : (padded n places).length = max (places + 1) (Nat.toDigits 10 n).length := by
  rw [padded, List.length_append, List.length_replicate]
  omega

theorem isDigit_of_mem_padded : ∀ c ∈ padded n places, c.isDigit = true := by
  rw [padded, List.forall_mem_append]
  refine ⟨fun c hc => ?_, (isDigits_toDigits n).isDigit⟩
  rw [List.eq_of_mem_replicate hc]
  rfl

theorem ofDigitChars_padded : Nat.ofDigitChars 10 (padded n places) 0 = n := by
  rw [padded, Nat.ofDigitChars_append, Nat.ofDigitChars_replicate_zero, Nat.mul_zero, Nat.ofDigitChars_ten_toDigits]

theorem take_padded_of_head_zero (hplaces : 0 < places)
    (h : ((padded n places).take ((padded n places).length - places)).head? = some '0') :
    (padded n places).take ((padded n places).length - places) = ['0'] := by
  -- Either zeros were put in front, and only as many as needed, or the number has more digits than the lone zero
  -- and starts with another.
  have hlength := length_padded n places
  by_cases hshort : (Nat.toDigits 10 n).length ≤ places + 1
  · have hone : ((padded n places).take ((padded n places).length - places)).length = 1 := by
      rw [List.length_take]
      omega
    obtain ⟨c, hc⟩ := List.length_eq_one_iff.1 hone
    rw [hc] at h ⊢
    exact congrArg (fun c => [c]) (Option.some.inj h)
  · have hdigits : padded n places = Nat.toDigits 10 n := by
      rw [padded, Nat.sub_eq_zero_of_le (by omega), List.replicate_zero, List.nil_append]
    rw [List.head?_take, if_neg (by omega), hdigits] at h
    have hone := congrArg List.length (toDigits_of_head_zero h)
    rw [List.length_singleton] at hone
    omega

theorem exists_withPoint (n : Nat) (hplaces : 0 < places) : ∃ whole fraction,
    withPoint (Nat.toDigits 10 n) places = whole ++ '.' :: fraction ∧ fraction.length = places ∧
      IsDigits whole ∧ IsDigits fraction ∧ (whole.head? = some '0' → whole = ['0']) ∧
      Nat.ofDigitChars 10 (whole ++ fraction) 0 = n := by
  have hlength := length_padded n places
  have hcut : 0 < ((padded n places).take ((padded n places).length - places)).length := by
    rw [List.length_take]
    omega
  have hrest : ((padded n places).drop ((padded n places).length - places)).length = places := by
    rw [List.length_drop]
    omega
  refine ⟨_, _, rfl, hrest, ⟨List.ne_nil_of_length_pos hcut, fun c hc => ?_⟩,
    ⟨List.ne_nil_of_length_pos (hplaces.trans_eq hrest.symm), fun c hc => ?_⟩, take_padded_of_head_zero hplaces, ?_⟩
  · exact isDigit_of_mem_padded c (List.mem_of_mem_take hc)
  · exact isDigit_of_mem_padded c (List.mem_of_mem_drop hc)
  · exact (congrArg (Nat.ofDigitChars 10 · 0) (List.take_append_drop ..)).trans ofDigitChars_padded

end

theorem spells_positional (sign : List Char) {d : Decimal} (hsign : SpellsSign sign d.negative) :
    Spells (sign ++ d.positional) d.spread := by
  obtain ⟨negative, significand, exponent⟩ := d
  simp only [positional, spread]
  split_ifs with h
  · obtain ⟨whole, fraction, hchars, hlength, hwhole, hfraction, hzero, hdigits⟩ :=
      exists_withPoint significand (Int.pos_iff_toNat_pos.1 (Int.neg_pos_of_neg h))
    have hspells := Spells.parts hsign hwhole hzero (.point hfraction) .none
    rw [hdigits, hlength] at hspells
    convert hspells using 2
    · rw [hchars, List.append_nil]
    · omega
  · have hspells := Spells.parts hsign (isDigits_toDigits (significand * 10 ^ exponent.toNat)) toDigits_of_head_zero
      .none .none
    simpa [Nat.ofDigitChars_ten_toDigits] using hspells

theorem spells_chars (d : Decimal) : Spells d.chars d.spread := by
  unfold chars
  split_ifs with h
  · exact spells_positional ['-'] (by rw [h]; exact .minus)
  · exact spells_positional [] (by rw [Bool.eq_false_of_not_eq_true h]; exact .none)

end Decimal

end OutlierBand
