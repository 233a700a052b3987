import OutlierBand.Proofs.MedianSummary
import OutlierBand.Proofs.RunningMean

/-!
The spread of values up to half the greatest number. Two of them are never too far apart for a number, so that the
running mean is always between two of the values taken up so far and the sum of squares never falls, although it may
become infinite.
-/

namespace OutlierBand

open Binary64

namespace Binary64

variable {a b c x y : Binary64}

theorem isFinite_sub_of_halves (hx : Within (greatest.value / 2) x) (hy : Within (greatest.value / 2) y) :
    (x - y).isFinite = true :=
  (hx.add hy.neg (exact_value rfl) (add_halves _).le).isFinite

theorem le_fma (ha : a.isFinite = true) (hb : b.isFinite = true) (hab : 0 ≤ a.value * b.value) (hc : zero ≤ c) :
    c ≤ fma a b c := by
  obtain ⟨s, m, rfl⟩ := exists_finite ha
  obtain ⟨t, n, rfl⟩ := exists_finite hb
  cases c with
  | nan => cases isNaN_of_le hc
  | infinite => exact le_refl_of_isNaN rfl
  | finite u k =>
    rw [fma_finite]
    exact le_nearest_of_value_le rfl _ (le_add_of_nonneg_left hab)

theorem fma_zero_of_product (ha : a.isFinite = true) (hb : b.isFinite = true) (hab : a.value * b.value = 0) :
    fma a b zero = zero := by
  obtain ⟨s, m, rfl⟩ := exists_finite ha
  obtain ⟨t, n, rfl⟩ := exists_finite hb
  have hzero : (finite false .zero).value = 0 := value_zero
  rw [zero, fma_finite, hab, hzero, add_zero, nearest_zero, Bool.and_false]

theorem zero_le_sqrt (ha : zero ≤ a) : zero ≤ sqrt a := by
  cases a with
  | nan => cases isNaN_of_le ha
  | infinite s =>
    cases s with
    | false => exact ha
    | true => exact absurd ha (by decide +kernel)
  | finite s m =>
    by_cases hm : m.units = 0
    · rw [sqrt, if_pos hm]
      exact ha
    · have hpos : 0 < (finite s m).value :=
        (value_nonneg_of_zero_le ha).lt_of_ne ((value_ne_zero_iff s m).2 hm).symm
      obtain ⟨n, hn, hn0⟩ := exists_finite_of_zero_lt (a := finite s m) rfl ((zero_lt_iff rfl).2 hpos)
      rw [hn, sqrt_finite hn0]
      exact zero_le_nearest _ (div_nonneg (Nat.cast_nonneg _) (mul_pos two_pos cast_unitsInOne_pos).le)

theorem zero_le_div_ofNat (ha : zero ≤ a) {n : ℕ} (h0 : 0 < n) (hn : n < 2 ^ 64) : zero ≤ a / ofNat n := by
  have hfinite := isFinite_ofNat_of_lt hn
  have hpos := value_ofNat_pos h0 hn
  cases a with
  | nan => cases isNaN_of_le ha
  | infinite s =>
    obtain ⟨k, hk, -⟩ := exists_finite_of_zero_lt hfinite ((zero_lt_iff hfinite).2 hpos)
    rw [hk]
    cases s with
    | false => exact ha
    | true => exact absurd ha (by decide +kernel)
  | finite s m =>
    obtain ⟨z, hz⟩ := exists_div_eq_nearest (a := finite s m) rfl hfinite hpos.ne'
    rw [hz]
    exact zero_le_nearest z (div_nonneg (value_nonneg_of_zero_le ha) hpos.le)

end Binary64

namespace Statistics

variable {xs : List Binary64} {x m : Binary64}

namespace Between

theorem append (h : Between xs m) {y : Binary64} (hy : y.isFinite = true)
    (hbetween : y.value ∈ Set.uIcc m.value x.value) : Between (xs ++ [x]) y := by
  obtain ⟨a, ha, ham⟩ := h.above
  obtain ⟨b, hb, hmb⟩ := h.below
  have hlast : x ∈ xs ++ [x] := List.mem_append_right _ List.mem_cons_self
  refine ⟨hy, ?_, ?_⟩
  · rcases le_or_gt x.value y.value with hle | hgt
    · exact ⟨x, hlast, hle⟩
    · exact ⟨a, List.mem_append_left _ ha, ham.trans (by grind [Set.mem_uIcc])⟩
  · rcases le_or_gt y.value x.value with hle | hgt
    · exact ⟨x, hlast, hle⟩
    · exact ⟨b, List.mem_append_left _ hb, le_trans (by grind [Set.mem_uIcc]) hmb⟩

end Between

namespace Spread

theorem between_ofList (hne : xs ≠ []) (hxs : ∀ x ∈ xs, Within (greatest.value / 2) x) (hlength : xs.length < 2 ^ 64) :
    Between xs (ofList xs).mean := by
  induction xs using List.reverseRecOn with
  | nil => exact absurd rfl hne
  | append_singleton xs x ih =>
    obtain ⟨hxs, hx⟩ := List.forall_mem_append.1 hxs
    replace hx := List.forall_mem_singleton.1 hx
    rw [List.length_append, List.length_singleton] at hlength
    rw [ofList_append]
    by_cases hfirst : xs = []
    · -- The mean of no values is zero, which need not be between any; the first value takes its place.
      subst hfirst
      have hsettled := settled_first hx.isFinite
      exact ⟨hsettled.isFinite_mean, ⟨x, List.mem_cons_self, hsettled.value_mean.ge⟩,
        x, List.mem_cons_self, hsettled.value_mean.le⟩
    · have hbetween := ih hfirst hxs (by omega)
      have hcount := count_ofList xs
      have hpos := List.length_pos_iff.2 hfirst
      obtain ⟨hfinite, hmean⟩ := mean_push_mem_uIcc hx.isFinite hbetween.isFinite (by omega) (by omega)
        (isFinite_sub_of_halves hx (hbetween.within hxs))
      exact hbetween.append hfinite hmean

theorem squares_le_push {s : Spread} (hs : Within (greatest.value / 2) s.mean) (hx : Within (greatest.value / 2) x)
    (hfirst : s.count = 0 → s.mean.value = 0) (hcount : s.count + 1 < 2 ^ 64) (hsquares : zero ≤ s.squares) :
    s.squares ≤ (s.push x).squares := by
  -- The new mean is no further from the value than the old one and on the same side, so a square is added.
  have hdelta := isFinite_sub_of_halves hx hs
  obtain ⟨hfinite, hmean⟩ := mean_push_mem_uIcc hx.isFinite hs.isFinite hfirst hcount hdelta
  have hwithin := hs.of_mem_uIcc hx hfinite hmean
  have hproduct := product_nonneg hx.isFinite hs.isFinite hfinite hmean
  exact le_fma (isFinite_sub_of_halves hx hwithin) hdelta hproduct hsquares

theorem within_mean_ofList (hxs : ∀ x ∈ xs, Within (greatest.value / 2) x) (hlength : xs.length < 2 ^ 64) :
    Within (greatest.value / 2) (ofList xs).mean ∧ ((ofList xs).count = 0 → (ofList xs).mean.value = 0) := by
  by_cases hne : xs = []
  · subst hne
    exact ⟨within_half_zero, fun _ => value_zero⟩
  · refine ⟨(between_ofList hne hxs hlength).within hxs, fun h0 => absurd h0 ?_⟩
    rw [count_ofList]
    exact (List.length_pos_iff.2 hne).ne'

theorem squares_ofList_append (hxs : ∀ x ∈ xs, Within (greatest.value / 2) x) (hx : Within (greatest.value / 2) x)
    (hlength : xs.length + 1 < 2 ^ 64) (hsquares : zero ≤ (ofList xs).squares) :
    (ofList xs).squares ≤ (ofList (xs ++ [x])).squares := by
  obtain ⟨hmean, hfirst⟩ := within_mean_ofList hxs (Nat.lt_of_succ_lt hlength)
  rw [ofList_append]
  exact squares_le_push hmean hx hfirst (by rwa [count_ofList]) hsquares

theorem zero_le_squares_ofList (hxs : ∀ x ∈ xs, Within (greatest.value / 2) x) (hlength : xs.length < 2 ^ 64) :
    zero ≤ (ofList xs).squares := by
  induction xs using List.reverseRecOn with
  | nil => exact le_refl_of_isNaN rfl
  | append_singleton xs x ih =>
    obtain ⟨hxs, hx⟩ := List.forall_mem_append.1 hxs
    rw [List.length_append, List.length_singleton] at hlength
    have hsquares := ih hxs (by omega)
    exact Binary64.le_trans hsquares (squares_ofList_append hxs (List.forall_mem_singleton.1 hx) hlength hsquares)

theorem squares_take_le_squares_take (hxs : ∀ x ∈ xs, Within (greatest.value / 2) x) (hlength : xs.length < 2 ^ 64)
    {k l : ℕ} (hkl : k ≤ l) : (ofList (xs.take k)).squares ≤ (ofList (xs.take l)).squares := by
  have htake (k : ℕ) : ∀ x ∈ xs.take k, Within (greatest.value / 2) x := fun x hx => hxs x (List.mem_of_mem_take hx)
  have hsquares (k : ℕ) : zero ≤ (ofList (xs.take k)).squares :=
    zero_le_squares_ofList (htake k) ((List.length_take_le' ..).trans_lt hlength)
  induction l, hkl using Nat.le_induction with
  | base => exact le_refl_of_isNaN (isNaN_of_le (hsquares k))
  | succ l _ ih =>
    refine Binary64.le_trans ih ?_
    rcases Nat.lt_or_ge l xs.length with hl | hl
    · rw [List.take_succ_eq_append_getElem hl]
      apply squares_ofList_append (htake l) (hxs _ (List.getElem_mem hl)) _ (hsquares l)
      rw [List.length_take_of_le hl.le]
      omega
    · rw [List.take_of_length_le hl, List.take_of_length_le (Nat.le_succ_of_le hl)]
      exact le_refl_of_isNaN (isNaN_of_le (List.take_of_length_le hl ▸ hsquares l))

theorem squares_ofList_of_equal {v : ℚ} (hxs : ∀ x ∈ xs, Within (greatest.value / 2) x) (hlength : xs.length < 2 ^ 64)
    (hequal : ∀ x ∈ xs, x.value = v) : (ofList xs).squares = zero := by
  induction xs using List.reverseRecOn with
  | nil => rfl
  | append_singleton xs x ih =>
    have hmean := between_ofList (by simp) hxs hlength
    have hwithin := hmean.within hxs
    obtain ⟨a, ha, ham⟩ := hmean.above
    obtain ⟨b, hb, hmb⟩ := hmean.below
    rw [hequal a ha] at ham
    rw [hequal b hb] at hmb
    -- What is between equal numbers is equal to them, so the new mean is at no distance from the last of them.
    have hvalue := hmb.antisymm ham
    obtain ⟨hxs, hx⟩ := List.forall_mem_append.1 hxs
    replace hx := List.forall_mem_singleton.1 hx
    have hlast : x.value = v := hequal x (List.mem_append_right _ List.mem_cons_self)
    rw [List.length_append, List.length_singleton] at hlength
    have hbefore := ih hxs (by omega) fun x hx => hequal x (List.mem_append_left _ hx)
    have hdelta := isFinite_sub_of_halves hx (within_mean_ofList hxs (by omega)).1
    rw [ofList_append] at hwithin hvalue ⊢
    change fma (x - ((ofList xs).push x).mean) (x - (ofList xs).mean) (ofList xs).squares = zero
    obtain ⟨z, hz⟩ := sub_eq_zero_of_value_eq hx.isFinite hwithin.isFinite (hlast.trans hvalue.symm)
    rw [hbefore, hz]
    exact fma_zero_of_product rfl hdelta (by rw [value_finite_zero, zero_mul])

/-- After any number of values the running mean is between the least and the greatest of them, and the sum of squares is
not below zero and does not fall. So the dispersion is zero, a number above zero or infinite, and where all values are
equal it is zero. -/
theorem stays_in_range (hne : xs ≠ []) (hxs : ∀ x ∈ xs, Within (greatest.value / 2) x) (hlength : xs.length < 2 ^ 64) :
    (∀ k, 0 < k → k ≤ xs.length → ∃ a b, IsLeast {x | x ∈ xs.take k} a ∧ IsGreatest {x | x ∈ xs.take k} b ∧
      a ≤ (ofList (xs.take k)).mean ∧ (ofList (xs.take k)).mean ≤ b) ∧
    (∀ k l, k ≤ l → zero ≤ (ofList (xs.take k)).squares ∧
      (ofList (xs.take k)).squares ≤ (ofList (xs.take l)).squares) ∧
    ∀ sum, (zero ≤ (Statistic.mean.summary sum xs).dispersion ∧
        (Statistic.mean.summary sum xs).dispersion ≤ infinity) ∧
      ((∀ x ∈ xs, ∀ y ∈ xs, x.same y = true) → (Statistic.mean.summary sum xs).dispersion = zero) := by
  have hpos := List.length_pos_iff.2 hne
  have htake (k : ℕ) : ∀ x ∈ xs.take k, Within (greatest.value / 2) x := fun x hx => hxs x (List.mem_of_mem_take hx)
  have hroom (k : ℕ) : (xs.take k).length < 2 ^ 64 := (List.length_take_le' ..).trans_lt hlength
  refine ⟨fun k h0 hk => ?_, fun k l hkl => ?_, fun sum => ⟨?_, fun hequal => ?_⟩⟩
  · have hnonempty : xs.take k ≠ [] := by
      rw [← List.length_pos_iff, List.length_take_of_le hk]
      exact h0
    exact (between_ofList hnonempty (htake k) (hroom k)).exists_isLeast_isGreatest fun x hx => (htake k x hx).isFinite
  · exact ⟨zero_le_squares_ofList (htake k) (hroom k), squares_take_le_squares_take hxs hlength hkl⟩
  · have hdeviation : zero ≤ (ofList xs).deviation := by
      rw [deviation, count_ofList]
      exact zero_le_sqrt (zero_le_div_ofNat (zero_le_squares_ofList hxs hlength) hpos hlength)
    exact ⟨hdeviation, le_infinity (isNaN_of_le hdeviation)⟩
  · obtain ⟨v, hv⟩ := List.exists_mem_of_ne_nil xs hne
    have hvalue : ∀ x ∈ xs, x.value = v.value := fun x hx =>
      (same_iff_value_eq (hxs x hx).isFinite (hxs v hv).isFinite).1 (hequal x hx v hv)
    change (ofList xs).deviation = zero
    rw [deviation, count_ofList, squares_ofList_of_equal hxs hlength hvalue, zero_div_ofNat hpos hlength, zero, sqrt]
    exact if_pos rfl

theorem stays_in_range_infinite :
    let half := greatest / two
    let xs := [half, -half]
    xs ≠ [] ∧ (∀ x ∈ xs, Within (greatest.value / 2) x) ∧ xs.length < 2 ^ 64 ∧
      (∃ a b, IsLeast {x | x ∈ xs} a ∧ IsGreatest {x | x ∈ xs} b ∧ a ≤ (ofList xs).mean ∧ (ofList xs).mean ≤ b) ∧
      (ofList (xs.take 1)).squares = zero ∧ (ofList (xs.take 1)).squares ≤ (ofList xs).squares ∧
      (Statistic.mean.summary Statistics.sum xs).dispersion = infinity := by
  intro half xs
  have hhalf : Within (greatest.value / 2) half := ⟨by decide +kernel, by decide +kernel⟩
  have hxs : ∀ x ∈ xs, Within (greatest.value / 2) x :=
    List.forall_mem_cons.2 ⟨hhalf, List.forall_mem_singleton.2 hhalf.neg⟩
  obtain ⟨hmean, hsquares, -⟩ := stays_in_range (List.cons_ne_nil half _) hxs (by decide)
  exact ⟨List.cons_ne_nil half _, hxs, by decide, hmean 2 (by decide) (by decide), by decide +kernel,
    (hsquares 1 2 (by decide)).2, by decide +kernel⟩

end Spread

end Statistics

end OutlierBand
