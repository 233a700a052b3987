import OutlierBand.Proofs.ConstantColumn
import OutlierBand.Proofs.MagnitudeBound
import OutlierBand.Proofs.MirroredNumbers

namespace OutlierBand

open Binary64

theorem holds_iff_lt_countP {α : Type} {p : α → Bool} {l : List α} (h : l.Pairwise fun a b => p b = true → p a = true)
    {k : Nat} {a : α} (ha : l[k]? = some a) : p a = true ↔ k < l.countP p := by
  induction l generalizing k with
  | nil => cases ha
  | cons b l ih =>
    obtain ⟨hb, hl⟩ := List.pairwise_cons.1 h
    by_cases hpb : p b = true
    · rw [List.countP_cons_of_pos hpb]
      cases k with
      | zero =>
        obtain rfl : b = a := Option.some.inj ha
        simp [hpb]
      | succ k => rw [ih hl ha, Nat.add_lt_add_iff_right]
    · have hnone : ∀ c ∈ b :: l, ¬p c = true := List.forall_mem_cons.2 ⟨hpb, fun c hc => mt (hb c hc) hpb⟩
      rw [List.countP_eq_zero.2 hnone]
      exact iff_of_false (hnone a (List.mem_of_getElem? ha)) (Nat.not_lt_zero k)

namespace Binary64

theorem rank_cases {a : Binary64} {x : Int} (h : a.place? = some x) :
    0 ≤ x ∧ a.rank = x ∨ x ≤ 0 ∧ a.rank = x - 1 := by
  cases a with
  | nan => cases h
  | infinite s =>
    cases h
    cases s <;> simp [signed, rank]
  | finite s m =>
    cases h
    cases s <;> simp [signed, rank]

theorem place_le_of_rank_le {a b : Binary64} {x y : Int} (ha : a.place? = some x) (hb : b.place? = some y)
    (h : a.rank ≤ b.rank) : x ≤ y := by
  rcases rank_cases ha with ha | ha <;> rcases rank_cases hb with hb | hb <;> omega

theorem le_of_rank_le {a b : Binary64} (ha : a.isNaN = false) (hb : b.isNaN = false) (h : a.rank ≤ b.rank) :
    a ≤ b := by
  obtain ⟨x, hx⟩ := exists_place ha
  obtain ⟨y, hy⟩ := exists_place hb
  exact le_iff.2 ⟨x, y, hx, hy, place_le_of_rank_le hx hy h⟩

theorem le_iff_not_lt {a b : Binary64} (ha : a.isNaN = false) (hb : b.isNaN = false) : a ≤ b ↔ ¬b < a := by
  obtain ⟨x, hx⟩ := exists_place ha
  obtain ⟨y, hy⟩ := exists_place hb
  rw [le_iff_place_le hx hy, lt_iff_place_lt hy hx, not_lt]

theorem two_mul_value_le_nearest {x : Binary64} (hx : x.isFinite = true) {q : ℚ} (h : 2 * x.value ≤ q) {z : Bool}
    (hq : (nearest z q).isFinite = true) : 2 * x.value ≤ (nearest z q).value := by
  obtain ⟨s, m, rfl⟩ := exists_finite hx
  obtain ⟨t, n, hn⟩ := exists_finite hq
  have hsum : finite s m + finite s m ≤ nearest z q := by
    rw [add_finite]
    apply nearest_le_nearest
    linarith
  -- The doubled number is exact or infinite, and if it is infinite it lies below every finite number.
  rw [hn, add_self, le_iff_place_le (place?_round ..) (place?_finite ..), roundUnits_double] at hsum
  have hplace : signed s (2 * m.units) ≤ signed t n.units := by
    have hbound := abs_signed_lt t n
    generalize signed t n.units = p at *
    unfold signed at hsum ⊢
    split_ifs at hsum ⊢ <;> omega
  have hdouble : (signed s (2 * m.units) : ℚ) = 2 * signed s m.units := by cases s <;> simp [signed]
  rw [hn]
  apply le_of_mul_le_mul_right _ cast_unitsInOne_pos
  rw [mul_assoc, value_finite_mul, value_finite_mul, ← hdouble]
  exact Int.cast_le.2 hplace

theorem value_nearest_le_two_mul {x : Binary64} (hx : x.isFinite = true) {q : ℚ} (h : q ≤ 2 * x.value) {z : Bool}
    (hq : (nearest z q).isFinite = true) : (nearest z q).value ≤ 2 * x.value := by
  have hmirror := mirrors_nearest true z z q
  have hsign : ((signed true 1 : Int) : ℚ) = -1 := by simp [signed]
  have hle := two_mul_value_le_nearest ((isFinite_neg x).trans hx) (q := signed true 1 * q)
    (by rw [value_neg, hsign]; linarith) (hmirror.isFinite_eq.trans hq)
  rw [hmirror.value_eq, value_neg, hsign] at hle
  linarith

theorem value_add_self {x : Binary64} (hx : x.isFinite = true) (h : (x + x).isFinite = true) :
    (x + x).value = 2 * x.value := by
  obtain ⟨z, hz⟩ := exists_add_eq_nearest hx hx
  rw [hz] at h ⊢
  apply le_antisymm
  · exact value_nearest_le_two_mul hx (two_mul x.value).ge h
  · exact two_mul_value_le_nearest hx (two_mul x.value).le h

theorem isFinite_average {a b : Binary64} (ha : Within (greatest.value / 2) a) (hb : Within (greatest.value / 2) b) :
    ((a + b) / two).isFinite = true := by
  have hgreatest : Exact greatest.value := exact_value rfl
  have hsum := ha.add hb hgreatest (add_halves _).le
  apply (hsum.div isFinite_two (by rw [value_two]; exact two_pos) hgreatest _).isFinite
  rw [value_two]
  linarith [hsum.nonneg]

theorem average_between {a b : Binary64} (hab : a.value ≤ b.value) (h : ((a + b) / two).isFinite = true) :
    a.value ≤ ((a + b) / two).value ∧ ((a + b) / two).value ≤ b.value := by
  have hsum := isFinite_of_div h
  obtain ⟨ha, hb⟩ := isFinite_of_add hsum
  obtain ⟨z, hz⟩ := exists_add_eq_nearest ha hb
  have hlow : 2 * a.value ≤ (a + b).value := by
    rw [hz] at hsum ⊢
    exact two_mul_value_le_nearest ha (by linarith) hsum
  have hhigh : (a + b).value ≤ 2 * b.value := by
    rw [hz] at hsum ⊢
    exact value_nearest_le_two_mul hb (by linarith) hsum
  obtain ⟨y, hy⟩ := exists_div_eq_nearest hsum isFinite_two (by rw [value_two]; exact two_ne_zero)
  rw [hy, value_two]
  exact (nearest_between (exact_value ha) (exact_value hb) (by linarith) (by linarith) y).2

end Binary64

namespace Statistics

variable {l xs : List Binary64} {k : Nat} {a b : Binary64}

theorem middle_of_odd (h : l.length = 2 * k + 1) (hb : l[k]? = some b) : middle l = b := by
  have hk : l.length / 2 = k := by omega
  have hbefore : l[k - 1]? = some l[k - 1] := List.getElem?_eq_getElem (by omega)
  rw [middle, hk, hbefore, hb]
  exact if_pos (by omega)

theorem middle_of_even (h : l.length = 2 * k + 2) (ha : l[k]? = some a) (hb : l[k + 1]? = some b) :
    middle l = (a + b) / two := by
  have hk : l.length / 2 = k + 1 := by omega
  rw [middle, hk, Nat.add_sub_cancel, ha, hb]
  exact if_neg (by omega)

theorem middle_cases (h : l ≠ []) :
    (∃ k b, l.length = 2 * k + 1 ∧ l[k]? = some b ∧ middle l = b) ∨
      ∃ k a b, l.length = 2 * k + 2 ∧ l[k]? = some a ∧ l[k + 1]? = some b ∧ middle l = (a + b) / two := by
  have hpos := List.length_pos_iff.2 h
  obtain ⟨k, hk⟩ : ∃ k, l.length = 2 * k + 1 ∨ l.length = 2 * k + 2 := ⟨(l.length - 1) / 2, by omega⟩
  rcases hk with hk | hk
  · have hb : l[k]? = some l[k] := List.getElem?_eq_getElem (by omega)
    exact .inl ⟨k, _, hk, hb, middle_of_odd hk hb⟩
  · have ha : l[k]? = some l[k] := List.getElem?_eq_getElem (by omega)
    have hb : l[k + 1]? = some l[k + 1] := List.getElem?_eq_getElem (by omega)
    exact .inr ⟨k, _, _, hk, ha, hb, middle_of_even hk ha hb⟩

theorem countP_lt_add_countP_le (hxs : ∀ x ∈ xs, x.isNaN = false) {v : Binary64} (hv : v.isNaN = false) :
    xs.countP (· < v) + xs.countP (v ≤ ·) = xs.length := by
  have hnot : xs.countP (v ≤ ·) = xs.countP fun x => ¬decide (x < v) = true := by
    apply List.countP_congr
    intro x hx
    simp only [decide_eq_true_eq]
    exact le_iff_not_lt hv (hxs x hx)
  rw [hnot]
  exact (List.length_eq_countP_add_countP _).symm

theorem sorted_holds_iff {p : Binary64 → Bool}
    (hp : ∀ x ∈ xs, ∀ y ∈ xs, x.rank ≤ y.rank → p y = true → p x = true) (ha : (sorted xs)[k]? = some a) :
    p a = true ↔ k < xs.countP p := by
  have hmem {x : Binary64} : x ∈ sorted xs ↔ x ∈ xs := (perm_sorted xs).mem_iff
  rw [← (perm_sorted xs).countP_eq]
  apply holds_iff_lt_countP _ ha
  exact (pairwise_sorted xs).imp_of_mem fun hx hy hxy => hp _ (hmem.1 hx) _ (hmem.1 hy) hxy

theorem sorted_le_iff (hxs : ∀ x ∈ xs, x.isNaN = false) (v : Binary64) (ha : (sorted xs)[k]? = some a) :
    a ≤ v ↔ k < xs.countP (· ≤ v) := by
  rw [← sorted_holds_iff _ ha, decide_eq_true_eq]
  simp only [decide_eq_true_eq]
  exact fun x hx y hy hxy => Binary64.le_trans (le_of_rank_le (hxs x hx) (hxs y hy) hxy)

theorem sorted_lt_iff (hxs : ∀ x ∈ xs, x.isNaN = false) (v : Binary64) (ha : (sorted xs)[k]? = some a) :
    a < v ↔ k < xs.countP (· < v) := by
  rw [← sorted_holds_iff _ ha, decide_eq_true_eq]
  simp only [decide_eq_true_eq]
  exact fun x hx y hy hxy => lt_of_le_of_lt (le_of_rank_le (hxs x hx) (hxs y hy) hxy)

theorem le_sorted_iff (hxs : ∀ x ∈ xs, x.isNaN = false) {v : Binary64} (hv : v.isNaN = false)
    (ha : (sorted xs)[k]? = some a) : v ≤ a ↔ xs.countP (· < v) ≤ k := by
  have hmem := (perm_sorted xs).mem_iff.1 (List.mem_of_getElem? ha)
  rw [le_iff_not_lt hv (hxs a hmem), sorted_lt_iff hxs v ha, not_lt]

/-- A number in the middle of some values: at least half of them are at most the number, at least half are at least the
number, and for an even count it is the average of the two middle values and lies between them. -/
structure Halves (m : Binary64) (xs : List Binary64) : Prop where
  below : xs.length ≤ 2 * xs.countP (· ≤ m)
  above : xs.length ≤ 2 * xs.countP (m ≤ ·)
  average : ∀ k a b, xs.length = 2 * k + 2 → (sorted xs)[k]? = some a → (sorted xs)[k + 1]? = some b →
    m = (a + b) / two ∧ a ≤ m ∧ m ≤ b

theorem halves_of_odd (hxs : ∀ x ∈ xs, x.isNaN = false) (hk : xs.length = 2 * k + 1) (hb : (sorted xs)[k]? = some b) :
    Halves b xs := by
  have hb' := hxs b ((perm_sorted xs).mem_iff.1 (List.mem_of_getElem? hb))
  have hself := le_refl_of_isNaN hb'
  have hbelow := (sorted_le_iff hxs b hb).1 hself
  have habove := (le_sorted_iff hxs hb' hb).1 hself
  have htotal := countP_lt_add_countP_le hxs hb'
  exact ⟨by omega, by omega, fun l _ _ hl => by omega⟩

theorem halves_of_even (hxs : ∀ x ∈ xs, x.isNaN = false) (hk : xs.length = 2 * k + 2) (ha : (sorted xs)[k]? = some a)
    (hb : (sorted xs)[k + 1]? = some b) (h : ((a + b) / two).isFinite = true) : Halves ((a + b) / two) xs := by
  obtain ⟨hfa, hfb⟩ := isFinite_of_add (isFinite_of_div h)
  have hb' := isNaN_of_isFinite hfb
  have hself := le_refl_of_isNaN hb'
  have hab : a ≤ b := (sorted_le_iff hxs b ha).2 (Nat.lt_of_succ_lt ((sorted_le_iff hxs b hb).1 hself))
  obtain ⟨hlow, hhigh⟩ := average_between ((le_iff_value_le hfa hfb).1 hab) h
  rw [← le_iff_value_le hfa h] at hlow
  rw [← le_iff_value_le h hfb] at hhigh
  refine ⟨?_, ?_, fun l c d hl hc hd => ?_⟩
  · have hbelow := (sorted_le_iff hxs _ ha).1 hlow
    omega
  · have habove := (le_sorted_iff hxs (isNaN_of_isFinite h) hb).1 hhigh
    have htotal := countP_lt_add_countP_le hxs (isNaN_of_isFinite h)
    omega
  · obtain rfl : k = l := by omega
    obtain rfl : a = c := Option.some.inj (ha.symm.trans hc)
    obtain rfl : b = d := Option.some.inj (hb.symm.trans hd)
    exact ⟨rfl, hlow, hhigh⟩

theorem halves_median (hxs : ∀ x ∈ xs, x.isNaN = false) (h : (median xs).isFinite = true) : Halves (median xs) xs := by
  have hlength := (perm_sorted xs).length_eq
  by_cases hne : sorted xs = []
  · rw [hne] at hlength
    exact ⟨hlength ▸ Nat.zero_le _, hlength ▸ Nat.zero_le _, fun k _ _ hk => by simp [← hlength] at hk⟩
  · rw [median] at h ⊢
    rcases middle_cases hne with ⟨k, b, hk, hb, hmiddle⟩ | ⟨k, a, b, hk, ha, hb, hmiddle⟩
    · rw [hmiddle]
      exact halves_of_odd hxs (hlength ▸ hk) hb
    · rw [hmiddle] at h ⊢
      exact halves_of_even hxs (hlength ▸ hk) ha hb h

end Statistics

end OutlierBand
