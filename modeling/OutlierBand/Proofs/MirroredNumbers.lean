import OutlierBand.Proofs.NumberOrder

namespace OutlierBand.Binary64

inductive Mirrors (flip : Bool) : Binary64 → Binary64 → Prop
  | nan (s t : Bool) : Mirrors flip (nan s) (nan t)
  | infinite {s t : Bool} (h : s = (flip != t)) : Mirrors flip (infinite s) (infinite t)
  | finite {s t : Bool} {m : Magnitude} (h : m.units = 0 ∨ s = (flip != t)) :
    Mirrors flip (finite s m) (finite t m)

theorem mirrors_refl (a : Binary64) : Mirrors false a a := by
  cases a with
  | nan s => exact .nan s s
  | infinite s => exact .infinite (Bool.false_bne s).symm
  | finite s m => exact .finite (.inr (Bool.false_bne s).symm)

theorem mirrors_neg (a : Binary64) : Mirrors true (-a) a := by
  cases a with
  | nan s => exact .nan _ s
  | infinite s => exact .infinite (Bool.true_bne s).symm
  | finite s m => exact .finite (.inr (Bool.true_bne s).symm)

theorem mirrors_round (f s : Bool) (num den : Nat) : Mirrors f (round (f != s) num den) (round s num den) := by
  unfold round
  split_ifs
  · exact .finite (.inr rfl)
  · exact .infinite rfl

theorem mirrors_nearest (f y z : Bool) (q : ℚ) : Mirrors f (nearest y (signed f 1 * q)) (nearest z q) := by
  by_cases hq : q = 0
  · rw [hq, mul_zero, nearest_zero, nearest_zero]
    exact .finite (.inl rfl)
  · cases f with
    | false =>
      rw [nearest_of_ne_zero z y hq]
      simpa [signed] using mirrors_refl (nearest y q)
    | true =>
      have hnum : q.num * unitsInOne ≠ 0 :=
        mul_ne_zero (Rat.num_ne_zero.2 hq) (Int.natCast_pos.2 unitsInOne_pos).ne'
      have hsign : decide (-(q.num * unitsInOne) < 0) = (true != decide (q.num * unitsInOne < 0)) := by
        simp only [Bool.true_bne, ← decide_not, decide_eq_decide]
        omega
      have hneg : (signed true 1 : ℚ) * q = -q := by simp [signed]
      rw [hneg, nearest, nearest, Rat.num_neg_eq_neg_num, Rat.den_neg_eq_den, neg_mul, roundSigned, roundSigned,
        if_neg (neg_ne_zero.2 hnum), if_neg hnum, Int.natAbs_neg, hsign]
      exact mirrors_round true _ _ _

theorem bne_bne_bne_comm (f t g u : Bool) : ((f != t) != (g != u)) = ((f != g) != (t != u)) := by
  decide +revert

theorem infinite_add_infinite (s t : Bool) : infinite s + infinite t = if s = t then infinite s else invalid := rfl

theorem infinite_mul_finite (s t : Bool) (m : Magnitude) :
    infinite s * finite t m = if m.units = 0 then invalid else infinite (s != t) := rfl

theorem finite_mul_infinite (s t : Bool) (m : Magnitude) :
    finite s m * infinite t = if m.units = 0 then invalid else infinite (t != s) := rfl

theorem finite_div_zero (s t : Bool) (m : Magnitude) {n : Magnitude} (hn : n.units = 0) :
    finite s m / finite t n = if m.units = 0 then invalid else infinite (s != t) := if_pos hn

theorem signed_bne (f s : Bool) (n : Nat) : signed (f != s) n = signed f 1 * signed s n := by
  rw [signed_mul, Nat.one_mul]

namespace Mirrors

variable {f g : Bool} {a b c d : Binary64}

theorem isFinite_eq (h : Mirrors f a b) : a.isFinite = b.isFinite := by cases h <;> rfl

theorem abs_eq (h : Mirrors f a b) : a.abs = b.abs := by cases h <;> rfl

theorem value_eq (h : Mirrors f a b) : a.value = signed f 1 * b.value := by
  cases h with
  | nan s t => simp [value]
  | infinite h => simp [value]
  | @finite s t m h =>
    have hsigned : signed s m.units = signed f 1 * signed t m.units := by
      rcases h with h | h
      · simp [h, signed]
      · rw [h, signed_bne]
    rw [value, value, hsigned, Int.cast_mul, mul_div_assoc]

theorem neg (h : Mirrors f a b) : Mirrors f (-a) (-b) := by
  cases h with
  | nan s t => exact .nan _ _
  | infinite h => exact .infinite (by simp [h])
  | finite h => exact .finite (h.imp_right fun h => by simp [h])

theorem add (hab : Mirrors f a b) (hcd : Mirrors f c d) : Mirrors f (a + c) (b + d) := by
  cases hab with
  | nan => cases hcd <;> exact .nan _ _
  | @infinite s t hs =>
    cases hcd with
    | nan => exact .nan _ _
    | @infinite u v hu =>
      -- Infinities cancel out on both sides or on neither.
      have hcancel : s = u ↔ t = v := by
        subst hs hu
        cases f <;> simp
      rw [infinite_add_infinite, infinite_add_infinite]
      simp only [hcancel]
      split_ifs
      · exact .infinite hs
      · exact .nan _ _
    | finite => exact .infinite hs
  | finite hs =>
    cases hcd with
    | nan => exact .nan _ _
    | infinite hu => exact .infinite hu
    | finite hu =>
      rw [add_finite, add_finite, (Mirrors.finite hs).value_eq, (Mirrors.finite hu).value_eq, ← mul_add]
      exact mirrors_nearest f _ _ _

theorem sub (hab : Mirrors f a b) (hcd : Mirrors f c d) : Mirrors f (a - c) (b - d) := hab.add hcd.neg

theorem mul (hab : Mirrors f a b) (hcd : Mirrors g c d) : Mirrors (f != g) (a * c) (b * d) := by
  cases hab with
  | nan => cases hcd <;> exact .nan _ _
  | @infinite s t hs =>
    cases hcd with
    | nan => exact .nan _ _
    | @infinite u v hu => exact .infinite (by rw [hs, hu, bne_bne_bne_comm])
    | @finite u v m hu =>
      rw [infinite_mul_finite, infinite_mul_finite]
      split_ifs with hm
      · exact .nan _ _
      · exact .infinite (by rw [hs, hu.resolve_left hm, bne_bne_bne_comm])
  | @finite s t m hs =>
    cases hcd with
    | nan => exact .nan _ _
    | @infinite u v hu =>
      rw [finite_mul_infinite, finite_mul_infinite]
      split_ifs with hm
      · exact .nan _ _
      · exact .infinite (by rw [hu, hs.resolve_left hm, bne_bne_bne_comm, bne_comm (a := g)])
    | finite hu =>
      rw [mul_finite, mul_finite, (Mirrors.finite hs).value_eq, (Mirrors.finite hu).value_eq, mul_mul_mul_comm,
        ← Int.cast_mul, signed_mul, Nat.one_mul]
      exact mirrors_nearest (f != g) _ _ _

theorem div (h : Mirrors f a b) (c : Binary64) : Mirrors f (a / c) (b / c) := by
  cases h with
  | nan => cases c <;> exact .nan _ _
  | infinite hs =>
    cases c with
    | nan => exact .nan _ _
    | infinite => exact .nan _ _
    | finite => exact .infinite (by rw [hs, Bool.bne_assoc])
  | @finite s t m hs =>
    cases c with
    | nan => exact .nan _ _
    | infinite => exact .finite (.inl rfl)
    | finite u n =>
      by_cases hn : n.units = 0
      · rw [finite_div_zero _ _ _ hn, finite_div_zero _ _ _ hn]
        split_ifs with hm
        · exact .nan _ _
        · exact .infinite (by rw [hs.resolve_left hm, Bool.bne_assoc])
      · rw [div_finite _ _ _ hn, div_finite _ _ _ hn, (Mirrors.finite hs).value_eq, mul_div_assoc]
        exact mirrors_nearest f _ _ _

theorem fma {x y : Binary64} (hab : Mirrors f a b) (hcd : Mirrors g c d) (hxy : Mirrors (f != g) x y) :
    Mirrors (f != g) (fma a c x) (fma b d y) := by
  cases hab with
  | nan => exact (Mirrors.mul (.nan _ _) hcd).add hxy
  | infinite hs => exact (Mirrors.mul (.infinite hs) hcd).add hxy
  | finite hs =>
    cases hcd with
    | nan => exact (Mirrors.mul (.finite hs) (.nan _ _)).add hxy
    | infinite hu => exact (Mirrors.mul (.finite hs) (.infinite hu)).add hxy
    | finite hu =>
      cases hxy with
      | nan => exact .nan _ _
      | infinite hz => exact .infinite hz
      | finite hz =>
        rw [fma_finite, fma_finite, (Mirrors.finite hs).value_eq, (Mirrors.finite hu).value_eq,
          (Mirrors.finite hz).value_eq, mul_mul_mul_comm, ← Int.cast_mul, signed_mul, Nat.one_mul, ← mul_add]
        exact mirrors_nearest (f != g) _ _ _

theorem sqrt (h : Mirrors false a b) : Mirrors false (sqrt a) (sqrt b) := by
  cases h with
  | nan => exact .nan _ _
  | infinite hs =>
    rw [hs, Bool.false_bne]
    exact mirrors_refl _
  | @finite s t m hs =>
    rcases hs with hm | hs
    · rw [Binary64.sqrt, Binary64.sqrt, if_pos hm, if_pos hm]
      exact .finite (.inl hm)
    · rw [hs, Bool.false_bne]
      exact mirrors_refl _

theorem add_eq (h : Mirrors false a b) (hc : zero < c) : a + c = b + c := by
  -- What is added is above zero, which takes away what zeros of unlike sign could still show.
  cases h with
  | nan => cases c <;> rfl
  | infinite hs => rw [hs, Bool.false_bne]
  | @finite s t m hs =>
    cases c with
    | nan => rfl
    | infinite => rfl
    | finite u n =>
      obtain ⟨k, hk, -⟩ := exists_finite_of_zero_lt rfl hc
      rw [hk, add_finite, add_finite, Bool.and_false, Bool.and_false, (Mirrors.finite hs).value_eq]
      simp [signed]

end Mirrors

end OutlierBand.Binary64
