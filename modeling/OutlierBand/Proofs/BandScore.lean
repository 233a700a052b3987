import OutlierBand.Band
import OutlierBand.Proofs.NumberOrder

namespace OutlierBand

open Binary64

theorem forall_mem_zipWith_iff {α β γ : Type} {f : α → β → γ} {p : γ → Prop} {l : List α} {l' : List β} :
    (∀ c ∈ l.zipWith f l', p c) ↔ ∀ v ∈ l.zip l', p (f v.1 v.2) := by
  rw [← List.map_uncurry_zip_eq_zipWith, List.forall_mem_map]
  rfl

theorem Binary64.foldl_maxNum_le_iff {l : List Binary64} {a c : Binary64} (ha : a.isNaN = false)
    (hl : ∀ e ∈ l, e.isNaN = false) : l.foldl maxNum a ≤ c ↔ a ≤ c ∧ ∀ e ∈ l, e ≤ c := by
  induction l generalizing a with
  | nil => simp
  | cons e l ih =>
    have he := hl e List.mem_cons_self
    rw [List.foldl_cons, ih (isNaN_maxNum ha he) fun e he => hl e (List.mem_cons_of_mem _ he), maxNum_le_iff ha he,
      List.forall_mem_cons, and_assoc]

theorem Binary64.le_foldl_maxNum {l : List Binary64} {a : Binary64} (ha : a.isNaN = false)
    (hl : ∀ e ∈ l, e.isNaN = false) : a ≤ l.foldl maxNum a := by
  induction l generalizing a with
  | nil => exact le_refl_of_isNaN ha
  | cons e l ih =>
    have he := hl e List.mem_cons_self
    have hrest := ih (isNaN_maxNum ha he) fun e he => hl e (List.mem_cons_of_mem _ he)
    exact Binary64.le_trans (le_maxNum_left ha he) hrest

theorem Binary64.foldl_maxNum_le_foldl {l l' : List Binary64} (h : List.Forall₂ (· ≤ ·) l l') {a b : Binary64}
    (hab : a ≤ b) : l.foldl maxNum a ≤ l'.foldl maxNum b := by
  induction h generalizing a b with
  | nil => exact hab
  | cons he _ ih => exact ih (maxNum_le_maxNum hab he)

theorem Binary64.foldl_maxNum_eq_zero {l : List Binary64} (h : ∀ e ∈ l, e = zero) : l.foldl maxNum zero = zero := by
  induction l with
  | nil => rfl
  | cons e l ih =>
    rw [List.foldl_cons, h e List.mem_cons_self]
    exact ih fun e he => h e (List.mem_cons_of_mem _ he)

theorem Binary64.foldl_maxNum_infinity (l : List Binary64) : l.foldl maxNum infinity = infinity := by
  induction l with
  | nil => rfl
  | cons e l ih => rw [List.foldl_cons, infinity_maxNum, ih]

theorem Binary64.foldl_maxNum_eq_infinity {l : List Binary64} (h : infinity ∈ l) (a : Binary64) :
    l.foldl maxNum a = infinity := by
  induction l generalizing a with
  | nil => cases h
  | cons e l ih =>
    rw [List.foldl_cons]
    rcases List.mem_cons.1 h with rfl | h
    · rw [maxNum_infinity, foldl_maxNum_infinity]
    · exact ih h _

namespace Binary64

theorem round_le_one_iff {k n : Magnitude} (hn : n.units ≠ 0) :
    round false (k.units * unitsInOne) n.units ≤ one ↔ k.units ≤ n.units := by
  have hpos := Nat.pos_of_ne_zero hn
  obtain ⟨m, hm, hu⟩ := exists_ofNat (n := 1) (by decide)
  rw [Nat.one_mul] at hu
  have hone : one.place? = some (unitsInOne : Int) := by
    rw [one, hm, place?_finite, hu]
    rfl
  have hle : round false (k.units * unitsInOne) n.units ≤ one ↔
      roundUnits (k.units * unitsInOne) n.units ≤ unitsInOne := by
    have hlt : unitsInOne < unitsInLimit := hu ▸ m.bounded
    rw [le_iff_place_le (place?_round ..) hone]
    simp only [signed, Bool.false_eq_true, if_false]
    omega
  rw [hle]
  constructor
  · intro h
    by_contra hlt
    unfold unitsInOne at h
    generalize hj : 1074 = j at h
    have := two_pow_lt_roundUnits k.representable n.representable hpos (not_le.1 hlt) (show 52 ≤ j by omega)
    omega
  · intro h
    apply roundUnits_le hpos (hu ▸ m.representable)
    rw [Nat.mul_comm]
    exact Nat.mul_le_mul_left _ h

theorem isNaN_round (s : Bool) (num den : Nat) : (round s num den).isNaN = false := by
  unfold round
  split_ifs <;> rfl

def multiple (distance tolerance : Binary64) : Binary64 :=
  if (distance / tolerance).isNaN then infinity else distance / tolerance

theorem isNaN_multiple (d t : Binary64) : (multiple d t).isNaN = false := by
  unfold multiple
  split_ifs with h
  · rfl
  · exact Bool.not_eq_true _ ▸ h

theorem multiple_finite (k n : Magnitude) : multiple (finite false k) (finite false n) =
    if n.units = 0 then infinity else round false (k.units * unitsInOne) n.units := by
  have hq : finite false k / finite false n = if n.units = 0 then if k.units = 0 then invalid else infinity
      else round false (k.units * unitsInOne) n.units := rfl
  unfold multiple
  rw [hq]
  by_cases hn : n.units = 0
  · by_cases hk : k.units = 0
    · simp only [hn, hk, if_true]
      rfl
    · simp only [hn, hk, if_true, if_false]
      rfl
  · simp only [hn, if_false, isNaN_round, Bool.false_eq_true]

theorem multiple_of_not_finite {d : Binary64} (hd : d.isFinite = false) (n : Magnitude) :
    multiple d.abs (finite false n) = infinity := by
  cases d with
  | nan s => rfl
  | infinite s => rfl
  | finite s k => cases hd

theorem abs_finite (s : Bool) (m : Magnitude) : (finite s m).abs = finite false m := rfl

theorem finite_false_le_iff {k n : Magnitude} : finite false k ≤ finite false n ↔ k.units ≤ n.units := by
  rw [le_iff_place_le (place?_finite _ _) (place?_finite _ _)]
  simp [signed]

theorem zero_lt_finite_iff {n : Magnitude} : zero < finite false n ↔ n.units ≠ 0 := by
  simp [lt_iff, zero, place?_finite, signed, Magnitude.zero, Nat.pos_iff_ne_zero]

theorem not_infinity_le_finite (s : Bool) (n : Magnitude) : ¬infinity ≤ finite s n := by
  rw [le_iff_place_le rfl (place?_finite s n)]
  exact not_le.2 (abs_signed_lt s n).2

theorem multiple_le_one_iff (d : Binary64) (n : Magnitude) :
    multiple d.abs (finite false n) ≤ one ↔ zero < finite false n ∧ d.abs ≤ finite false n := by
  obtain ⟨o, ho, -⟩ := exists_ofNat (n := 1) (by decide)
  have hone : ¬infinity ≤ one := by
    rw [one, ho]
    exact not_infinity_le_finite false o
  by_cases hd : d.isFinite = true
  · obtain ⟨s, k, rfl⟩ := exists_finite hd
    rw [abs_finite, multiple_finite, zero_lt_finite_iff, finite_false_le_iff]
    by_cases hn : n.units = 0
    · simp [hn, hone]
    · rw [if_neg hn, round_le_one_iff hn]
      simp [hn]
  · rw [multiple_of_not_finite (Bool.not_eq_true _ ▸ hd)]
    refine iff_of_false hone fun h => ?_
    cases d with
    | nan s =>
      obtain ⟨x, -, hx, -⟩ := le_iff.1 h.2
      cases hx
    | infinite s => exact not_infinity_le_finite false n h.2
    | finite s k => exact hd rfl

theorem multiple_le_multiple (d : Binary64) {m n : Magnitude} (h : m.units ≤ n.units) :
    multiple d.abs (finite false n) ≤ multiple d.abs (finite false m) := by
  by_cases hd : d.isFinite = true
  · obtain ⟨s, k, rfl⟩ := exists_finite hd
    by_cases hm : m.units = 0
    · have htop : multiple (finite s k).abs (finite false m) = infinity := by
        rw [abs_finite, multiple_finite, if_pos hm]
      rw [htop]
      exact le_infinity (isNaN_multiple _ _)
    · have hn : n.units ≠ 0 := by omega
      rw [abs_finite, multiple_finite, multiple_finite, if_neg hm, if_neg hn,
        le_iff_place_le (place?_round ..) (place?_round ..)]
      have hr := roundUnits_mono (Nat.pos_of_ne_zero hn) (Nat.pos_of_ne_zero hm)
        (Nat.mul_le_mul_left (k.units * unitsInOne) h)
      simp only [signed, Bool.false_eq_true, if_false]
      omega
  · have hd := Bool.not_eq_true _ ▸ hd
    rw [multiple_of_not_finite hd, multiple_of_not_finite hd]
    exact le_infinity rfl

end Binary64

def Feature.excess (f : Feature) (x : Binary64) : Binary64 := multiple (x - f.centre).abs f.tolerance

namespace Band

theorem worse_eq_maxNum (score ratio : Binary64) :
    worse score ratio = score.maxNum (if ratio.isNaN then infinity else ratio) := by
  unfold worse
  split_ifs with h
  · exact (maxNum_infinity score).symm
  · rfl

theorem zipWith_excess (b : Band) (x : List Binary64) : b.features.zipWith Feature.excess x =
    (b.features.zipWith Feature.ratio x).map fun r => if r.isNaN then infinity else r := by
  rw [List.map_zipWith]
  rfl

theorem score_map_eq {a b : Band} {φ : Binary64 → Binary64}
    (h : List.Forall₂ (fun f g => ∀ v, f.ratio (φ v) = g.ratio v) a.features b.features) (x : List Binary64) :
    a.score (x.map φ) = b.score x := by
  have hratios : a.features.zipWith Feature.ratio (x.map φ) = b.features.zipWith Feature.ratio x := by
    generalize a.features = fs, b.features = gs at h
    induction h generalizing x with
    | nil => rfl
    | cons hfg _ ih =>
      cases x with
      | nil => rfl
      | cons v x => exact congrArg₂ List.cons (hfg v) (ih x)
  rw [score, score, List.length_map, width, width, h.length_eq, hratios]

theorem score_eq_foldl {b : Band} {x : List Binary64} (h : x.length = b.width) :
    b.score x = (b.features.zipWith Feature.excess x).foldl maxNum zero := by
  rw [score, if_pos h, zipWith_excess, List.foldl_map]
  simp only [← worse_eq_maxNum]

theorem isNaN_of_mem_excesses {b : Band} {x : List Binary64} :
    ∀ e ∈ b.features.zipWith Feature.excess x, e.isNaN = false :=
  forall_mem_zipWith_iff.2 fun _ _ => isNaN_multiple _ _

theorem score_le_iff {b : Band} {x : List Binary64} (h : x.length = b.width) {c : Binary64} (hc : zero ≤ c) :
    b.score x ≤ c ↔ ∀ e ∈ b.features.zipWith Feature.excess x, e ≤ c := by
  rw [score_eq_foldl h, foldl_maxNum_le_iff rfl isNaN_of_mem_excesses, and_iff_right hc]

theorem zero_le_score (b : Band) (x : List Binary64) : zero ≤ b.score x := by
  by_cases h : x.length = b.width
  · rw [score_eq_foldl h]
    exact le_foldl_maxNum rfl isNaN_of_mem_excesses
  · rw [score, if_neg h]
    exact le_infinity rfl

theorem contains_iff {b : Band} {x : List Binary64} :
    b.contains x = true ↔ x.length = b.width ∧ ∀ e ∈ b.features.zipWith Feature.excess x, e ≤ one := by
  unfold contains
  rw [decide_eq_true_eq]
  by_cases h : x.length = b.width
  · rw [score_le_iff h (by decide +kernel), and_iff_right h]
  · rw [score, if_neg h]
    exact iff_of_false (by decide +kernel) fun hx => h hx.1

end Band

end OutlierBand
