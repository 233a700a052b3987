import OutlierBand.Classifier
import OutlierBand.Proofs.ConstantColumn
import OutlierBand.Proofs.FittedBand
import OutlierBand.Proofs.InlierShare
import OutlierBand.Proofs.MeanAccuracy

/-!
A band fitted to copies of one row. It takes the row in when each tolerance is above zero and not less than the error
of the centre; with medians there is no such error, and with means it is small next to any but the least
sensitivities.
-/

namespace OutlierBand

open Binary64

namespace Samples

def copies (n : Nat) (row : List Binary64) : Samples :=
  ⟨n, row.length, (List.replicate n row).flatten, .rowMajor, by simp⟩

variable {n : Nat} {row : List Binary64}

theorem ofRows_replicate (hn : n ≠ 0) : ofRows (List.replicate n row) = .ok (copies n row) := by
  have hne : List.replicate n row ≠ [] := by rwa [ne_eq, List.replicate_eq_nil_iff]
  rw [ofRows_of_length hne fun r hr => congrArg List.length (List.eq_of_mem_replicate hr)]
  simp only [List.length_replicate, copies]

theorem rows_copies (hn : n ≠ 0) : (copies n row).rows = List.replicate n row := rows_ofRows (ofRows_replicate hn)

theorem columns_copies (hn : n ≠ 0) : (copies n row).columns = row.map (List.replicate n) := by
  apply List.ext_getElem
  · simp [columns, copies]
  · intro j hj hj'
    have hrow : j < row.length := by rwa [List.length_map] at hj'
    simp only [columns, List.getElem_map, List.getElem_range, column, rows_copies hn]
    exact List.filterMap_replicate_of_some (List.getElem?_eq_getElem hrow)

theorem summaries_copies (hn : n ≠ 0) (statistic : Statistic) : (copies n row).summaries statistic =
    row.map fun x => statistic.summary Statistics.sum (List.replicate n x) := by
  rw [summaries, columns_copies hn, List.map_map]
  rfl

theorem check_copies (hn : n ≠ 0) :
    (copies n row).check = .ok () ↔ row ≠ [] ∧ ∀ x ∈ row, x.isFinite = true := by
  rw [check_eq_ok_iff]
  simp only [copies, List.mem_flatten, List.mem_replicate]
  constructor
  · rintro ⟨⟨-, hwidth⟩, hfinite⟩
    exact ⟨List.ne_nil_of_length_pos (Nat.pos_of_ne_zero hwidth), fun x hx => hfinite x ⟨row, ⟨hn, rfl⟩, hx⟩⟩
  · rintro ⟨hrow, hfinite⟩
    refine ⟨⟨hn, (List.length_pos_iff.2 hrow).ne'⟩, ?_⟩
    rintro x ⟨r, ⟨-, rfl⟩, hx⟩
    exact hfinite x hx

end Samples

namespace Config

/-- A band fitted to copies of a number takes it in: there is room, and the error of the centre is within it. -/
def Recovers (c : Config) (s : Binary64) (n : Nat) (x : Binary64) : Prop :=
  let centre := c.reference.centreOfCopies n x
  let tolerance := s * centre.abs.maxNum c.minTolerance
  zero < tolerance ∧ (x - centre).abs ≤ tolerance

instance (c : Config) (s : Binary64) (n : Nat) (x : Binary64) : Decidable (c.Recovers s n x) :=
  inferInstanceAs (Decidable (_ ∧ _))

variable {c : Config} {s x : Binary64} {n : Nat}

theorem excess_copies_le_one_iff (hc : c.validate = .ok ()) (hs : checkSensitivity s = .ok ()) (h0 : n ≠ 0)
    (hn : n < 2 ^ 64) (hx : x.isFinite = true)
    (h : (c.feature s (c.reference.summary Statistics.sum (List.replicate n x))).isFinite = true) :
    (c.feature s (c.reference.summary Statistics.sum (List.replicate n x))).excess x ≤ one ↔ c.Recovers s n x := by
  have hcentre := (isFinite_of_isFinite_feature h).1
  obtain ⟨z, hz⟩ := c.reference.dispersion_replicate h0 hn hx hcentre
  have htolerance : (c.feature s (c.reference.summary Statistics.sum (List.replicate n x))).tolerance =
      s * (c.reference.centreOfCopies n x).abs.maxNum c.minTolerance := by
    have hscaled := scaledDeviation_of_zero hc hcentre z
    rw [← hz] at hscaled
    exact congrArg (s * ·) hscaled
  obtain ⟨m, hm⟩ := exists_tolerance hc hs (c.reference.value_dispersion_nonneg _ _) h
  rw [Feature.excess, hm, multiple_le_one_iff, ← hm, htolerance]
  rfl

theorem recovers_median_iff (hmedian : c.reference = .median) (hc : c.validate = .ok ())
    (hs : checkSensitivity s = .ok ()) (h0 : n ≠ 0) (hx : x.isFinite = true)
    (h : (c.reference.centreOfCopies n x).isFinite = true) :
    c.Recovers s n x ↔ halfUnit < s.value * max |x.value| c.minTolerance.value := by
  obtain ⟨-, hleast, -⟩ := validate_eq_ok_iff.1 hc
  have habs : x.abs.isFinite = true := by rwa [isFinite_abs]
  have hexact : c.reference.centreOfCopies n x = x := by
    rw [hmedian] at h ⊢
    exact Statistic.centreOfCopies_median h0 hx h
  have hroom : zero < s * x.abs.maxNum c.minTolerance ↔ halfUnit < s.value * max |x.value| c.minTolerance.value := by
    rw [zero_lt_mul_iff (isFinite_of_checkSensitivity hs) (isFinite_maxNum habs hleast), value_maxNum habs hleast,
      value_abs]
  simp only [Recovers, hexact, abs_sub_self hx, ← hroom]
  exact and_iff_left_of_imp le_of_lt

theorem abs_centreOfCopies_sub_le (statistic : Statistic) (h0 : n ≠ 0) (hn : n ≤ 2 ^ 53) (hx : x.isFinite = true)
    (h : (statistic.centreOfCopies n x).isFinite = true) :
    |(statistic.centreOfCopies n x).value - x.value| ≤ (n + 2) * roundoff * |x.value| + halfUnit := by
  cases statistic with
  | median =>
    have hscale : 0 ≤ (n + 2) * roundoff * |x.value| :=
      mul_nonneg (mul_nonneg (by positivity) roundoff_pos.le) (abs_nonneg _)
    rw [Statistic.centreOfCopies_median h0 hx h, sub_self, abs_zero]
    exact add_nonneg hscale halfUnit_pos.le
  | mean =>
    have hne : List.replicate n x ≠ [] := by rwa [ne_eq, List.replicate_eq_nil_iff]
    have hcopies : ∀ y ∈ List.replicate n x, |y.value| ≤ |x.value| := fun y hy => by rw [List.eq_of_mem_replicate hy]
    unfold Statistic.centreOfCopies at h ⊢
    rw [Statistic.centre_mean hne] at h ⊢
    have herror := Statistics.abs_value_mean_sub_le (Statistics.adds_sum _) hne (by simpa using hn) hcopies h
    rw [Statistics.exactMean_replicate h0] at herror
    simp only [List.length_replicate] at herror ⊢
    have hmore := mul_nonneg roundoff_pos.le (abs_nonneg x.value)
    linarith

theorem recovers_of_large (hc : c.validate = .ok ()) (hs : checkSensitivity s = .ok ()) (h0 : n ≠ 0)
    (hx : x.isFinite = true) (h : (c.reference.centreOfCopies n x).isFinite = true)
    (hlarge : (n + 2 : ℚ) ≤ 2 ^ 51 * s.value) (hroom : 2 * halfUnit ≤ s.value * c.minTolerance.value) :
    c.Recovers s n x := by
  obtain ⟨-, hleast, -⟩ := validate_eq_ok_iff.1 hc
  obtain ⟨hspos, hsone⟩ := checkSensitivity_eq_ok_iff.1 hs
  have hsf := isFinite_of_checkSensitivity hs
  rw [zero_lt_iff hsf] at hspos
  rw [lt_iff_value_lt hsf isFinite_one, value_one] at hsone
  have hn : n ≤ 2 ^ 53 := by
    have hn' : (n : ℚ) ≤ 2 ^ 53 := by linarith
    exact_mod_cast hn'
  have herror := abs_centreOfCopies_sub_le c.reference h0 hn hx h
  unfold Recovers
  generalize c.reference.centreOfCopies n x = m at h herror ⊢
  have habs : m.abs.isFinite = true := by rwa [isFinite_abs]
  have hmax := isFinite_maxNum habs hleast
  have hvalue : (m.abs.maxNum c.minTolerance).value = max |m.value| c.minTolerance.value := by
    rw [value_maxNum habs hleast, value_abs]
  have hwithin : |x.value - m.value| ≤ s.value * max |m.value| c.minTolerance.value := by
    apply abs_sub_le_of_error _ hsone.le hroom hspos.le herror
    rw [roundoff]
    linarith
  dsimp only
  constructor
  · rw [zero_lt_mul_iff hsf hmax, hvalue]
    have := mul_le_mul_of_nonneg_left (le_max_right |m.value| c.minTolerance.value) hspos.le
    linarith [halfUnit_pos]
  · obtain ⟨y, hy⟩ := exists_sub_eq_nearest hx h
    obtain ⟨z, hz⟩ := exists_mul_eq_nearest hsf hmax
    rw [hy, hz, hvalue]
    exact abs_nearest_le z y hwithin

end Config

namespace Band

variable {c : Config} {s : Binary64} {n : Nat} {row : List Binary64} {b : Band}

theorem contains_copies_iff (hc : c.validate = .ok ()) (h0 : n ≠ 0) (hn : n < 2 ^ 64)
    (h : fit (.copies n row) s c = .ok b) : b.contains row = true ↔ ∀ x ∈ row, c.Recovers s n x := by
  obtain ⟨hs, hcheck, hfinite, rfl⟩ := fit_eq_ok_iff.1 h
  obtain ⟨-, hrow⟩ := (Samples.check_copies h0).1 hcheck
  simp only [Samples.summaries_copies h0, List.forall_mem_map] at hfinite
  rw [contains_iff]
  simp only [width, Samples.summaries_copies h0, List.map_map, List.length_map, true_and, List.zipWith_map_left,
    List.zipWith_self, List.forall_mem_map, Function.comp_apply]
  apply forall₂_congr
  intro x hx
  exact Config.excess_copies_le_one_iff hc hs h0 hn (hrow x hx) (hfinite x hx)

theorem isFinite_of_fit_copies (h0 : n ≠ 0) (h : fit (.copies n row) s c = .ok b) {x : Binary64} (hx : x ∈ row) :
    x.isFinite = true ∧ (c.reference.centreOfCopies n x).isFinite = true := by
  obtain ⟨-, hcheck, hfinite, -⟩ := fit_eq_ok_iff.1 h
  simp only [Samples.summaries_copies h0, List.forall_mem_map] at hfinite
  exact ⟨((Samples.check_copies h0).1 hcheck).2 x hx, (Config.isFinite_of_isFinite_feature (hfinite x hx)).1⟩

theorem confidence_copies (b : Band) (h0 : n ≠ 0) (hn : n < 2 ^ 64) :
    (b.predict (.copies n row)).confidence = if b.contains row then one else zero := by
  have hheight : (Samples.copies n row).height = n := rfl
  rw [confidence_predict b h0, Samples.rows_copies h0, List.countP_replicate, hheight]
  split_ifs
  · exact div_self_eq_one (isFinite_ofNat_of_lt hn) (value_ofNat_pos (Nat.pos_of_ne_zero h0) hn).ne'
  · exact ofNat_zero_div (Nat.pos_of_ne_zero h0) hn

theorem labels_copies_one (b : Band) :
    (b.predict (.copies 1 row)).labels = [if b.contains row then .inlier else .outlier] := by
  rw [labels_predict, Samples.rows_copies Nat.one_ne_zero, List.replicate_one, List.map_singleton, Label.ofScore]
  simp only [contains, decide_eq_true_eq]

end Band

namespace Classifier

variable {κ : Type} [DecidableEq κ] {c c' : Classifier κ} {id : κ} {row : List Binary64} {n : Nat} {s : Binary64}
  {fitting : Fitting}

theorem ne_zero_of_fitRows_replicate (h : c.fitRows id (List.replicate n row) s = .ok (c', fitting)) : n ≠ 0 := by
  rintro rfl
  have hempty : Samples.ofRows (List.replicate 0 row) = .ok .empty := rfl
  rw [fitRows, hempty] at h
  obtain ⟨b, hb, -⟩ := fit_eq_ok_iff.1 h
  exact (Samples.check_eq_ok_iff.1 (Band.fit_eq_ok_iff.1 hb).2.1).1.1 rfl

variable [Identifier κ]

def Recognises (c : Classifier κ) (id : κ) (row : List Binary64) (fitting : Fitting) : Prop :=
  fitting.confidence = one ∧ ∃ p, c.predictRows id [row] = .ok p ∧ p.labels = [.inlier] ∧ p.confidence = one

def Misses (c : Classifier κ) (id : κ) (row : List Binary64) (fitting : Fitting) : Prop :=
  fitting.confidence = zero ∧ ∃ p, c.predictRows id [row] = .ok p ∧ p.labels = [.outlier] ∧ p.confidence = zero

theorem exists_band_of_fitRows_replicate (h : c.fitRows id (List.replicate n row) s = .ok (c', fitting)) :
    ∃ b, Band.fit (.copies n row) s c.config = .ok b ∧
      fitting.confidence = (b.predict (.copies n row)).confidence ∧
      c'.predictRows id [row] = .ok (b.predict (.copies 1 row)) := by
  have h0 := ne_zero_of_fitRows_replicate h
  rw [fitRows, Samples.ofRows_replicate h0] at h
  obtain ⟨b, hb, rfl, rfl⟩ := fit_eq_ok_iff.1 h
  refine ⟨b, hb, rfl, ?_⟩
  have hband : band? ⟨c.config, c.bands.insert id b⟩ id = some b := Registry.find?_insert_self ..
  have hrow := (Samples.check_copies h0).1 (Band.fit_eq_ok_iff.1 hb).2.1
  have hcheck := (Samples.check_copies Nat.one_ne_zero).2 hrow
  have hwidth : (Samples.copies 1 row).width = b.width := (Band.width_of_fit hb).symm
  rw [predictRows, ← List.replicate_one, Samples.ofRows_replicate Nat.one_ne_zero]
  exact predict_eq_ok_iff.2 ⟨b, hband, hcheck, hwidth, rfl⟩

theorem recognises_or_misses (hn : n < 2 ^ 64) (h0 : n ≠ 0) {b : Band}
    (hconfidence : fitting.confidence = (b.predict (.copies n row)).confidence)
    (hpredict : c'.predictRows id [row] = .ok (b.predict (.copies 1 row))) :
    if b.contains row then c'.Recognises id row fitting else c'.Misses id row fitting := by
  have hfit : (b.predict (.copies n row)).confidence = _ := b.confidence_copies h0 hn
  have hagain : (b.predict (.copies 1 row)).confidence = _ := b.confidence_copies Nat.one_ne_zero (by decide)
  have hlabels : (b.predict (.copies 1 row)).labels = _ := b.labels_copies_one
  split_ifs with hin
  · rw [if_pos hin] at hfit hagain hlabels
    exact ⟨hconfidence.trans hfit, _, hpredict, hlabels, hagain⟩
  · rw [if_neg hin] at hfit hagain hlabels
    exact ⟨hconfidence.trans hfit, _, hpredict, hlabels, hagain⟩

/-- Copies of a row are recognised exactly when every number in it is recovered, and missed otherwise. With medians
this fails only where a tolerance is rounded to zero; with either statistic it holds for sensitivities that are not
tiny next to the number of copies and to the least tolerance. There are at most as many copies as a machine word can
count. -/
theorem recognises_copies_iff (hc : c.config.validate = .ok ()) (hn : n < 2 ^ 64)
    (h : c.fitRows id (List.replicate n row) s = .ok (c', fitting)) :
    (c'.Recognises id row fitting ↔ ∀ x ∈ row, c.config.Recovers s n x) ∧
      (¬c'.Recognises id row fitting → c'.Misses id row fitting) ∧
      (c.config.reference = .median → (c'.Recognises id row fitting ↔
        ∀ x ∈ row, halfUnit < s.value * max |x.value| c.config.minTolerance.value)) ∧
      ((n + 2 : ℚ) ≤ 2 ^ 51 * s.value → 2 * halfUnit ≤ s.value * c.config.minTolerance.value →
        c'.Recognises id row fitting) := by
  have h0 := ne_zero_of_fitRows_replicate h
  obtain ⟨b, hb, hconfidence, hpredict⟩ := exists_band_of_fitRows_replicate h
  have hs := (Band.fit_eq_ok_iff.1 hb).1
  have hcontains := Band.contains_copies_iff hc h0 hn hb
  have heither := recognises_or_misses hn h0 hconfidence hpredict
  have hrecognises : c'.Recognises id row fitting ↔ ∀ x ∈ row, c.config.Recovers s n x := by
    rw [← hcontains]
    constructor
    · intro hrecognised
      by_contra hout
      rw [if_neg hout] at heither
      have hne : one ≠ zero := by decide +kernel
      exact hne (hrecognised.1.symm.trans heither.1)
    · intro hin
      rwa [if_pos hin] at heither
  refine ⟨hrecognises, ?_, ?_, ?_⟩
  · intro hnot
    rw [hrecognises, ← hcontains] at hnot
    rwa [if_neg hnot] at heither
  · intro hmedian
    rw [hrecognises]
    apply forall₂_congr
    intro x hx
    obtain ⟨hfinite, hcentre⟩ := Band.isFinite_of_fit_copies h0 hb hx
    exact Config.recovers_median_iff hmedian hc hs h0 hfinite hcentre
  · intro hlarge hroom
    rw [hrecognises]
    intro x hx
    obtain ⟨hfinite, hcentre⟩ := Band.isFinite_of_fit_copies h0 hb hx
    exact Config.recovers_of_large hc hs h0 hfinite hcentre hlarge hroom

theorem recognises_copies_of_one_two :
    let c : Classifier Int := new
    c.config.validate = .ok () ∧ ∃ c' fitting,
      c.fitRows 1 (List.replicate 3 [one, two]) (one / two) = .ok (c', fitting) ∧
      c'.Recognises 1 [one, two] fitting := by
  intro c
  have hc : c.config.validate = .ok () := by decide +kernel
  refine ⟨hc, ?_⟩
  cases h : c.fitRows 1 (List.replicate 3 [one, two]) (one / two) with
  | error fault =>
    have hok : (c.fitRows 1 (List.replicate 3 [one, two]) (one / two)).toOption.isSome = true := by decide +kernel
    rw [h] at hok
    cases hok
  | ok r =>
    have hrecovers : ∀ x ∈ [one, two], c.config.Recovers (one / two) 3 x := by decide +kernel
    exact ⟨r.1, r.2, rfl, (recognises_copies_iff hc (by decide) h).1.2 hrecovers⟩

theorem misses_copies_of_tenth :
    let c : Classifier Int := new
    let tenth := Decimal.toBinary64 ⟨false, 1, -1⟩
    let s := Decimal.toBinary64 ⟨false, 1, -17⟩
    c.config.validate = .ok () ∧ checkSensitivity s = .ok () ∧ tenth.isFinite = true ∧ ∃ c' fitting,
      c.fitRows 1 (List.replicate 3 [tenth]) s = .ok (c', fitting) ∧ fitting.confidence = zero ∧
      ¬c'.Recognises 1 [tenth] fitting := by
  -- Three times `0.1` is rounded up, and so is a third of it; `1e-17` times the least tolerance has no room for
  -- that.
  intro c tenth s
  refine ⟨by decide +kernel, by decide +kernel, by decide +kernel, ?_⟩
  have hconfidence : (c.fitRows 1 (List.replicate 3 [tenth]) s).toOption.map (·.2.confidence) = some zero := by
    decide +kernel
  cases h : c.fitRows 1 (List.replicate 3 [tenth]) s with
  | error fault =>
    rw [h] at hconfidence
    cases hconfidence
  | ok r =>
    rw [h] at hconfidence
    have hzero : r.2.confidence = zero := Option.some.inj hconfidence
    refine ⟨r.1, r.2, rfl, hzero, ?_⟩
    intro hrecognised
    have hne : zero ≠ one := by decide +kernel
    exact hne (hzero.symm.trans hrecognised.1)

end Classifier

end OutlierBand
