import OutlierBand.Proofs.PredictionViews

namespace OutlierBand

open Binary64

namespace Label

theorem outlierIndices_append (labels labels' : List Label) :
    outlierIndices (labels ++ labels') = outlierIndices labels ++ (outlierIndices labels').map (labels.length + ·) := by
  unfold outlierIndices
  rw [List.zipIdx_append, List.filterMap_append, Nat.zero_add, List.map_filterMap]
  -- Counting from a later place is the same as moving the places on afterwards.
  rw [List.zipIdx_eq_map_add (i := labels.length), List.filterMap_map]
  congr 2
  funext ⟨label, i⟩
  cases label <;> rfl

end Label

section

variable {α : Type} {p : α → Prop} {l l' : List α} {i : Nat} {a : α}

theorem First.append_left (h : First p l i a) (l' : List α) : First p (l ++ l') i a := by
  have hlt := (List.getElem?_eq_some_iff.1 h.getElem?).1
  refine ⟨(List.getElem?_append_left hlt).trans h.getElem?, h.holds, fun k hk b hb => ?_⟩
  rw [List.getElem?_append_left (hk.trans hlt)] at hb
  exact h.before k hk b hb

theorem First.append_right (h : First p l' i a) (hl : ∀ b ∈ l, ¬p b) : First p (l ++ l') (l.length + i) a := by
  refine ⟨?_, h.holds, fun k hk b hb => ?_⟩
  · rw [List.getElem?_append_right (Nat.le_add_right _ _), Nat.add_sub_cancel_left]
    exact h.getElem?
  · rcases Nat.lt_or_ge k l.length with hlt | hge
    · rw [List.getElem?_append_left hlt] at hb
      exact hl b (List.mem_of_getElem? hb)
    · rw [List.getElem?_append_right hge] at hb
      exact h.before _ (by omega) b hb

end

def FirstNonFinite (rows : List (List Binary64)) (i j : Nat) (x : Binary64) : Prop :=
  ∃ row, First (fun row => ∃ x ∈ row, x.isFinite = false) rows i row ∧ First (·.isFinite = false) row j x

section

variable {rows rows' : List (List Binary64)} {i j : Nat} {x : Binary64}

theorem exists_firstNonFinite (h : ∃ row ∈ rows, ∃ x ∈ row, x.isFinite = false) :
    ∃ i j x, FirstNonFinite rows i j x := by
  obtain ⟨i, row, hrow⟩ := exists_first h
  obtain ⟨j, x, hx⟩ := exists_first hrow.holds
  exact ⟨i, j, x, row, hrow, hx⟩

theorem FirstNonFinite.append_left (h : FirstNonFinite rows i j x) (rows' : List (List Binary64)) :
    FirstNonFinite (rows ++ rows') i j x := by
  obtain ⟨row, hrow, hx⟩ := h
  exact ⟨row, hrow.append_left rows', hx⟩

theorem FirstNonFinite.append_right (h : FirstNonFinite rows' i j x)
    (hrows : ∀ row ∈ rows, ∀ x ∈ row, x.isFinite = true) : FirstNonFinite (rows ++ rows') (rows.length + i) j x := by
  obtain ⟨row, hrow, hx⟩ := h
  refine ⟨row, hrow.append_right ?_, hx⟩
  rintro earlier hearlier ⟨y, hy, hbad⟩
  exact absurd (hrows earlier hearlier y hy) (by simp [hbad])

end

namespace Prediction

/-- A prediction for two batches in a row, of `m` and of `n` rows, against the predictions for each of them. -/
structure Joins (m n : Nat) (p q r : Prediction) : Prop where
  scores_eq : r.scores = p.scores ++ q.scores
  labels_eq : r.labels = p.labels ++ q.labels
  outliers_eq : r.outliers = p.outliers ++ q.outliers.map (m + ·)
  confidence_eq : r.confidence = ofNat (p.labels.count .inlier + q.labels.count .inlier) / ofNat (m + n)
  confidence_eq_nearest : m + n ≤ 2 ^ 53 →
    r.confidence = nearest false ((p.labels.count .inlier + q.labels.count .inlier) / (m + n))

theorem joins_append {p q : Prediction} {m n : Nat} (hp : p.scores.length = m) (hq : q.scores.length = n)
    (h0 : m + n ≠ 0) : Joins m n p q ⟨p.scores ++ q.scores⟩ := by
  have hlabels : labels ⟨p.scores ++ q.scores⟩ = p.labels ++ q.labels := List.map_append
  have hm : p.labels.length = m := (List.length_map _).trans hp
  have hn : q.labels.length = n := (List.length_map _).trans hq
  have hlength : (p.labels ++ q.labels).length = m + n := by rw [List.length_append, hm, hn]
  have hconfidence : confidence ⟨p.scores ++ q.scores⟩ =
      ofNat (p.labels.count .inlier + q.labels.count .inlier) / ofNat (m + n) := by
    have hne : p.labels ++ q.labels ≠ [] := by
      rw [ne_eq, ← List.length_eq_zero_iff, hlength]
      exact h0
    rw [confidence, hlabels, Label.inlierFraction, if_neg hne, hlength, List.count_append]
  refine ⟨rfl, hlabels, ?_, hconfidence, fun hsize => ?_⟩
  · rw [outliers, hlabels, Label.outlierIndices_append, hm]
    rfl
  · have hp : p.labels.count .inlier ≤ m := List.count_le_length.trans_eq hm
    have hq : q.labels.count .inlier ≤ n := List.count_le_length.trans_eq hn
    rw [hconfidence, ofNat_div_ofNat ((Nat.add_le_add hp hq).trans hsize) hsize h0, Nat.cast_add, Nat.cast_add]

end Prediction

namespace Classifier

variable {κ : Type} [DecidableEq κ] [Identifier κ] {c : Classifier κ} {id : κ} {b : Band} {width : Nat}
  {rows : List (List Binary64)}

theorem predictRows_of_firstNonFinite (hb : c.band? id = some b) (h0 : 0 < width)
    (hwidth : ∀ row ∈ rows, row.length = width) {i j : Nat} {x : Binary64} (h : FirstNonFinite rows i j x) :
    c.predictRows id rows = .error (.nonFinite x i j) := by
  have hne : rows ≠ [] := by
    rintro rfl
    obtain ⟨row, hrow, -⟩ := h
    cases hrow.getElem?
  obtain ⟨xs, hxs, hrows, hheight, hw⟩ := Samples.exists_ofRows hne hwidth
  have hplace := Samples.nonFinite?_eq_some_iff.2 (hrows ▸ h)
  have hsome : ¬(xs.height = 0 ∨ xs.width = 0) := not_or.2 ⟨hheight, hw ▸ h0.ne'⟩
  rw [predictRows_of_ofRows hxs, predict_of_band hb, Samples.check, if_neg hsome, hplace]
  rfl

theorem predictRows_of_finite (hb : c.band? id = some b) (h0 : 0 < width) (hne : rows ≠ [])
    (hwidth : ∀ row ∈ rows, row.length = width) (h : ∀ row ∈ rows, ∀ x ∈ row, x.isFinite = true) :
    c.predictRows id rows =
      if width = b.width then .ok ⟨rows.map b.score⟩ else .error (.wrongWidth b.width width) := by
  obtain ⟨xs, hxs, rfl, hheight, rfl⟩ := Samples.exists_ofRows hne hwidth
  have hcheck : xs.check = .ok () := by
    refine Samples.check_eq_ok_iff.2 ⟨⟨hheight, h0.ne'⟩, fun x hx => ?_⟩
    rw [← xs.flatten_rows] at hx
    obtain ⟨row, hrow, hxrow⟩ := List.mem_flatten.1 hx
    exact h row hrow x hxrow
  rw [predictRows_of_ofRows hxs, predict_of_band hb, hcheck]
  rfl

theorem predictRows_eq_ok_iff (hb : c.band? id = some b) (h0 : 0 < width) (hne : rows ≠ [])
    (hwidth : ∀ row ∈ rows, row.length = width) {p : Prediction} : c.predictRows id rows = .ok p ↔
      (∀ row ∈ rows, ∀ x ∈ row, x.isFinite = true) ∧ width = b.width ∧ p = ⟨rows.map b.score⟩ := by
  by_cases hfinite : ∀ row ∈ rows, ∀ x ∈ row, x.isFinite = true
  · rw [predictRows_of_finite hb h0 hne hwidth hfinite]
    split_ifs with hw
    · exact ⟨fun h => ⟨hfinite, hw, (Except.ok.inj h).symm⟩, fun h => congrArg Except.ok h.2.2.symm⟩
    · exact iff_of_false (fun h => by cases h) fun h => hw h.2.1
  · have hbad : ∃ row ∈ rows, ∃ x ∈ row, x.isFinite = false := by simpa using hfinite
    obtain ⟨i, j, x, hfirst⟩ := exists_firstNonFinite hbad
    rw [predictRows_of_firstNonFinite hb h0 hwidth hfirst]
    exact iff_of_false (fun h => by cases h) fun h => hfinite h.1

structure Splits (c : Classifier κ) (id : κ) (b : Band) (width : Nat) (as bs : List (List Binary64)) : Prop where
  ok_iff : (∃ r, c.predictRows id (as ++ bs) = .ok r) ↔
    (∃ p, c.predictRows id as = .ok p) ∧ ∃ q, c.predictRows id bs = .ok q
  joins : ∀ p q r, c.predictRows id as = .ok p → c.predictRows id bs = .ok q →
    c.predictRows id (as ++ bs) = .ok r → Prediction.Joins as.length bs.length p q r
  bad_first : (∃ row ∈ as, ∃ x ∈ row, x.isFinite = false) →
    ∃ fault, c.predictRows id as = .error fault ∧ c.predictRows id (as ++ bs) = .error fault
  bad_second : (∀ row ∈ as, ∀ x ∈ row, x.isFinite = true) → ∀ i j x, FirstNonFinite bs i j x →
    told (c.predictRows id bs) = some (.invalidInput s!"non-finite value {x.text} at row {i}, column {j}") ∧
      told (c.predictRows id (as ++ bs)) =
        some (.invalidInput s!"non-finite value {x.text} at row {as.length + i}, column {j}")
  bad_width : (∀ row ∈ as ++ bs, ∀ x ∈ row, x.isFinite = true) →
    ∀ report, told (c.predictRows id (as ++ bs)) = some report →
      report = .invalidInput s!"expected {b.width} features, got {width}" ∧
        told (c.predictRows id as) = some report ∧ told (c.predictRows id bs) = some report

theorem predictRows_append {as bs : List (List Binary64)} (hb : c.band? id = some b) (h0 : 0 < width) (has : as ≠ [])
    (hbs : bs ≠ []) (hwidth : ∀ row ∈ as ++ bs, row.length = width) : c.Splits id b width as bs := by
  have hne : as ++ bs ≠ [] := List.append_ne_nil_of_left_ne_nil has bs
  have hsum : as.length + bs.length ≠ 0 := by
    rw [← List.length_append]
    exact mt List.length_eq_zero_iff.1 hne
  obtain ⟨haw, hbw⟩ := List.forall_mem_append.1 hwidth
  constructor
  case ok_iff =>
    simp only [predictRows_eq_ok_iff hb h0 hne hwidth, predictRows_eq_ok_iff hb h0 has haw,
      predictRows_eq_ok_iff hb h0 hbs hbw, exists_and_left, exists_eq, and_true, List.forall_mem_append]
    tauto
  case joins =>
    intro p q r hp hq hr
    obtain ⟨-, -, rfl⟩ := (predictRows_eq_ok_iff hb h0 has haw).1 hp
    obtain ⟨-, -, rfl⟩ := (predictRows_eq_ok_iff hb h0 hbs hbw).1 hq
    obtain ⟨-, -, rfl⟩ := (predictRows_eq_ok_iff hb h0 hne hwidth).1 hr
    rw [List.map_append]
    exact Prediction.joins_append (List.length_map _) (List.length_map _) hsum
  case bad_first =>
    intro hbad
    obtain ⟨i, j, x, hx⟩ := exists_firstNonFinite hbad
    exact ⟨_, predictRows_of_firstNonFinite hb h0 haw hx,
      predictRows_of_firstNonFinite hb h0 hwidth (hx.append_left bs)⟩
  case bad_second =>
    intro hfinite i j x hx
    rw [predictRows_of_firstNonFinite hb h0 hbw hx,
      predictRows_of_firstNonFinite hb h0 hwidth (hx.append_right hfinite)]
    exact ⟨rfl, rfl⟩
  case bad_width =>
    intro hfinite report h
    obtain ⟨hfa, hfb⟩ := List.forall_mem_append.1 hfinite
    rw [predictRows_of_finite hb h0 hne hwidth hfinite] at h
    rw [predictRows_of_finite hb h0 has haw hfa, predictRows_of_finite hb h0 hbs hbw hfb]
    split_ifs at h ⊢
    · cases h
    · cases h
      exact ⟨rfl, rfl, rfl⟩

theorem predictRows_append_third_row :
    let b : Band := ⟨[⟨one, one / two⟩], one / two, 1⟩
    let c : Classifier Int := ⟨.default, Registry.empty.insert 1 b⟩
    (∃ r, c.predictRows 1 [[one], [one], [two]] = .ok r ∧ r.outliers = [2]) ∧
      told (c.predictRows 1 [[one], [one], [infinity]]) =
        some (.invalidInput "non-finite value inf at row 2, column 0") ∧
      told (c.predictRows 1 [[one, two]]) = some (.invalidInput "expected 1 features, got 2") := by
  intro b c
  have hb : c.band? 1 = some b := Registry.find?_insert_self ..
  have hgood : c.Splits 1 b 1 [[one], [one]] [[two]] := predictRows_append hb Nat.one_pos (by simp) (by simp) (by simp)
  have hbad : c.Splits 1 b 1 [[one], [one]] [[infinity]] :=
    predictRows_append hb Nat.one_pos (by simp) (by simp) (by simp)
  have hwide : c.Splits 1 b 2 [[one, one], [one, one]] [[one, two]] :=
    predictRows_append hb Nat.two_pos (by simp) (by simp) (by simp)
  have hfirst : FirstNonFinite [[infinity]] 0 0 infinity :=
    ⟨[infinity], ⟨rfl, ⟨infinity, List.mem_cons_self, rfl⟩, by simp⟩, rfl, rfl, by simp⟩
  have hp : c.predictRows 1 [[one], [one]] = .ok ⟨[zero, zero]⟩ :=
    (predictRows_eq_ok_iff hb Nat.one_pos (by simp) (by simp)).2 ⟨by decide +kernel, rfl, by decide +kernel⟩
  have hq : c.predictRows 1 [[two]] = .ok ⟨[two]⟩ :=
    (predictRows_eq_ok_iff hb Nat.one_pos (by simp) (by simp)).2 ⟨by decide +kernel, rfl, by decide +kernel⟩
  have hrefused : told (c.predictRows 1 ([[one, one], [one, one]] ++ [[one, two]])) =
      some (.invalidInput "expected 1 features, got 2") := by
    rw [predictRows_of_finite hb Nat.two_pos (by simp) (by simp) (by decide +kernel)]
    decide +kernel
  obtain ⟨r, hr⟩ := hgood.ok_iff.2 ⟨⟨_, hp⟩, _, hq⟩
  have houtliers := (hgood.joins _ _ r hp hq hr).outliers_eq.trans (by decide +kernel : _ = [2])
  exact ⟨⟨r, hr, houtliers⟩, (hbad.bad_second (by decide +kernel) 0 0 infinity hfirst).2,
    (hwide.bad_width (by decide +kernel) _ hrefused).2.2⟩

end Classifier

end OutlierBand
