import OutlierBand.Classifier
import OutlierBand.Proofs.BandScore
import OutlierBand.Proofs.SampleDefects

namespace OutlierBand

open Binary64

structure Band.Answers (b : Band) (rows : List (List Binary64)) (p : Prediction) : Prop where
  scores_eq : p.scores = rows.map b.score
  length_scores : p.scores.length = rows.length
  length_labels : p.labels.length = rows.length
  valid : ∀ score ∈ p.scores, score.isNaN = false ∧ zero ≤ score

theorem Band.answers_predict (b : Band) (xs : Samples) : b.Answers xs.rows (b.predict xs) := by
  have hlength : (b.predict xs).scores.length = xs.rows.length := List.length_map _
  refine ⟨rfl, hlength, (List.length_map _).trans hlength, fun score hscore => ?_⟩
  obtain ⟨x, -, rfl⟩ := List.mem_map.1 hscore
  exact ⟨isNaN_of_le (b.zero_le_score x), b.zero_le_score x⟩

namespace Classifier

variable {κ : Type} [DecidableEq κ]

theorem isFitted_iff {c : Classifier κ} {id : κ} : c.isFitted id = true ↔ ∃ b, c.band? id = some b :=
  Option.isSome_iff_exists

variable [Identifier κ]

inductive PredictRefusal (c : Classifier κ) (id : κ) (xs : Samples) : Report → Prop
  | unknown (h : c.isFitted id = false) : PredictRefusal c id xs (.unknownModel (Identifier.text id))
  | defect {report : Report} (h : c.isFitted id = true) (hxs : xs.Defect report) : PredictRefusal c id xs report
  | width {b : Band} (hb : c.band? id = some b) (hxs : ∀ report, ¬xs.Defect report) (h : xs.width ≠ b.width) :
    PredictRefusal c id xs (.invalidInput s!"expected {b.width} features, got {xs.width}")

variable {c : Classifier κ} {id : κ} {xs : Samples}

theorem told_predict {report : Report} : told (c.predict id xs) = some report ↔ c.PredictRefusal id xs report := by
  cases hb : c.band? id with
  | none =>
    have hunknown : c.isFitted id = false := congrArg Option.isSome hb
    rw [predict, hb]
    constructor
    · intro h
      cases h
      exact .unknown hunknown
    · intro h
      cases h with
      | unknown => rfl
      | defect hfitted => simp [hunknown] at hfitted
      | width hb' => simp [hb] at hb'
  | some b =>
    have hfitted : c.isFitted id = true := isFitted_iff.2 ⟨b, hb⟩
    rw [predict_of_band hb, told_bind, Samples.told_check]
    constructor
    · rintro (h | ⟨_, hcheck, h⟩)
      · exact .defect hfitted h
      · split at h
        · cases h
        · cases h
          exact .width hb (Samples.check_eq_ok_iff_defect.1 hcheck) ‹_›
    · intro h
      cases h with
      | unknown hunknown => simp [hfitted] at hunknown
      | defect _ hxs => exact .inl hxs
      | width hb' hxs hwidth =>
        obtain rfl := Option.some.inj (hb.symm.trans hb')
        exact .inr ⟨(), Samples.check_eq_ok_iff_defect.2 hxs, by rw [if_neg hwidth]; rfl⟩

theorem told_predict_unknown_iff :
    told (c.predict id xs) = some (.unknownModel (Identifier.text id)) ↔ c.isFitted id = false := by
  rw [told_predict]
  constructor
  · intro h
    cases h with
    | unknown h => exact h
    | defect _ h => cases h
  · exact .unknown

theorem predict_of_rows_eq {ys : Samples} (hrows : xs.rows = ys.rows) (hwidth : xs.width = ys.width) :
    c.predict id xs = c.predict id ys := by
  have hlayout : { xs with layout := ys.layout } = ys := Samples.ext_rows hrows hwidth rfl
  rw [← hlayout]
  rfl

theorem predictRows_of_ofRows {rows : List (List Binary64)} (h : Samples.ofRows rows = .ok xs) :
    c.predictRows id rows = c.predict id xs := by
  rw [predictRows, h]
  rfl

/-- A prediction for rows is refused for the first row that is not as long as the first of all; else for an unknown
identifier; else for what is wrong with the samples; else for their width; and else for nothing. A prediction for a
matrix goes on from the second, and does not depend on how the matrix lies in memory. -/
theorem predict_outcome (c : Classifier κ) (id : κ) :
    (∀ rows, RefusedFor (c.predictRows id rows) (Samples.RowsRefusal (c.PredictRefusal id) rows)) ∧
      (∀ xs, RefusedFor (c.predict id xs) (c.PredictRefusal id xs)) ∧
      (∀ xs, told (c.predict id xs) = some (.unknownModel (Identifier.text id)) ↔ c.isFitted id = false) ∧
      (∀ rows p, c.predictRows id rows = .ok p → ∃ b, c.band? id = some b ∧ b.Answers rows p) ∧
      (∀ xs p, c.predict id xs = .ok p → ∃ b, c.band? id = some b ∧ b.Answers xs.rows p) ∧
      ∀ xs ys : Samples, xs.rows = ys.rows → xs.width = ys.width → c.predict id xs = c.predict id ys := by
  have answers (xs : Samples) (p : Prediction) (h : c.predict id xs = .ok p) :
      ∃ b, c.band? id = some b ∧ b.Answers xs.rows p := by
    obtain ⟨b, hb, -, -, rfl⟩ := predict_eq_ok_iff.1 h
    exact ⟨b, hb, b.answers_predict xs⟩
  refine ⟨fun rows => refusedFor ?_, fun xs => refusedFor fun _ => told_predict, fun xs => told_predict_unknown_iff,
    fun rows p h => ?_, answers, fun xs ys => predict_of_rows_eq⟩
  · exact Samples.told_ofRows_bind (fun xs report => told_predict) rows
  · unfold predictRows at h
    cases hrows : Samples.ofRows rows with
    | error fault => rw [hrows] at h; cases h
    | ok xs =>
      rw [hrows] at h
      rw [← Samples.rows_ofRows hrows]
      exact answers xs p h

theorem predict_outcome_infinite :
    let huge := Decimal.toBinary64 ⟨false, 1, 308⟩
    let b : Band := ⟨[⟨huge, huge⟩], one / two, 1⟩
    let c : Classifier Int := ⟨.default, Registry.empty.insert 1 b⟩
    let xs : Samples := ⟨1, 1, [-huge], .columnMajor, rfl⟩
    told (c.predictRows 2 [[one], []]) = some (.invalidInput "row 1 has 0 features, expected 1") ∧
      told (c.predict 2 .empty) = some (.unknownModel "2") ∧
      ∃ p, c.predict 1 xs = .ok p ∧ p.scores = [infinity] := by
  intro huge b c xs
  obtain ⟨hrows, -, hunknown, -⟩ := predict_outcome c 2
  obtain ⟨-, -, -, -, hanswers, -⟩ := predict_outcome c 1
  have hb : c.band? 1 = some b := Registry.find?_insert_self ..
  have hscore : b.score [-huge] = infinity := by decide +kernel
  refine ⟨?_, (hunknown .empty).2 rfl, ?_⟩
  · rw [(hrows _).told_iff]
    exact .ragged (Samples.firstRagged_second (by decide) [])
  · have hok : c.predict 1 xs = .ok (b.predict xs) := predict_eq_ok_iff.2 ⟨b, hb, by decide +kernel, rfl, rfl⟩
    obtain ⟨a, ha, h⟩ := hanswers _ _ hok
    obtain rfl : b = a := Option.some.inj (hb.symm.trans ha)
    exact ⟨_, hok, h.scores_eq.trans (congrArg ([·]) hscore)⟩

end Classifier

end OutlierBand
