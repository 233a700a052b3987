import OutlierBand.Classifier
import OutlierBand.Proofs.OpenBand
import OutlierBand.Proofs.SampleDefects

namespace OutlierBand

open Binary64

theorem told_checkSensitivity {s : Binary64} {report : Report} : told (checkSensitivity s) = some report ↔
    ¬(zero < s ∧ s < one) ∧ report = .invalidParameter "sensitivity" s!"must be in (0, 1), got {s.text}" := by
  unfold checkSensitivity
  split_ifs with hs
  · simp [told, hs]
  · simp only [told, Fault.report, Option.some.injEq, hs, not_false_eq_true, true_and]
    exact eq_comm

namespace Config

variable {c : Config} {xs : Samples}

def fits (c : Config) (column : Summary) : Bool := column.centre.isFinite && (c.scaledDeviation column).isFinite

theorem isFinite_feature {s : Binary64} (hs : checkSensitivity s = .ok ()) (column : Summary) :
    (c.feature s column).isFinite = c.fits column := by
  rw [Feature.isFinite, tolerance_feature, isFinite_sensitivity_mul hs]
  rfl

def checkSummaries (c : Config) (xs : Samples) : Except Fault Unit :=
  match (xs.summaries c.reference).findIdx? (!c.fits ·) with
  | some j => .error (.overflow j)
  | none => .ok ()

theorem told_checkSummaries {report : Report} : told (c.checkSummaries xs) = some report ↔
    ∃ j column, First (c.fits · = false) (xs.summaries c.reference) j column ∧
      report = .invalidInput s!"samples overflow the band statistics at column {j}" := by
  have hfirst {j : Nat} : (∃ column, First (c.fits · = false) (xs.summaries c.reference) j column) ↔
      (xs.summaries c.reference).findIdx? (!c.fits ·) = some j := exists_first_iff_findIdx? fun column => by simp
  unfold checkSummaries
  split
  next j hj =>
    constructor
    · intro h
      cases h
      obtain ⟨column, hcolumn⟩ := hfirst.2 hj
      exact ⟨j, column, hcolumn, rfl⟩
    · rintro ⟨k, column, hcolumn, rfl⟩
      cases hj.symm.trans (hfirst.1 ⟨column, hcolumn⟩)
      rfl
  next hnone =>
    refine iff_of_false (by simp [told]) ?_
    rintro ⟨k, column, hcolumn, -⟩
    cases hnone.symm.trans (hfirst.1 ⟨column, hcolumn⟩)

end Config

theorem Band.fit_eq_checks (xs : Samples) (s : Binary64) (c : Config) : fit xs s c = (do
    checkSensitivity s
    xs.check
    c.checkSummaries xs
    .ok ⟨(xs.summaries c.reference).map (c.feature s), s, xs.height⟩) := by
  unfold fit
  cases hs : checkSensitivity s with
  | error fault => rfl
  | ok =>
    -- What is looked at is the product with the sensitivity, which is finite when the other factor is.
    have hfits : (fun column => !(c.feature s column).isFinite) = (!c.fits ·) := by
      funext column
      rw [Config.isFinite_feature hs]
    simp only [List.findIdx?_map, Function.comp_def, hfits, Config.checkSummaries]
    cases xs.check with
    | error fault => rfl
    | ok =>
      cases (xs.summaries c.reference).findIdx? (!c.fits ·) <;> rfl

inductive FitRefusal (c : Config) (s : Binary64) (xs : Samples) : Report → Prop
  | sensitivity (hs : ¬(zero < s ∧ s < one)) :
    FitRefusal c s xs (.invalidParameter "sensitivity" s!"must be in (0, 1), got {s.text}")
  | defect {report : Report} (hs : zero < s ∧ s < one) (h : xs.Defect report) : FitRefusal c s xs report
  | overflow {j : Nat} {column : Summary} (hs : zero < s ∧ s < one) (hxs : ∀ report, ¬xs.Defect report)
    (h : First (c.fits · = false) (xs.summaries c.reference) j column) :
    FitRefusal c s xs (.invalidInput s!"samples overflow the band statistics at column {j}")

theorem Band.told_fit {xs : Samples} {s : Binary64} {c : Config} {report : Report} :
    told (fit xs s c) = some report ↔ FitRefusal c s xs report := by
  have hlast (b : Band) : told (.ok b) ≠ some report := nofun
  simp only [fit_eq_checks, told_bind, told_checkSensitivity, Samples.told_check, Config.told_checkSummaries]
  constructor
  · rintro (⟨hs, rfl⟩ | ⟨_, hs, h | ⟨_, hxs, ⟨j, column, hcolumn, rfl⟩ | ⟨_, -, h⟩⟩⟩)
    · exact .sensitivity hs
    · exact .defect (checkSensitivity_eq_ok_iff.1 hs) h
    · exact .overflow (checkSensitivity_eq_ok_iff.1 hs) (Samples.check_eq_ok_iff_defect.1 hxs) hcolumn
    · exact absurd h (hlast _)
  · intro h
    cases h with
    | sensitivity hs => exact .inl ⟨hs, rfl⟩
    | defect hs h => exact .inr ⟨(), checkSensitivity_eq_ok_iff.2 hs, .inl h⟩
    | overflow hs hxs h =>
      have hcheck := Samples.check_eq_ok_iff_defect.2 hxs
      exact .inr ⟨(), checkSensitivity_eq_ok_iff.2 hs, .inr ⟨(), hcheck, .inl ⟨_, _, h, rfl⟩⟩⟩

namespace Classifier

variable {κ : Type} [DecidableEq κ] {c : Classifier κ} {id : κ} {xs : Samples} {s t : Binary64}

theorem told_fit {report : Report} : told (c.fit id xs s) = some report ↔ FitRefusal c.config s xs report := by
  rw [fit, told_bind, Band.told_fit]
  exact or_iff_left fun ⟨_, _, h⟩ => nomatch h

inductive SameOutcome (id : κ) : Except Fault (Classifier κ × Fitting) → Except Fault (Classifier κ × Fitting) → Prop
  | fitted {c d : Classifier κ} {a b : Band} {f g : Fitting} (ha : c.band? id = some a) (hb : d.band? id = some b)
    (h : a.centres = b.centres) : SameOutcome id (.ok (c, f)) (.ok (d, g))
  | refused (fault : Fault) : SameOutcome id (.error fault) (.error fault)

theorem sameOutcome_fit (hs : checkSensitivity s = .ok ()) (ht : checkSensitivity t = .ok ()) :
    SameOutcome id (c.fit id xs s) (c.fit id xs t) := by
  rw [fit, fit, Band.fit_eq_checks, Band.fit_eq_checks, hs, ht]
  cases xs.check with
  | error fault => exact .refused fault
  | ok =>
    cases c.config.checkSummaries xs with
    | error fault => exact .refused fault
    | ok =>
      refine .fitted (Registry.find?_insert_self ..) (Registry.find?_insert_self ..) ?_
      simp [Band.centres, Config.feature]

/-- A fit of rows is refused for the first row that is not as long as the first of all; else for the sensitivity; else
for what is wrong with the samples; else for the first column of which the centre or the scaled deviation overflows; and
else for nothing. A fit of a matrix goes on from the second. Any two sensitivities between zero and one come to the
same. -/
theorem fit_outcome (c : Classifier κ) (id : κ) (s : Binary64) :
    (∀ rows, RefusedFor (c.fitRows id rows s) (Samples.RowsRefusal (FitRefusal c.config s) rows)) ∧
      (∀ xs, RefusedFor (c.fit id xs s) (FitRefusal c.config s xs)) ∧
      ∀ t, zero < s ∧ s < one → zero < t ∧ t < one →
        (∀ rows, SameOutcome id (c.fitRows id rows s) (c.fitRows id rows t)) ∧
          ∀ xs, SameOutcome id (c.fit id xs s) (c.fit id xs t) := by
  refine ⟨fun rows => refusedFor ?_, fun xs => refusedFor fun _ => told_fit, fun t hs ht => ?_⟩
  · exact Samples.told_ofRows_bind (fun xs report => told_fit) rows
  · have hsame (xs : Samples) : SameOutcome id (c.fit id xs s) (c.fit id xs t) :=
      sameOutcome_fit (checkSensitivity_eq_ok_iff.2 hs) (checkSensitivity_eq_ok_iff.2 ht)
    refine ⟨fun rows => ?_, hsame⟩
    unfold fitRows
    cases Samples.ofRows rows with
    | error fault => exact .refused fault
    | ok xs => exact hsame xs

theorem fit_outcome_ragged :
    let c : Classifier Int := .new
    told (c.fitRows 1 [[one], []] two) = some (.invalidInput "row 1 has 0 features, expected 1") ∧
      (zero < one / two ∧ one / two < one) ∧ (zero < one / two / two ∧ one / two / two < one) ∧
      SameOutcome 1 (c.fitRows 1 [[one], [two]] (one / two)) (c.fitRows 1 [[one], [two]] (one / two / two)) := by
  intro c
  have hhalf : zero < one / two ∧ one / two < one := by decide +kernel
  have hquarter : zero < one / two / two ∧ one / two / two < one := by decide +kernel
  refine ⟨?_, hhalf, hquarter, ((fit_outcome c 1 _).2.2 _ hhalf hquarter).1 _⟩
  rw [((fit_outcome c 1 two).1 _).told_iff]
  exact .ragged (Samples.firstRagged_second (by decide) [])

end Classifier

end OutlierBand
