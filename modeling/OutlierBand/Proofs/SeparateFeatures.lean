import OutlierBand.Proofs.OpenBand
import OutlierBand.Proofs.SampleDefects
import Mathlib.Order.Bounds.Defs

/-!
The features of a band know nothing of each other. Where a matrix is summed column by column in the order of its rows,
fitting it comes to the same as fitting each column alone: the first column that is refused alone is the one that is
named, and without one the band has the centres and the tolerances of the bands of one feature in order, a row scores
the largest of its scores there, and it is in the band when it is in all of them. The settings need not be valid.
-/

namespace OutlierBand

open Binary64

namespace Binary64

theorem foldl_maxNum_cases {l : List Binary64} {a : Binary64} (ha : a.isNaN = false)
    (hl : ∀ e ∈ l, e.isNaN = false) : l.foldl maxNum a = a ∨ a < l.foldl maxNum a ∧ l.foldl maxNum a ∈ l := by
  induction l generalizing a with
  | nil => exact .inl rfl
  | cons e l ih =>
    obtain ⟨he, hl⟩ := List.forall_mem_cons.1 hl
    rw [List.foldl_cons]
    by_cases hlt : a < e
    · have hmax : a.maxNum e = e := by rw [maxNum, ha, if_neg Bool.false_ne_true, if_pos hlt]
      rw [hmax]
      refine .inr ⟨lt_of_lt_of_le hlt (le_foldl_maxNum he hl), ?_⟩
      rcases ih he hl with hend | ⟨-, hend⟩
      · rw [hend]
        exact List.mem_cons_self
      · exact List.mem_cons_of_mem _ hend
    · have hmax : a.maxNum e = a := by rw [maxNum, ha, if_neg Bool.false_ne_true, if_neg hlt]
      rw [hmax]
      exact (ih ha hl).imp_right fun h => ⟨h.1, List.mem_cons_of_mem _ h.2⟩

theorem isGreatest_foldl_maxNum {l : List Binary64} (hne : l ≠ []) (hl : ∀ e ∈ l, e.isNaN = false) :
    IsGreatest {e | e ∈ l.map zero.maxNum} (l.foldl maxNum zero) := by
  have hfold := isNaN_of_le (le_foldl_maxNum (a := zero) rfl hl)
  obtain ⟨hzero, hbound⟩ := (foldl_maxNum_le_iff rfl hl).1 (le_refl_of_isNaN hfold)
  constructor
  · rcases foldl_maxNum_cases (a := zero) rfl hl with hend | ⟨hlt, hmem⟩
    · -- Nothing was above zero, and zero itself is kept rather than another zero.
      obtain ⟨e, he⟩ := List.exists_mem_of_ne_nil l hne
      have hnot : ¬zero < e := not_lt_of_le (hend ▸ hbound e he)
      rw [hend]
      exact List.mem_map.2 ⟨e, he, if_neg hnot⟩
    · exact List.mem_map.2 ⟨_, hmem, if_pos hlt⟩
  · intro e he
    obtain ⟨d, hd, rfl⟩ := List.mem_map.1 he
    exact (maxNum_le_iff rfl (hl d hd)).2 ⟨hzero, hbound d hd⟩

end Binary64

namespace Samples

def ofColumn (column : List Binary64) : Samples := ⟨column.length, 1, column, .rowMajor, (Nat.mul_one _).symm⟩

theorem columns_ofColumn (column : List Binary64) : (ofColumn column).columns = [column] := by
  have hentries := flatten_rows (ofColumn column)
  rw [rows_of_width_one rfl, ← List.flatMap_def, List.flatMap_singleton'] at hentries
  rw [columns_of_width_one rfl, hentries]
  rfl

theorem check_ofColumn {xs : Samples} (h : xs.check = .ok ()) {column : List Binary64} (hcolumn : column ∈ xs.columns) :
    (ofColumn column).check = .ok () := by
  have h0 : column.length ≠ 0 := (length_of_mem_columns hcolumn).trans_ne (check_eq_ok_iff.1 h).1.1
  exact check_eq_ok_iff.2 ⟨⟨h0, Nat.one_ne_zero⟩, fun x hx => isFinite_of_mem_columns h hcolumn hx⟩

end Samples

namespace Config

def columnFeature (c : Config) (s : Binary64) (column : List Binary64) : Feature :=
  c.feature s (c.reference.summary Statistics.sum column)

theorem map_feature_summaries {c : Config} {s : Binary64} {xs : Samples} (h : xs.layout = .rowMajor) :
    (xs.summaries c.reference).map (c.feature s) = xs.columns.map (c.columnFeature s) := by
  rw [Samples.summaries, List.map_map, h]
  rfl

end Config

namespace Band

structure Joins (b : Band) (parts : List Band) : Prop where
  centres : b.centres = parts.flatMap centres
  tolerances : b.features.map Feature.tolerance = parts.flatMap fun a => a.features.map Feature.tolerance
  score : ∀ x, x.length = b.width → IsGreatest {e | e ∈ parts.zipWith (fun a v => a.score [v]) x} (b.score x)
  contains : ∀ x, b.contains x = true ↔ List.Forall₂ (fun a v => a.contains [v] = true) parts x

theorem score_singleton {a : Band} {f : Feature} (h : a.features = [f]) (v : Binary64) :
    a.score [v] = zero.maxNum (f.excess v) := by
  rw [score_eq_foldl (congrArg List.length h).symm, h]
  rfl

theorem zipWith_score_singleton {parts : List Band} {fs : List Feature}
    (h : List.Forall₂ (fun a f => a.features = [f]) parts fs) (x : List Binary64) :
    parts.zipWith (fun a v => a.score [v]) x = (fs.zipWith Feature.excess x).map zero.maxNum := by
  induction h generalizing x with
  | nil => rfl
  | cons ha _ ih =>
    cases x with
    | nil => rfl
    | cons v x => exact congrArg₂ List.cons (score_singleton ha v) (ih x)

theorem flatMap_of_singletons {α : Type} (g : Feature → α) {parts : List Band} {fs : List Feature}
    (h : List.Forall₂ (fun a f => a.features = [f]) parts fs) :
    (parts.flatMap fun a => a.features.map g) = fs.map g := by
  induction h with
  | nil => rfl
  | cons ha _ ih =>
    rw [List.flatMap_cons, List.map_cons, ih, ha]
    rfl

theorem joins_of_singletons {b : Band} {parts : List Band} (hne : b.features ≠ [])
    (h : List.Forall₂ (fun a f => a.features = [f]) parts b.features) : b.Joins parts := by
  have hscore : ∀ x, x.length = b.width →
      IsGreatest {e | e ∈ parts.zipWith (fun a v => a.score [v]) x} (b.score x) := by
    intro x hx
    rw [zipWith_score_singleton h, score_eq_foldl hx]
    apply isGreatest_foldl_maxNum _ isNaN_of_mem_excesses
    have hpos := List.length_pos_iff.2 hne
    rw [← List.length_pos_iff, List.length_zipWith, hx, width, Nat.min_self]
    exact hpos
  refine ⟨(flatMap_of_singletons _ h).symm, (flatMap_of_singletons _ h).symm, hscore, fun x => ?_⟩
  rw [List.forall₂_iff_zip, h.length_eq]
  by_cases hx : x.length = b.width
  · obtain ⟨hmem, hbound⟩ := hscore x hx
    have hall : b.score x ≤ one ↔ ∀ e ∈ parts.zipWith (fun a v => a.score [v]) x, e ≤ one :=
      ⟨fun hle e he => Binary64.le_trans (hbound he) hle, fun hall => hall _ hmem⟩
    rw [forall_mem_zipWith_iff] at hall
    simp only [contains, decide_eq_true_eq, hall, Prod.forall]
    exact (and_iff_right hx.symm).symm
  · exact iff_of_false (fun hcontains => hx (contains_iff.1 hcontains).1) fun hall => hx hall.1.symm

inductive JoinedOutcome : Except Fault Band → List (Except Fault Band) → Prop
  | fitted {b : Band} {parts : List Band} (h : b.Joins parts) : JoinedOutcome (.ok b) (parts.map .ok)
  | refused {j : Nat} {outcomes : List (Except Fault Band)} {outcome : Except Fault Band}
    (h : First (fun outcome => ∃ fault, outcome = .error fault) outcomes j outcome) :
    JoinedOutcome (.error (.overflow j)) outcomes

variable {s : Binary64} {c : Config}

theorem fit_ofColumn {xs : Samples} (hs : checkSensitivity s = .ok ()) (hxs : xs.check = .ok ())
    {column : List Binary64} (hcolumn : column ∈ xs.columns) : fit (.ofColumn column) s c =
      if (c.columnFeature s column).isFinite then .ok ⟨[c.columnFeature s column], s, column.length⟩
      else .error (.overflow 0) := by
  rw [fit_of_check hs (Samples.check_ofColumn hxs hcolumn), Config.map_feature_summaries rfl,
    Samples.columns_ofColumn, List.map_singleton, List.findIdx?_singleton]
  cases (c.columnFeature s column).isFinite <;> rfl

theorem findIdx?_fit_ofColumn {xs : Samples} (hs : checkSensitivity s = .ok ()) (hxs : xs.check = .ok ()) :
    (xs.columns.map fun column => fit (.ofColumn column) s c).findIdx? (!·.isOk) =
      (xs.columns.map (c.columnFeature s)).findIdx? (!·.isFinite) := by
  apply findIdx?_eq_of_forall₂
  rw [List.forall₂_map_left_iff, List.forall₂_map_right_iff, List.forall₂_same]
  intro column hcolumn
  rw [fit_ofColumn hs hxs hcolumn]
  cases (c.columnFeature s column).isFinite <;> rfl

theorem fit_joins {xs : Samples} (hlayout : xs.layout = .rowMajor) (hs : checkSensitivity s = .ok ())
    (hxs : xs.check = .ok ()) :
    JoinedOutcome (fit xs s c) (xs.columns.map fun column => fit (.ofColumn column) s c) := by
  rw [fit_of_check hs hxs, Config.map_feature_summaries hlayout]
  split
  next j hj =>
    obtain ⟨outcome, h⟩ := (exists_first_iff_findIdx? (p := fun outcome => ∃ fault, outcome = .error fault)
      fun outcome => by cases outcome <;> simp [Except.isOk, Except.toBool]).2 ((findIdx?_fit_ofColumn hs hxs).trans hj)
    exact .refused h
  next hnone =>
    rw [List.findIdx?_eq_none_iff, List.forall_mem_map] at hnone
    have hall : (xs.columns.map fun column => fit (.ofColumn column) s c) =
        (xs.columns.map fun column => (⟨[c.columnFeature s column], s, column.length⟩ : Band)).map .ok := by
      rw [List.map_map]
      apply List.map_congr_left
      intro column hcolumn
      rw [fit_ofColumn hs hxs hcolumn]
      exact if_pos (by simpa using hnone column hcolumn)
    rw [hall]
    refine .fitted (joins_of_singletons ?_ ?_)
    · rw [← List.length_pos_iff, List.length_map, Samples.length_columns]
      exact Nat.pos_of_ne_zero (Samples.check_eq_ok_iff.1 hxs).1.2
    · rw [List.forall₂_map_left_iff, List.forall₂_map_right_iff, List.forall₂_same]
      exact fun _ _ => rfl

theorem fit_joins_negative :
    let xs : Samples := ⟨1, 2, [zero, one], .rowMajor, rfl⟩
    let c : Config := ⟨one, neg two, .median⟩
    xs.layout = .rowMajor ∧ checkSensitivity (one / two) = .ok () ∧ xs.check = .ok () ∧
      (fit xs (one / two) c).toOption.map (·.score [zero, one]) = some infinity ∧
      JoinedOutcome (fit xs (one / two) c) (xs.columns.map fun column => fit (.ofColumn column) (one / two) c) := by
  intro xs c
  have hs : checkSensitivity (one / two) = .ok () := by decide +kernel
  have hxs : xs.check = .ok () := by decide +kernel
  have hscore : (fit xs (one / two) c).toOption.map (·.score [zero, one]) = some infinity := by decide +kernel
  exact ⟨rfl, hs, hxs, hscore, fit_joins rfl hs hxs⟩

end Band

end OutlierBand
