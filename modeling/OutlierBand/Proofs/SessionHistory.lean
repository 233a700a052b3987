import OutlierBand.Session
import Mathlib.Data.Finset.Card
import Mathlib.Data.Finset.Image

/-!
What a session knows is told by its history. Restoring a copy takes the history back to the point where the copy was
saved; of the events that are left, the last fit of an identifier that was not refused decides its band.
-/

namespace OutlierBand

theorem Registry.mem_keys_iff {κ α : Type} [DecidableEq κ] (r : Registry κ α) (k : κ) :
    k ∈ r.entries.map Prod.fst ↔ (r.find? k).isSome := by
  simp only [find?, Option.isSome_map, List.find?_isSome, List.mem_map, decide_eq_true_eq]

theorem Registry.size_eq_card {κ α : Type} [DecidableEq κ] (r : Registry κ α) {keys : Finset κ}
    (h : ∀ k, k ∈ keys ↔ (r.find? k).isSome) : r.size = keys.card := by
  have he : (r.entries.map Prod.fst).toFinset = keys := by
    ext k
    rw [List.mem_toFinset, mem_keys_iff, h]
  rw [← he, List.toFinset_card_of_nodup r.nodup, List.length_map]
  rfl

def Batch.samples : Batch → Except Fault Samples
  | .rows xs => Samples.ofRows xs
  | .matrix xs => .ok xs

namespace Session

variable {κ : Type}

abbrev Event (κ : Type) := Step κ × Outcome

def atSave? (name : String) : List (Event κ) → Option (List (Event κ))
  | [] => none
  | (.save other, _) :: past => if other = name then some past else atSave? name past
  | _ :: past => atSave? name past

theorem length_atSave?_lt {name : String} {past earlier : List (Event κ)} (h : atSave? name past = some earlier) :
    earlier.length < past.length := by
  fun_induction atSave? name past with
  | case1 => cases h
  | case2 => cases h; simp
  | case3 _ _ _ _ ih => exact Nat.lt_succ_of_lt (ih h)
  | case4 _ _ _ ih => exact Nat.lt_succ_of_lt (ih h)

/-- The events that still count. A name under which nothing was saved restores nothing. -/
def effective : List (Event κ) → List (Event κ)
  | [] => []
  | (.restore name, _) :: past =>
    match _h : atSave? name past with
    | some earlier => effective earlier
    | none => effective past
  | event :: past => event :: effective past
termination_by past => past.length
decreasing_by
  · exact Nat.lt_succ_of_lt (length_atSave?_lt _h)
  · exact Nat.lt_succ_self _
  · exact Nat.lt_succ_self _

def fitted? : Event κ → Option (κ × Batch × Binary64)
  | (.fit id batch sensitivity, ⟨.ok _, _⟩) => some (id, batch, sensitivity)
  | _ => none

def fits (past : List (Event κ)) : List (κ × Batch × Binary64) := (effective past).filterMap fitted?

theorem fits_restore (name : String) (outcome : Outcome) (past : List (Event κ)) :
    fits ((.restore name, outcome) :: past) = fits ((atSave? name past).getD past) := by
  unfold fits
  rw [effective]
  split <;> simp_all

theorem fits_cons {a : Step κ} (ha : ∀ name, a ≠ .restore name) (outcome : Outcome) (past : List (Event κ)) :
    fits ((a, outcome) :: past) = (fitted? (a, outcome)).toList ++ fits past := by
  have he : effective ((a, outcome) :: past) = (a, outcome) :: effective past := by
    rw [effective]
    intro name _ h
    exact ha name (Prod.mk.inj h).1
  unfold fits
  rw [he, List.filterMap_cons]
  cases fitted? (a, outcome) <;> rfl

section

variable [DecidableEq κ]

def latestFit? (id : κ) (past : List (Event κ)) : Option (Batch × Binary64) :=
  ((fits past).find? (·.1 = id)).map Prod.snd

def refit (config : Config) (fit : Batch × Binary64) : Except Fault Band := do
  Band.fit (← fit.1.samples) fit.2 config

theorem isSome_latestFit?_iff (id : κ) (past : List (Event κ)) :
    (latestFit? id past).isSome ↔ id ∈ (fits past).map Prod.fst := by
  simp only [latestFit?, Option.isSome_map, List.find?_isSome, List.mem_map, decide_eq_true_eq]

structure Reflects (config : Config) (past : List (Event κ)) (c : Classifier κ) : Prop where
  config_eq : c.config = config
  bands (id : κ) : (c.band? id).map Except.ok = (latestFit? id past).map (refit config)

theorem Reflects.of_fits_eq {config : Config} {past later : List (Event κ)} {c : Classifier κ}
    (h : Reflects config past c) (hf : fits later = fits past) : Reflects config later c := by
  refine ⟨h.config_eq, fun id => ?_⟩
  rw [h.bands id, latestFit?, latestFit?, hf]

theorem Reflects.isFitted_eq {config : Config} {past : List (Event κ)} {c : Classifier κ}
    (h : Reflects config past c) (id : κ) : c.isFitted id = (latestFit? id past).isSome := by
  have hb := congrArg Option.isSome (h.bands id)
  simp only [Option.isSome_map] at hb
  exact hb

theorem Reflects.size_eq {config : Config} {past : List (Event κ)} {c : Classifier κ}
    (h : Reflects config past c) : c.size = ((fits past).map Prod.fst).toFinset.card := by
  apply Registry.size_eq_card
  intro id
  rw [List.mem_toFinset, ← isSome_latestFit?_iff, ← h.isFitted_eq]
  rfl

theorem Reflects.fit {config : Config} {past : List (Event κ)} {c c' : Classifier κ} (h : Reflects config past c)
    {id : κ} {batch : Batch} {xs : Samples} {sensitivity : Binary64} {fitting : Fitting} {answer : Answer} {size : Nat}
    (hx : batch.samples = .ok xs) (hc : c.fit id xs sensitivity = .ok (c', fitting)) :
    Reflects config ((.fit id batch sensitivity, ⟨.ok answer, size⟩) :: past) c' := by
  obtain ⟨band, hband, rfl, -⟩ := Classifier.fit_eq_ok_iff.1 hc
  rw [h.config_eq] at hband
  refine ⟨h.config_eq, fun k => ?_⟩
  rw [latestFit?, fits_cons (by simp)]
  simp only [fitted?, Option.toList_some, List.singleton_append, List.find?_cons]
  by_cases hk : id = k
  · subst hk
    simp [Classifier.band?, refit, hx, hband, bind, Except.bind]
  · have hb := h.bands k
    simpa [hk, latestFit?, Classifier.band?, Registry.find?_insert_of_ne _ (Ne.symm hk)] using hb

structure Follows (config : Config) (past : List (Event κ)) (s : Session κ) : Prop where
  current : Reflects config past s.classifier
  saved (name : String) : Option.Rel (Reflects config) (atSave? name past) (s.saved.find? name)

theorem follows_start {config : Config} {c : Classifier κ} (hc : Classifier.withConfig config = .ok c) :
    Follows config [] (start c) := by
  obtain ⟨-, rfl⟩ := Classifier.withConfig_eq_ok_iff.1 hc
  refine ⟨⟨rfl, fun id => ?_⟩, fun name => .none⟩
  simp [start, Classifier.band?, latestFit?, fits, effective]

theorem Follows.keep {config : Config} {past : List (Event κ)} {s : Session κ} (h : Follows config past s)
    {event : Event κ} (hf : fits (event :: past) = fits past)
    (hs : ∀ name, atSave? name (event :: past) = atSave? name past) : Follows config (event :: past) s := by
  refine ⟨h.current.of_fits_eq hf, fun name => ?_⟩
  rw [hs]
  exact h.saved name

theorem Follows.save {config : Config} {past : List (Event κ)} {s : Session κ} (h : Follows config past s)
    (name : String) (outcome : Outcome) :
    Follows config ((.save name, outcome) :: past) ⟨s.classifier, s.saved.insert name s.classifier⟩ := by
  refine ⟨h.current.of_fits_eq (fits_cons (by simp) _ past), fun other => ?_⟩
  by_cases hn : name = other
  · subst hn
    simpa [atSave?] using h.current
  · simpa [atSave?, hn, Registry.find?_insert_of_ne _ (Ne.symm hn)] using h.saved other

theorem Follows.restore {config : Config} {past : List (Event κ)} {s : Session κ} (h : Follows config past s)
    (name : String) (outcome : Outcome) :
    Follows config ((.restore name, outcome) :: past) ⟨(s.saved.find? name).getD s.classifier, s.saved⟩ := by
  refine ⟨?_, h.saved⟩
  have hf := fits_restore name outcome past
  have hs := h.saved name
  generalize atSave? name past = earlier, s.saved.find? name = copy at hf hs
  cases hs with
  | none => exact h.current.of_fits_eq hf
  | some hr => exact hr.of_fits_eq hf

variable [Identifier κ]

theorem perform_fit (s : Session κ) (id : κ) (batch : Batch) (sensitivity : Binary64) :
    s.perform (.fit id batch sensitivity) =
      s.afterFit (batch.samples.bind fun xs => s.classifier.fit id xs sensitivity) := by
  cases batch <;> rfl

theorem step_predict_fst (s : Session κ) (id : κ) (batch : Batch) : (s.step (.predict id batch)).1 = s := by
  cases batch <;> rfl

theorem Follows.fit {config : Config} {past : List (Event κ)} {s : Session κ} (h : Follows config past s)
    (id : κ) (batch : Batch) (sensitivity : Binary64) :
    Follows config ((.fit id batch sensitivity, (s.step (.fit id batch sensitivity)).2) :: past)
      (s.step (.fit id batch sensitivity)).1 := by
  simp only [Session.step, perform_fit]
  cases hx : batch.samples with
  | error fault => exact h.keep (fits_cons (by simp) _ past) (fun _ => rfl)
  | ok xs =>
    simp only [Except.bind]
    cases hc : s.classifier.fit id xs sensitivity with
    | error fault => exact h.keep (fits_cons (by simp) _ past) (fun _ => rfl)
    | ok r => exact ⟨h.current.fit hx hc, h.saved⟩

theorem Follows.step {config : Config} {past : List (Event κ)} {s : Session κ} (h : Follows config past s)
    (a : Step κ) : Follows config ((a, (s.step a).2) :: past) (s.step a).1 := by
  cases a with
  | fit id batch sensitivity => exact h.fit id batch sensitivity
  | predict id batch =>
    rw [step_predict_fst]
    exact h.keep (fits_cons (by simp) _ past) (fun _ => rfl)
  | save name => exact h.save name _
  | restore name => exact h.restore name _
  | _ => exact h.keep (fits_cons (by simp) _ past) (fun _ => rfl)

def events (s : Session κ) (steps : List (Step κ)) : List (Event κ) := (steps.zip (s.run steps).2).reverse

theorem events_cons (s : Session κ) (a : Step κ) (steps : List (Step κ)) :
    s.events (a :: steps) = (s.step a).1.events steps ++ [(a, (s.step a).2)] := by
  simp only [events, Session.run, List.zip_cons_cons, List.reverse_cons]

theorem Follows.run {config : Config} {past : List (Event κ)} {s : Session κ} (h : Follows config past s)
    (steps : List (Step κ)) : Follows config (s.events steps ++ past) (s.run steps).1 := by
  induction steps generalizing s past with
  | nil => exact h
  | cons a steps ih =>
    rw [events_cons, List.append_assoc]
    exact ih (h.step a)

theorem step_of_error {s : Session κ} {a : Step κ} {fault : Fault} (h : (s.step a).2.result = .error fault) :
    (s.step a).1 = s := by
  cases a with
  | fit id batch sensitivity =>
    simp only [Session.step, perform_fit] at h ⊢
    cases hc : batch.samples.bind fun xs => s.classifier.fit id xs sensitivity with
    | error fault => rfl
    | ok r => simp [hc, afterFit] at h
  | predict id batch => exact step_predict_fst s id batch
  | save name => simp [Session.step, perform] at h
  | restore name => simp [Session.step, perform] at h
  | _ => rfl

theorem run_reflects_history {config : Config} {c : Classifier κ} (hc : Classifier.withConfig config = .ok c)
    (steps : List (Step κ)) :
    let s := ((start c).run steps).1
    let past := (start c).events steps
    (∀ id, (s.classifier.band? id).map Except.ok = (latestFit? id past).map (refit config)) ∧
      (∀ id, s.classifier.isFitted id = (latestFit? id past).isSome) ∧
      s.classifier.size = ((fits past).map Prod.fst).toFinset.card ∧
      (s.classifier.isEmpty = true ↔ s.classifier.size = 0) ∧
      s.classifier.config = config ∧
      (∀ a fault, (s.step a).2.result = .error fault → (s.step a).1 = s) ∧
      ∀ id batch, (s.step (.predict id batch)).1 = s := by
  have h := ((follows_start hc).run steps).current
  rw [List.append_nil] at h
  refine ⟨h.bands, h.isFitted_eq, h.size_eq, ?_, h.config_eq, fun a fault => step_of_error, step_predict_fst _⟩
  simp only [Classifier.isEmpty, Registry.isEmpty, Classifier.size, Registry.size, List.isEmpty_iff,
    List.length_eq_zero_iff]

end

def restoredSteps : List (Step Int) :=
  [.fit 1 (.rows [[.one, .two]]) (.one / .two), .save "a", .fit 1 (.rows [[.two]]) (.one / .two),
    .fit 2 (.rows [[.one]]) (.one / .two), .fit 1 (.rows [[], [.one]]) (.one / .two), .restore "a"]

theorem run_reflects_history_restored :
    Classifier.withConfig Config.default = .ok (Classifier.new : Classifier Int) ∧
      let c := ((start (Classifier.new : Classifier Int)).run restoredSteps).1.classifier
      c.isFitted 1 = true ∧ c.isFitted 2 = false ∧ c.size = 1 := by
  have hc : Classifier.withConfig Config.default = .ok (Classifier.new : Classifier Int) :=
    Classifier.withConfig_eq_ok_iff.2 ⟨by decide +kernel, rfl⟩
  obtain ⟨-, hf, hs, -⟩ := run_reflects_history hc restoredSteps
  refine ⟨hc, (hf 1).trans ?_, (hf 2).trans ?_, hs.trans ?_⟩
  · decide +kernel
  · decide +kernel
  · decide +kernel

end Session

end OutlierBand
