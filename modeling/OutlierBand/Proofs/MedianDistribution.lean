import OutlierBand.Classifier
import OutlierBand.Proofs.FittedBand
import OutlierBand.Proofs.InlierShare
import OutlierBand.Proofs.MedianSummary
import OutlierBand.Proofs.SampleDefects

/-!
A fit with medians sees of each column only how often each number stands in it. What stands at a place of the sorted
column follows from how many values come before, so neither the order of the values matters nor, where no sum of two of
them is too large for a number, that each is there several times over.
-/

namespace OutlierBand

open Binary64

namespace Statistics

variable {xs ys : List Binary64} {i k : ℕ} {a : Binary64}

theorem rank_sorted_le_iff (ha : (sorted xs)[i]? = some a) (r : ℤ) :
    a.rank ≤ r ↔ i < xs.countP fun x => decide (x.rank ≤ r) := by
  rw [← sorted_holds_iff _ ha, decide_eq_true_eq]
  simp only [decide_eq_true_eq]
  exact fun x _ y _ hxy hy => hxy.trans hy

theorem getElem?_sorted_iff : (sorted xs)[i]? = some a ↔
    xs.countP (fun x => decide (x.rank ≤ a.rank - 1)) ≤ i ∧ i < xs.countP fun x => decide (x.rank ≤ a.rank) := by
  -- No two numbers have one rank, so a number stands exactly at the places after all that come before it and up to
  -- the last of its copies.
  constructor
  · intro ha
    exact ⟨not_lt.1 (mt (rank_sorted_le_iff ha _).2 (by omega)), (rank_sorted_le_iff ha _).1 le_rfl⟩
  · rintro ⟨hlow, hhigh⟩
    have hi : i < (sorted xs).length := by
      rw [(perm_sorted xs).length_eq]
      exact hhigh.trans_le List.countP_le_length
    have hb := List.getElem?_eq_getElem hi
    have hle := (rank_sorted_le_iff hb _).2 hhigh
    have hge := mt (rank_sorted_le_iff hb _).1 hlow.not_gt
    have hrank : (sorted xs)[i].rank = a.rank := by omega
    rw [hb, rank_injective hrank]

def Repeats {α : Type} (k : ℕ) (l' l : List α) : Prop := l'.Perm (List.replicate k l).flatten

namespace Repeats

section

variable {α β : Type} {l l' : List α}

theorem length_eq (h : Repeats k l' l) : l'.length = k * l.length := by
  rw [List.Perm.length_eq h, List.length_flatten, List.map_replicate, List.sum_replicate_nat]

theorem countP_eq (h : Repeats k l' l) (p : α → Bool) : l'.countP p = k * l.countP p := by
  rw [List.Perm.countP_eq p h, List.countP_flatten, List.map_replicate, List.sum_replicate_nat]

theorem map (h : Repeats k l' l) (f : α → β) : Repeats k (l'.map f) (l.map f) := by
  have hmap := List.Perm.map f h
  rwa [List.map_flatten, List.map_replicate] at hmap

theorem filterMap (h : Repeats k l' l) (f : α → Option β) : Repeats k (l'.filterMap f) (l.filterMap f) := by
  have hfilter := List.Perm.filterMap f h
  rwa [List.filterMap_flatten, List.map_replicate] at hfilter

theorem mem_iff (h : Repeats k l' l) (hk : 0 < k) {a : α} : a ∈ l' ↔ a ∈ l := by
  rw [List.Perm.mem_iff h]
  simp [hk.ne']

end

theorem getElem?_sorted (h : Repeats k ys xs) (hk : 0 < k) (i : ℕ) : (sorted ys)[i]? = (sorted xs)[i / k]? := by
  ext a
  rw [getElem?_sorted_iff, getElem?_sorted_iff, h.countP_eq, h.countP_eq, Nat.le_div_iff_mul_le hk,
    Nat.div_lt_iff_lt_mul hk, Nat.mul_comm _ k, Nat.mul_comm _ k]

theorem getElem?_sorted_mul_add (h : Repeats k ys xs) {t : ℕ} (ht : t < k) (m : ℕ) :
    (sorted ys)[k * m + t]? = (sorted xs)[m]? := by
  have hk : 0 < k := Nat.zero_lt_of_lt ht
  rw [h.getElem?_sorted hk, Nat.mul_add_div hk, Nat.div_eq_of_lt ht, Nat.add_zero]

theorem median_eq (h : Repeats k ys xs) (hk : 0 < k) (hxs : k ≠ 1 → ∀ x ∈ xs, Within (greatest.value / 2) x) :
    median ys = median xs := by
  -- An even number of copies of an odd number of values has copies of one value in the middle, and their average is
  -- that value, unless the sum of the two is too large.
  have hlength : (sorted ys).length = k * (sorted xs).length := by
    rw [(perm_sorted ys).length_eq, (perm_sorted xs).length_eq, h.length_eq]
  rw [median, median]
  by_cases hne : sorted xs = []
  · rw [hne, List.length_nil, Nat.mul_zero] at hlength
    rw [hne, List.eq_nil_of_length_eq_zero hlength]
  rcases middle_cases hne with ⟨m, b, hm, hb, hmiddle⟩ | ⟨m, a, b, hm, ha, hb, hmiddle⟩
  · have hcopy {t : ℕ} (ht : t < k) : (sorted ys)[k * m + t]? = some b := (h.getElem?_sorted_mul_add ht m).trans hb
    rw [hm] at hlength
    rcases Nat.even_or_odd' k with ⟨t, rfl | rfl⟩
    · obtain ⟨t, rfl⟩ : ∃ u, t = u + 1 := ⟨t - 1, by omega⟩
      have hwithin := hxs (by omega) b ((perm_sorted xs).mem_iff.1 (List.mem_of_getElem? hb))
      rw [hmiddle, middle_of_even (by rw [hlength]; ring) (hcopy (t := t) (by omega)) (hcopy (t := t + 1) (by omega))]
      exact half_double hwithin.isFinite (isFinite_average hwithin hwithin)
    · rw [hmiddle, middle_of_odd (by rw [hlength]; ring) (hcopy (t := t) (by omega))]
  · obtain ⟨t, rfl⟩ : ∃ t, k = t + 1 := ⟨k - 1, by omega⟩
    have ha' := (h.getElem?_sorted_mul_add (t := t) (by omega) m).trans ha
    have hb' := (h.getElem?_sorted_mul_add (t := 0) (by omega) (m + 1)).trans hb
    rw [hm] at hlength
    rw [hmiddle, middle_of_even (by rw [hlength]; ring) ha' hb']

end Repeats

theorem isFinite_median (hxs : ∀ x ∈ xs, Within (greatest.value / 2) x) : (median xs).isFinite = true := by
  have hsorted {i : ℕ} {x : Binary64} (hx : (sorted xs)[i]? = some x) : Within (greatest.value / 2) x :=
    hxs x ((perm_sorted xs).mem_iff.1 (List.mem_of_getElem? hx))
  rw [median]
  by_cases hne : sorted xs = []
  · rw [hne]
    rfl
  rcases middle_cases hne with ⟨m, b, -, hb, hmiddle⟩ | ⟨m, a, b, -, ha, hb, hmiddle⟩
  · rw [hmiddle]
    exact (hsorted hb).isFinite
  · rw [hmiddle]
    exact isFinite_average (hsorted ha) (hsorted hb)

theorem Repeats.medianDeviation_eq (h : Repeats k ys xs) (hk : 0 < k) {centre : Binary64}
    (hxs : k ≠ 1 → ∀ x ∈ xs, Within (greatest.value / 2) (x - centre).abs) :
    medianDeviation centre ys = medianDeviation centre xs := by
  rw [medianDeviation, medianDeviation, (h.map _).median_eq hk fun h1 => List.forall_mem_map.2 (hxs h1)]

theorem within_quarter_mono {x : Binary64} (h : Within (greatest.value / 4) x) : Within (greatest.value / 2) x := by
  have hhalf : 0 ≤ greatest.value / 2 := within_half_zero.nonneg
  exact h.mono (by linarith)

theorem within_distance {x : Binary64} (hxs : ∀ x ∈ xs, Within (greatest.value / 4) x) (hx : x ∈ xs) :
    Within (greatest.value / 2) (x - median xs).abs := by
  have hfinite : ∀ x ∈ xs, x.isFinite = true := fun x hx => (hxs x hx).isFinite
  have hmedian := isFinite_median fun x hx => within_quarter_mono (hxs x hx)
  have hhalves := halves_median (fun x hx => isNaN_of_isFinite (hfinite x hx)) hmedian
  have hcentre := (hhalves.between (List.ne_nil_of_mem hx) hfinite hmedian).within hxs
  have hhalf : Exact (greatest.value / 2) := ⟨greatest / two, by decide +kernel, by decide +kernel⟩
  exact ((hxs x hx).add hcentre.neg hhalf (by linarith)).abs

end Statistics

theorem Statistic.median_summary_of_repeats {xs ys : List Binary64} {k : ℕ} (h : Statistics.Repeats k ys xs)
    (hk : 0 < k) (hxs : k ≠ 1 → ∀ x ∈ xs, Within (greatest.value / 4) x) (sum sum' : List Binary64 → Binary64) :
    median.summary sum ys = median.summary sum' xs := by
  have hcentre := h.median_eq hk fun h1 x hx => Statistics.within_quarter_mono (hxs h1 x hx)
  have hdispersion := h.medianDeviation_eq hk fun h1 x hx => Statistics.within_distance (hxs h1) hx
  simp only [summary, hcentre, hdispersion]

namespace Samples

variable {xs ys : Samples} {k : ℕ}

theorem exists_mem_columns {x : Binary64} (hx : x ∈ xs.entries) : ∃ column ∈ xs.columns, x ∈ column := by
  obtain ⟨n, hn⟩ := List.getElem?_of_mem hx
  obtain ⟨hj, row, hrow, hx⟩ := exists_row_of_getElem?_entries hn
  exact ⟨_, List.mem_map_of_mem (List.mem_range.2 hj), List.mem_filterMap.2 ⟨row, List.mem_of_getElem? hrow, hx⟩⟩

theorem exists_ofRows_replicate (hk : 0 < k) (h0 : xs.height ≠ 0) :
    ∃ ys, ofRows (List.replicate k xs.rows).flatten = .ok ys ∧ ys.rows = (List.replicate k xs.rows).flatten := by
  have hmem {row : List Binary64} : row ∈ (List.replicate k xs.rows).flatten ↔ row ∈ xs.rows :=
    Statistics.Repeats.mem_iff (List.Perm.refl _) hk
  obtain ⟨row, hrow⟩ := List.exists_mem_of_length_pos (xs.length_rows ▸ Nat.pos_of_ne_zero h0)
  obtain ⟨ys, hys, hrows, -⟩ := exists_ofRows (List.ne_nil_of_mem (hmem.2 hrow)) fun row hrow =>
    length_of_mem_rows (hmem.1 hrow)
  exact ⟨ys, hys, hrows⟩

def Repeats (k : ℕ) (ys xs : Samples) : Prop := List.Forall₂ (Statistics.Repeats k) ys.columns xs.columns

theorem repeats_one (h : List.Forall₂ List.Perm ys.columns xs.columns) : Repeats 1 ys xs :=
  h.imp fun column column' hperm => by simpa [Statistics.Repeats] using hperm

theorem repeats_of_rows (h : Statistics.Repeats k ys.rows xs.rows) (hk : 0 < k) (h0 : xs.height ≠ 0) :
    Repeats k ys xs := by
  obtain ⟨row, hrow⟩ := List.exists_mem_of_length_pos (xs.length_rows ▸ Nat.pos_of_ne_zero h0)
  have hwidth : ys.width = xs.width := by
    rw [← length_of_mem_rows hrow, ← length_of_mem_rows ((h.mem_iff hk).2 hrow)]
  rw [Repeats, columns, columns, hwidth, List.forall₂_map_left_iff, List.forall₂_map_right_iff, List.forall₂_same]
  exact fun j _ => h.filterMap (·[j]?)

namespace Repeats

theorem height_eq (h : Repeats k ys xs) (h0 : xs.width ≠ 0) : ys.height = k * xs.height := by
  have hmem {column : List Binary64} (hcolumn : column ∈ xs.columns) : column.length = xs.height :=
    length_of_mem_columns hcolumn
  have hmem' {column : List Binary64} (hcolumn : column ∈ ys.columns) : column.length = ys.height :=
    length_of_mem_columns hcolumn
  have hwidth := xs.length_columns
  unfold Repeats at h
  generalize xs.columns = columns, ys.columns = columns' at *
  cases h with
  | nil => exact absurd hwidth.symm h0
  | cons hcolumn _ => rw [← hmem List.mem_cons_self, ← hmem' List.mem_cons_self, hcolumn.length_eq]

theorem mem_entries (h : Repeats k ys xs) (hk : 0 < k) {x : Binary64} (hx : x ∈ ys.entries) : x ∈ xs.entries := by
  obtain ⟨column, hcolumn, hx⟩ := exists_mem_columns hx
  obtain ⟨i, hi, rfl⟩ := List.getElem_of_mem hcolumn
  obtain ⟨hlength, hget⟩ := List.forall₂_iff_get.1 h
  exact mem_entries_of_mem_columns (List.get_mem ..) (((hget i hi (hlength ▸ hi)).mem_iff hk).1 hx)

theorem check (h : Repeats k ys xs) (hk : 0 < k) (hxs : xs.check = .ok ()) : ys.check = .ok () := by
  obtain ⟨⟨hheight, hwidth⟩, hfinite⟩ := check_eq_ok_iff.1 hxs
  have hwidth' : ys.width = xs.width := by rw [← length_columns, ← length_columns, List.Forall₂.length_eq h]
  refine check_eq_ok_iff.2 ⟨⟨?_, hwidth' ▸ hwidth⟩, fun x hx => hfinite x (h.mem_entries hk hx)⟩
  rw [h.height_eq hwidth]
  exact Nat.mul_ne_zero hk.ne' hheight

theorem summaries_eq (h : Repeats k ys xs) (hk : 0 < k)
    (hxs : k ≠ 1 → ∀ x ∈ xs.entries, Within (greatest.value / 4) x) : ys.summaries .median = xs.summaries .median := by
  have hcolumns : ∀ column ∈ xs.columns, k ≠ 1 → ∀ x ∈ column, Within (greatest.value / 4) x :=
    fun column hcolumn h1 x hx => hxs h1 x (mem_entries_of_mem_columns hcolumn hx)
  symm
  rw [summaries, summaries, ← List.forall₂_eq_eq_eq, List.forall₂_map_left_iff, List.forall₂_map_right_iff]
  refine ((List.forall₂_and_left _ _).2 ⟨hcolumns, h.flip⟩).imp ?_
  rintro column column' ⟨hwithin, hrepeats⟩
  exact (Statistic.median_summary_of_repeats hrepeats hk hwithin _ _).symm

end Repeats

end Samples

namespace Band

variable {xs ys : Samples} {k : ℕ} {c : Config}

def ofRepeats (k : ℕ) (b : Band) : Band := { b with sampleCount := k * b.sampleCount }

theorem fit_of_repeats (h : ys.Repeats k xs) (hk : 0 < k) (hxs : xs.check = .ok ()) (hc : c.reference = .median)
    (hentries : k ≠ 1 → ∀ x ∈ xs.entries, Within (greatest.value / 4) x) (s : Binary64) :
    fit ys s c = (fit xs s c).map (ofRepeats k) := by
  cases hs : checkSensitivity s with
  | error =>
    rw [fit, fit, hs]
    rfl
  | ok =>
    rw [fit_of_check hs (h.check hk hxs), fit_of_check hs hxs, hc, h.summaries_eq hk hentries,
      h.height_eq (Samples.check_eq_ok_iff.1 hxs).1.2]
    split <;> rfl

theorem fit_of_row_repeats (h : Statistics.Repeats k ys.rows xs.rows) (hk : 0 < k) (hxs : xs.check = .ok ())
    (hc : c.reference = .median) (hentries : ∀ x ∈ xs.entries, |x.value| ≤ greatest.value / 4) (s : Binary64) :
    fit ys s c = (fit xs s c).map (ofRepeats k) := by
  obtain ⟨⟨h0, -⟩, hfinite⟩ := Samples.check_eq_ok_iff.1 hxs
  exact fit_of_repeats (Samples.repeats_of_rows h hk h0) hk hxs hc (fun _ x hx => ⟨hfinite x hx, hentries x hx⟩) s

theorem share_of_repeats (b : Band) (h : Statistics.Repeats k ys.rows xs.rows) (hk : 0 < k) (h0 : xs.height ≠ 0) :
    (b.predict ys).confidence =
      nearest false (k * xs.rows.countP b.contains : ℕ) / nearest false (k * xs.height : ℕ) := by
  have hheight : ys.height = k * xs.height := by rw [← ys.length_rows, ← xs.length_rows, h.length_eq]
  rw [confidence_predict b (hheight ▸ Nat.mul_ne_zero hk.ne' h0), hheight, h.countP_eq,
    ofNat_eq_nearest, ofNat_eq_nearest]

theorem confidence_of_repeats (b : Band) (h : Statistics.Repeats k ys.rows xs.rows) (hk : 0 < k)
    (h0 : xs.height ≠ 0) (hcount : k ≠ 1 → k * xs.height ≤ 2 ^ 53) :
    (b.predict ys).confidence = (b.predict xs).confidence := by
  rw [b.share_of_repeats h hk h0, ← ofNat_eq_nearest, ← ofNat_eq_nearest, confidence_predict b h0]
  by_cases h1 : k = 1
  · rw [h1, one_mul, one_mul]
  · have hroom := hcount h1
    have hle : xs.rows.countP b.contains ≤ xs.height := List.countP_le_length.trans_eq xs.length_rows
    have hall := Nat.le_mul_of_pos_left xs.height hk
    have hinside := Nat.mul_le_mul_left k hle
    have hk0 : (k : ℚ) ≠ 0 := Nat.cast_ne_zero.2 hk.ne'
    rw [ofNat_div_ofNat (hinside.trans hroom) hroom (Nat.mul_ne_zero hk.ne' h0),
      ofNat_div_ofNat (hle.trans (hall.trans hroom)) (hall.trans hroom) h0, Nat.cast_mul, Nat.cast_mul,
      mul_div_mul_left _ _ hk0]

end Band

namespace Classifier

variable {κ : Type} [DecidableEq κ]

theorem fit_eq_map (c : Classifier κ) (id : κ) (xs : Samples) (s : Binary64) : c.fit id xs s =
    (Band.fit xs s c.config).map fun b => (⟨c.config, c.bands.insert id b⟩, ⟨xs, (b.predict xs).confidence⟩) := by
  rw [fit]
  cases Band.fit xs s c.config <;> rfl

theorem confidence_fit (c : Classifier κ) (id : κ) {xs : Samples} (h0 : xs.height ≠ 0) (s : Binary64) :
    (c.fit id xs s).map (fun r => r.2.confidence) =
      (Band.fit xs s c.config).map fun b => ofNat (xs.rows.countP b.contains) / ofNat xs.height := by
  rw [fit_eq_map]
  cases Band.fit xs s c.config with
  | error => rfl
  | ok b => exact congrArg Except.ok (b.confidence_predict h0)

theorem confidence_fit_of_repeats (c : Classifier κ) (id : κ) {xs ys : Samples} (hc : c.config.reference = .median)
    (hxs : xs.check = .ok ()) {k : ℕ} (hk : 0 < k) (hentries : ∀ x ∈ xs.entries, |x.value| ≤ greatest.value / 4)
    (hrows : Statistics.Repeats k ys.rows xs.rows) (s : Binary64) : (c.fit id ys s).map (fun r => r.2.confidence) =
      (Band.fit xs s c.config).map fun b =>
        nearest false (k * xs.rows.countP b.contains : ℕ) / nearest false (k * xs.height : ℕ) := by
  have h0 := (Samples.check_eq_ok_iff.1 hxs).1.1
  rw [fit_eq_map, Band.fit_of_row_repeats hrows hk hxs hc hentries s]
  cases Band.fit xs s c.config with
  | error => rfl
  | ok b => exact congrArg Except.ok (b.share_of_repeats hrows hk h0)

/-- A fit with medians and its outcome depend on what stands in each column, not on the order of the values there, and
with the rows in another order the same share of them is taken in. Of numbers up to a quarter of the greatest, `k`
copies of all rows give the band of the rows themselves. Their share is the quotient of the two counts, each rounded;
it is the same share unless there are too many rows to count exactly. -/
theorem fit_of_distribution (c : Classifier κ) (id : κ) {xs ys : Samples} (hc : c.config.reference = .median)
    (hxs : xs.check = .ok ()) (s : Binary64) :
    (List.Forall₂ List.Perm ys.columns xs.columns → (c.fit id ys s).map Prod.fst = (c.fit id xs s).map Prod.fst) ∧
    (ys.rows.Perm xs.rows →
      (c.fit id ys s).map (fun r => (r.1, r.2.confidence)) = (c.fit id xs s).map fun r => (r.1, r.2.confidence)) ∧
    ∀ k, 0 < k → (∀ x ∈ xs.entries, |x.value| ≤ greatest.value / 4) →
      ys.rows.Perm (List.replicate k xs.rows).flatten →
      (c.fit id ys s).map (fun r => r.1.band? id) = (c.fit id xs s).map (fun r => (r.1.band? id).map (.ofRepeats k)) ∧
      (c.fit id ys s).map (fun r => r.2.confidence) = (Band.fit xs s c.config).map (fun b =>
        nearest false (k * xs.rows.countP b.contains : ℕ) / nearest false (k * xs.height : ℕ)) ∧
      (k * xs.height ≤ 2 ^ 53 →
        (c.fit id ys s).map (fun r => r.2.confidence) = (c.fit id xs s).map fun r => r.2.confidence) := by
  have h0 := (Samples.check_eq_ok_iff.1 hxs).1.1
  have honce (b : Band) : b.ofRepeats 1 = b := by rw [Band.ofRepeats, Nat.one_mul]
  refine ⟨fun hcolumns => ?_, fun hrows => ?_, fun k hk hentries hrows => ?_⟩
  · have hfit := Band.fit_of_repeats (Samples.repeats_one hcolumns) one_pos hxs hc (absurd rfl) s
    rw [fit_eq_map, fit_eq_map, hfit]
    cases Band.fit xs s c.config with
    | error => rfl
    | ok b => simp only [Except.map, honce]
  · have hrows' : Statistics.Repeats 1 ys.rows xs.rows := by simpa [Statistics.Repeats] using hrows
    have hfit := Band.fit_of_repeats (Samples.repeats_of_rows hrows' one_pos h0) one_pos hxs hc (absurd rfl) s
    rw [fit_eq_map, fit_eq_map, hfit]
    cases Band.fit xs s c.config with
    | error => rfl
    | ok b => simp only [Except.map, honce, b.confidence_of_repeats hrows' one_pos h0 (absurd rfl)]
  · have hfit := Band.fit_of_row_repeats hrows hk hxs hc hentries s
    refine ⟨?_, confidence_fit_of_repeats c id hc hxs hk hentries hrows s, fun hcount => ?_⟩
    all_goals rw [fit_eq_map, fit_eq_map, hfit]
    · cases Band.fit xs s c.config with
      | error => rfl
      | ok b => simp only [Except.map, band?, Registry.find?_insert_self, Option.map_some]
    · cases Band.fit xs s c.config with
      | error => rfl
      | ok b => exact congrArg Except.ok (b.confidence_of_repeats hrows hk h0 fun _ => hcount)

theorem fit_of_distribution_twice :
    let c : Classifier Int := ⟨⟨one, one, .median⟩, .empty⟩
    let xs : Samples := ⟨3, 2, [neg zero, two, zero, one, one, neg one], .rowMajor, rfl⟩
    let ys : Samples := ⟨3, 2, [neg zero, neg one, zero, one, one, two], .columnMajor, rfl⟩
    let zs : Samples := ⟨6, 2, xs.entries ++ xs.entries, .columnMajorReversed, rfl⟩
    c.config.reference = .median ∧ xs.check = .ok () ∧ List.Forall₂ List.Perm ys.columns xs.columns ∧
      (∀ x ∈ xs.entries, |x.value| ≤ greatest.value / 4) ∧ zs.rows.Perm (List.replicate 2 xs.rows).flatten ∧
      (c.fit 1 xs (one / two)).toOption.isSome = true ∧
      (c.fit 1 ys (one / two)).map Prod.fst = (c.fit 1 xs (one / two)).map Prod.fst ∧
      (c.fit 1 zs (one / two)).map (fun r => r.1.band? 1) =
        (c.fit 1 xs (one / two)).map (fun r => (r.1.band? 1).map (.ofRepeats 2)) ∧
      (c.fit 1 zs (one / two)).map (fun r => r.2.confidence) =
        (c.fit 1 xs (one / two)).map fun r => r.2.confidence := by
  intro c xs ys zs
  have hxs : xs.check = .ok () := by decide +kernel
  have hcolumns : List.Forall₂ List.Perm ys.columns xs.columns :=
    .cons (by decide +kernel) (.cons (by decide +kernel) .nil)
  have hentries : ∀ x ∈ xs.entries, |x.value| ≤ greatest.value / 4 := by decide +kernel
  have hrows : zs.rows.Perm (List.replicate 2 xs.rows).flatten := by decide +kernel
  have hok : (c.fit 1 xs (one / two)).toOption.isSome = true := by decide +kernel
  obtain ⟨hsame, -⟩ := @fit_of_distribution Int _ c 1 xs ys rfl hxs (one / two)
  obtain ⟨-, -, hcopies⟩ := @fit_of_distribution Int _ c 1 xs zs rfl hxs (one / two)
  obtain ⟨hband, -, hshare⟩ := hcopies 2 (by decide) hentries hrows
  exact ⟨rfl, hxs, hcolumns, hentries, hrows, hok, hsame hcolumns, hband, hshare (by decide)⟩

theorem share_of_too_many_copies :
    let c : Classifier Int := ⟨⟨zero, one, .median⟩, .empty⟩
    let xs : Samples := ⟨3, 1, [zero, one, two], .rowMajor, rfl⟩
    c.config.reference = .median ∧ xs.check = .ok () ∧ (∀ x ∈ xs.entries, |x.value| ≤ greatest.value / 4) ∧
      ∃ ys, Samples.ofRows (List.replicate (2 ^ 53 + 1) xs.rows).flatten = .ok ys ∧
        (c.fit 1 ys (one / two)).map (fun r => r.2.confidence) ≠
          (c.fit 1 xs (one / two)).map fun r => r.2.confidence := by
  -- One row of three is in the band. Both counts are rounded, and they are no longer as one to three.
  intro c xs
  have hxs : xs.check = .ok () := by decide +kernel
  have hentries : ∀ x ∈ xs.entries, |x.value| ≤ greatest.value / 4 := by decide +kernel
  have hfit : Band.fit xs (one / two) c.config = .ok ⟨[⟨one, one / two⟩], one / two, 3⟩ := by decide +kernel
  have hcount : xs.rows.countP (Band.contains ⟨[⟨one, one / two⟩], one / two, 3⟩) = 1 := by decide +kernel
  have hheight : xs.height ≠ 0 := by decide
  obtain ⟨ys, hys, hrows⟩ := Samples.exists_ofRows_replicate (k := 2 ^ 53 + 1) (by decide) hheight
  refine ⟨rfl, hxs, hentries, ys, hys, ?_⟩
  rw [confidence_fit_of_repeats c 1 rfl hxs (by decide) hentries (.of_eq hrows), confidence_fit c 1 hheight, hfit,
    Except.map, Except.map, hcount]
  exact mt Except.ok.inj (by decide +kernel)

end Classifier

end OutlierBand
