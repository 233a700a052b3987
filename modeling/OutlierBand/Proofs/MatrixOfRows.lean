import OutlierBand.Proofs.SampleDefects

namespace OutlierBand.Samples

def entry? (xs : Samples) (i j : Nat) : Option Binary64 :=
  if j < xs.width then xs.entries[i * xs.width + j]? else none

theorem entry?_eq_getElem?_rows (xs : Samples) (i j : Nat) : xs.entry? i j = xs.rows[i]?.bind (·[j]?) := by
  unfold entry?
  cases hrow : xs.rows[i]? with
  | some row =>
    rw [Option.bind_some]
    split_ifs with hj
    · exact getElem?_entries hrow hj
    · rw [List.getElem?_eq_none (by rw [length_of_getElem?_rows hrow]; omega)]
  | none =>
    have hi : xs.height ≤ i := xs.length_rows ▸ List.getElem?_eq_none_iff.1 hrow
    have hbeyond : xs.entries.length ≤ i * xs.width + j := by
      rw [xs.length_entries]
      exact (Nat.mul_le_mul_right _ hi).trans (Nat.le_add_right ..)
    rw [List.getElem?_eq_none hbeyond, ite_self, Option.bind_none]

def Rectangular (rows : List (List Binary64)) : Prop :=
  ∀ first ∈ rows.head?, ∀ row ∈ rows, row.length = first.length

def widthOfFirst (rows : List (List Binary64)) : Nat := (rows.head?.map List.length).getD 0

structure Tabulates (xs : Samples) (rows : List (List Binary64)) : Prop where
  height_eq : xs.height = rows.length
  width_eq : xs.width = widthOfFirst rows
  entry?_eq : ∀ i j, xs.entry? i j = rows[i]?.bind (·[j]?)
  rows_eq : xs.rows = rows

variable {rows : List (List Binary64)} {xs : Samples}

theorem OfRows.tabulates (h : xs.OfRows rows) : xs.Tabulates rows := by
  obtain rfl := h.rows_eq
  refine ⟨xs.length_rows.symm, ?_, xs.entry?_eq_getElem?_rows, rfl⟩
  cases hrows : xs.rows with
  | nil => exact h.width_eq hrows
  | cons row rest => exact (length_of_mem_rows (hrows ▸ List.mem_cons_self)).symm

theorem exists_ofRows_iff : (∃ xs, ofRows rows = .ok xs) ↔ Rectangular rows := by
  cases rows with
  | nil => exact iff_of_true ⟨_, rfl⟩ (by simp [Rectangular])
  | cons first rest =>
    constructor
    · rintro ⟨xs, hxs⟩ head hhead row hrow
      obtain rfl : first = head := Option.some.inj hhead
      have hrows := (ofRows_eq_ok_iff.1 hxs).rows_eq
      rw [length_of_mem_rows (hrows ▸ hrow), length_of_mem_rows (hrows ▸ List.mem_cons_self)]
    · intro h
      exact ⟨_, ofRows_of_length (by simp) (h first rfl)⟩

def ofShape? (limit height width : Nat) (entries : List Binary64) : Option Samples :=
  if max height 1 * max width 1 ≤ limit then ofEntries? height width entries .rowMajor else none

def ofJoinedRows (limit : Nat) (misfit : Fault) (rows : List (List Binary64)) : Except Fault Samples :=
  match rows.findIdx? (·.length != widthOfFirst rows) with
  | some i => .error (.raggedRow i (rows[i]?.getD []).length (widthOfFirst rows))
  | none =>
    match ofShape? limit rows.length (widthOfFirst rows) rows.flatten with
    | some xs => .ok xs
    | none => .error misfit

theorem size_le_of_rectangular {limit width : Nat} (hwidth : ∀ row ∈ rows, row.length = width)
    (hempty : rows = [] → width = 0) (hlimit : 0 < limit) (hrows : rows.length ≤ limit)
    (hentries : rows.flatten.length ≤ limit) : max rows.length 1 * max width 1 ≤ limit := by
  rcases Nat.eq_zero_or_pos width with rfl | hpos
  · simp only [Nat.zero_max, Nat.mul_one]
    exact max_le hrows hlimit
  · have hne : rows ≠ [] := fun h => hpos.ne' (hempty h)
    rw [max_eq_left (List.length_pos_iff.2 hne), max_eq_left hpos, ← length_flatten hwidth]
    exact hentries

theorem ofJoinedRows_eq_ofRows {limit : Nat} (misfit : Fault) (hlimit : 0 < limit) (hrows : rows.length ≤ limit)
    (hentries : rows.flatten.length ≤ limit) : ofJoinedRows limit misfit rows = ofRows rows := by
  unfold ofJoinedRows
  split
  next i hi =>
    obtain ⟨row, hrow⟩ := (exists_first_iff_findIdx? fun row => bne_iff_ne).2 hi
    obtain ⟨first, hfirst⟩ : ∃ first, rows[0]? = some first :=
      ⟨_, List.getElem?_eq_getElem (List.length_pos_of_mem (List.mem_of_getElem? hrow.getElem?))⟩
    have hwidth : widthOfFirst rows = first.length := by
      rw [widthOfFirst, List.head?_eq_getElem?, hfirst]
      rfl
    rw [hwidth] at hrow ⊢
    rw [ofRows_of_firstRagged ⟨hfirst, hrow⟩, hrow.getElem?, Option.getD_some]
  next hnone =>
    have hlength : ∀ row ∈ rows, row.length = widthOfFirst rows := by
      simpa [List.findIdx?_eq_none_iff] using hnone
    have hsize := size_le_of_rectangular hlength (by rintro rfl; rfl) hlimit hrows hentries
    have hok : ofRows rows =
        .ok ⟨rows.length, widthOfFirst rows, rows.flatten, .rowMajor, length_flatten hlength⟩ := dif_pos hlength
    rw [ofShape?, if_pos hsize, ofEntries?, dif_pos (length_flatten hlength), hok]

/-- Rows make a matrix exactly when all are as long as the first. The matrix then has each entry where its row has it,
gives the rows back and is the matrix of no other rows; else the first row of another length is reported. The shape that
the joined rows are cut up by always fits, whatever the limit of sizes, if the rows themselves are within it. -/
theorem rows_round_trip (rows : List (List Binary64)) :
    ((∃ xs, ofRows rows = .ok xs) ↔ Rectangular rows) ∧
      (∀ xs, ofRows rows = .ok xs → xs.Tabulates rows ∧ ∀ others, ofRows others = .ok xs → others = rows) ∧
      (∀ report, told (ofRows rows) = some report ↔ ∃ i row first, FirstRagged rows i row first ∧
        report = .invalidInput s!"row {i} has {row.length} features, expected {first.length}") ∧
      ∀ limit misfit, 0 < limit → rows.length ≤ limit → rows.flatten.length ≤ limit →
        ofJoinedRows limit misfit rows = ofRows rows := by
  refine ⟨exists_ofRows_iff, fun xs hxs => ⟨(ofRows_eq_ok_iff.1 hxs).tabulates, fun others hothers => ?_⟩,
    fun report => told_ofRows, fun limit misfit => ofJoinedRows_eq_ofRows misfit⟩
  exact (rows_ofRows hothers).symm.trans (rows_ofRows hxs)

theorem rows_round_trip_empty_rows : ∃ xs, ofRows [[], [], []] = .ok xs ∧ xs.height = 3 ∧ xs.width = 0 ∧
    xs.rows = [[], [], []] ∧ (∀ others, ofRows others = .ok xs → others = [[], [], []]) ∧
    ofJoinedRows 3 (.overflow 0) [[], [], []] = .ok xs := by
  obtain ⟨hok, htable, -, hjoined⟩ := rows_round_trip [[], [], []]
  obtain ⟨xs, hxs⟩ := hok.2 (by simp [Rectangular])
  obtain ⟨htabulates, hunique⟩ := htable xs hxs
  refine ⟨xs, hxs, htabulates.height_eq, htabulates.width_eq, htabulates.rows_eq, hunique, ?_⟩
  rw [hjoined 3 (.overflow 0) (by decide) (by decide) (by decide), hxs]

end OutlierBand.Samples
