import OutlierBand.Proofs.ColumnSummary

namespace OutlierBand

def told {α : Type} : Except Fault α → Option Report
  | .ok _ => none
  | .error fault => some fault.report

theorem exists_ok_iff {α : Type} {x : Except Fault α} {p : Report → Prop}
    (h : ∀ report, told x = some report ↔ p report) : (∃ a, x = .ok a) ↔ ∀ report, ¬p report := by
  simp only [← h]
  cases x <;> simp [told]

structure RefusedFor {α : Type} (x : Except Fault α) (p : Report → Prop) : Prop where
  told_iff : ∀ report, told x = some report ↔ p report
  ok_iff : (∃ a, x = .ok a) ↔ ∀ report, ¬p report

theorem refusedFor {α : Type} {x : Except Fault α} {p : Report → Prop}
    (h : ∀ report, told x = some report ↔ p report) : RefusedFor x p := ⟨h, exists_ok_iff h⟩

theorem told_bind {α β : Type} {x : Except Fault α} {f : α → Except Fault β} {report : Report} :
    told (x >>= f) = some report ↔ told x = some report ∨ ∃ a, x = .ok a ∧ told (f a) = some report := by
  cases x <;> simp [told, bind, Except.bind]

structure First {α : Type} (p : α → Prop) (l : List α) (i : Nat) (a : α) : Prop where
  getElem? : l[i]? = some a
  holds : p a
  before : ∀ k < i, ∀ b, l[k]? = some b → ¬p b

section

variable {α : Type} {p : α → Prop} {q : α → Bool} {l : List α} {i : Nat} {a : α}

theorem exists_first_iff_findIdx? (hq : ∀ a, q a = true ↔ p a) : (∃ a, First p l i a) ↔ l.findIdx? q = some i := by
  rw [List.findIdx?_eq_some_iff_getElem]
  constructor
  · rintro ⟨a, h⟩
    obtain ⟨hlt, rfl⟩ := List.getElem?_eq_some_iff.1 h.getElem?
    refine ⟨hlt, (hq _).2 h.holds, fun k hk hp => ?_⟩
    exact h.before k hk _ (List.getElem?_eq_getElem _) ((hq _).1 hp)
  · rintro ⟨hlt, hp, hbefore⟩
    refine ⟨l[i], List.getElem?_eq_getElem hlt, (hq _).1 hp, fun k hk b hb => ?_⟩
    obtain ⟨_, rfl⟩ := List.getElem?_eq_some_iff.1 hb
    exact mt (hq _).2 (hbefore k hk)

theorem first_iff_findIdx (hq : ∀ a, q a = true ↔ p a) : First p l i a ↔ l.findIdx q = i ∧ l[i]? = some a := by
  constructor
  · intro h
    have hplace := (exists_first_iff_findIdx? hq).1 ⟨a, h⟩
    exact ⟨(List.findIdx?_eq_some_iff_findIdx_eq.1 hplace).2, h.getElem?⟩
  · rintro ⟨rfl, ha⟩
    have hlt := (List.getElem?_eq_some_iff.1 ha).1
    obtain ⟨b, hb⟩ := (exists_first_iff_findIdx? hq).2 (List.findIdx?_eq_some_iff_findIdx_eq.2 ⟨hlt, rfl⟩)
    obtain rfl : a = b := Option.some.inj (ha.symm.trans hb.getElem?)
    exact hb

theorem exists_first (h : ∃ a ∈ l, p a) : ∃ i a, First p l i a := by
  classical
  obtain ⟨a, ha, hp⟩ := h
  have hlt : l.findIdx (decide <| p ·) < l.length := List.findIdx_lt_length_of_exists ⟨a, ha, decide_eq_true hp⟩
  exact ⟨_, _, (first_iff_findIdx fun a => decide_eq_true_iff).2 ⟨rfl, List.getElem?_eq_getElem hlt⟩⟩

end

namespace Samples

theorem getElem?_pieces {width height i : Nat} (l : List Binary64) (hi : i < height) :
    (pieces width height l)[i]? = some ((l.drop (i * width)).take width) := by
  induction height generalizing l i with
  | zero => omega
  | succ n ih =>
    cases i with
    | zero => simp [pieces]
    | succ i =>
      have hdrop : width + i * width = (i + 1) * width := by rw [Nat.succ_mul, Nat.add_comm]
      simp only [pieces, List.getElem?_cons_succ]
      rw [ih _ (by omega), List.drop_drop, hdrop]

theorem flatten_pieces {width height : Nat} {l : List Binary64} (h : l.length = height * width) :
    (pieces width height l).flatten = l := by
  induction height generalizing l with
  | zero => simp_all [pieces]
  | succ n ih =>
    have hrest : (l.drop width).length = n * width := by rw [List.length_drop, h, Nat.succ_mul]; omega
    rw [pieces, List.flatten_cons, ih hrest, List.take_append_drop]

theorem flatten_rows (xs : Samples) : xs.rows.flatten = xs.entries := flatten_pieces xs.length_entries

theorem length_of_getElem?_rows {xs : Samples} {i : Nat} {row : List Binary64} (h : xs.rows[i]? = some row) :
    row.length = xs.width := length_of_mem_rows (List.mem_of_getElem? h)

theorem lt_height_of_getElem?_rows {xs : Samples} {i : Nat} {row : List Binary64} (h : xs.rows[i]? = some row) :
    i < xs.height := xs.length_rows ▸ (List.getElem?_eq_some_iff.1 h).1

theorem lt_width_of_getElem?_row {xs : Samples} {i j : Nat} {row : List Binary64} {x : Binary64}
    (hrow : xs.rows[i]? = some row) (hx : row[j]? = some x) : j < xs.width :=
  length_of_getElem?_rows hrow ▸ (List.getElem?_eq_some_iff.1 hx).1

theorem getElem?_entries {xs : Samples} {i j : Nat} {row : List Binary64} (hrow : xs.rows[i]? = some row)
    (hj : j < xs.width) : xs.entries[i * xs.width + j]? = row[j]? := by
  rw [rows, getElem?_pieces _ (lt_height_of_getElem?_rows hrow)] at hrow
  rw [← Option.some.inj hrow, List.getElem?_take_of_lt hj, List.getElem?_drop]

theorem exists_row_of_getElem?_entries {xs : Samples} {k : Nat} {x : Binary64} (h : xs.entries[k]? = some x) :
    k % xs.width < xs.width ∧ ∃ row, xs.rows[k / xs.width]? = some row ∧ row[k % xs.width]? = some x := by
  have hlt : k < xs.height * xs.width := xs.length_entries ▸ (List.getElem?_eq_some_iff.1 h).1
  have hmod : k % xs.width < xs.width := Nat.mod_lt _ (Nat.pos_of_mul_pos_left (Nat.zero_lt_of_lt hlt))
  have hrow : k / xs.width < xs.rows.length := by
    rw [length_rows]
    exact Nat.div_lt_of_lt_mul (Nat.mul_comm .. ▸ hlt)
  have hget := List.getElem?_eq_getElem hrow
  refine ⟨hmod, _, hget, ?_⟩
  rw [← getElem?_entries hget hmod, Nat.div_add_mod', h]

theorem first_entries_iff {p : Binary64 → Prop} {xs : Samples} {i j : Nat} {x : Binary64} (hj : j < xs.width) :
    First p xs.entries (i * xs.width + j) x ↔
      ∃ row, First (fun row => ∃ x ∈ row, p x) xs.rows i row ∧ First p row j x := by
  constructor
  · intro h
    have hi : i < xs.rows.length := by
      have hlt := (List.getElem?_eq_some_iff.1 h.getElem?).1
      rw [xs.length_entries] at hlt
      rw [length_rows]
      exact Nat.lt_of_mul_lt_mul_right (Nat.lt_of_le_of_lt (Nat.le_add_right _ j) hlt)
    have hrow := List.getElem?_eq_getElem hi
    have hx := getElem?_entries hrow hj ▸ h.getElem?
    refine ⟨_, ⟨hrow, ⟨x, List.mem_of_getElem? hx, h.holds⟩, ?_⟩, hx, h.holds, ?_⟩
    · rintro k hk earlier hearlier ⟨y, hy, hp⟩
      obtain ⟨l, hl⟩ := List.getElem?_of_mem hy
      -- A bad entry of an earlier row stands before all of row `i`, and so before the first bad entry.
      have hlt := lt_width_of_getElem?_row hearlier hl
      have hnext := Nat.mul_le_mul_right xs.width hk
      rw [Nat.succ_mul] at hnext
      exact h.before (k * xs.width + l) (by omega) y ((getElem?_entries hearlier hlt).trans hl) hp
    · intro l hl y hy
      exact h.before _ (Nat.add_lt_add_left hl _) y ((getElem?_entries hrow (hl.trans hj)).trans hy)
  · rintro ⟨row, hrow, hx⟩
    refine ⟨(getElem?_entries hrow.getElem? hj).trans hx.getElem?, hx.holds, fun k hk y hy hp => ?_⟩
    obtain ⟨hmod, earlier, hearlier, hyrow⟩ := exists_row_of_getElem?_entries hy
    have hdiv := Nat.div_add_mod' k xs.width
    rcases Nat.lt_trichotomy (k / xs.width) i with hlt | heq | hgt
    · exact hrow.before _ hlt _ hearlier ⟨y, List.mem_of_getElem? hyrow, hp⟩
    · rw [heq] at hearlier hdiv
      obtain rfl : row = earlier := Option.some.inj (hrow.getElem?.symm.trans hearlier)
      exact hx.before _ (by omega) y hyrow hp
    · have hnext := Nat.mul_le_mul_right xs.width hgt
      rw [Nat.succ_mul] at hnext
      omega

theorem ext_rows {xs ys : Samples} (hrows : xs.rows = ys.rows) (hwidth : xs.width = ys.width)
    (hlayout : xs.layout = ys.layout) : xs = ys := by
  have hheight : xs.height = ys.height := by rw [← xs.length_rows, ← ys.length_rows, hrows]
  have hentries : xs.entries = ys.entries := by rw [← flatten_rows, ← flatten_rows, hrows]
  cases xs
  cases ys
  simp_all

theorem width_eq_of_rows_eq {xs ys : Samples} (hrows : xs.rows = ys.rows) (h0 : xs.height ≠ 0) :
    xs.width = ys.width := by
  obtain ⟨row, hrow⟩ := List.exists_mem_of_length_pos (xs.length_rows ▸ Nat.pos_of_ne_zero h0)
  rw [← length_of_mem_rows hrow, ← length_of_mem_rows (hrows ▸ hrow)]

structure OfRows (xs : Samples) (rows : List (List Binary64)) : Prop where
  rows_eq : xs.rows = rows
  width_eq : rows = [] → xs.width = 0
  layout_eq : xs.layout = .rowMajor

theorem exists_ofRows {rows : List (List Binary64)} {width : Nat} (hne : rows ≠ [])
    (hwidth : ∀ row ∈ rows, row.length = width) :
    ∃ xs, ofRows rows = .ok xs ∧ xs.rows = rows ∧ xs.height ≠ 0 ∧ xs.width = width := by
  have h := ofRows_of_length hne hwidth
  exact ⟨_, h, rows_ofRows h, mt List.length_eq_zero_iff.1 hne, rfl⟩

theorem ofRows_eq_ok_iff {rows : List (List Binary64)} {xs : Samples} : ofRows rows = .ok xs ↔ xs.OfRows rows := by
  constructor
  · intro h
    simp only [ofRows] at h
    split at h
    · cases h
      refine ⟨pieces_flatten ‹_›, ?_, rfl⟩
      rintro rfl
      rfl
    · cases h
  · intro h
    by_cases hne : rows = []
    · subst hne
      exact congrArg Except.ok (ext_rows h.rows_eq.symm (h.width_eq rfl).symm h.layout_eq.symm)
    · have hlength : ∀ row ∈ rows, row.length = xs.width := by
        intro row hrow
        exact length_of_mem_rows (h.rows_eq ▸ hrow)
      rw [ofRows_of_length hne hlength]
      exact congrArg Except.ok (ext_rows ((pieces_flatten hlength).trans h.rows_eq.symm) rfl h.layout_eq.symm)

structure FirstRagged (rows : List (List Binary64)) (i : Nat) (row first : List Binary64) : Prop where
  getElem?_zero : rows[0]? = some first
  first : First (·.length ≠ first.length) rows i row

theorem firstRagged_second {first row : List Binary64} (h : row.length ≠ first.length) (rest : List (List Binary64)) :
    FirstRagged (first :: row :: rest) 1 row first := by
  refine ⟨rfl, rfl, h, fun k hk earlier hearlier => ?_⟩
  obtain rfl : k = 0 := by omega
  obtain rfl : first = earlier := Option.some.inj hearlier
  exact not_not.2 rfl

theorem ofRows_of_firstRagged {rows : List (List Binary64)} {i : Nat} {row first : List Binary64}
    (h : FirstRagged rows i row first) : ofRows rows = .error (.raggedRow i row.length first.length) := by
  cases rows with
  | nil => cases h.getElem?_zero
  | cons head rest =>
    obtain rfl : head = first := Option.some.inj h.getElem?_zero
    have hragged : ¬∀ row ∈ head :: rest, row.length = head.length := by
      intro hall
      exact h.first.holds (hall row (List.mem_of_getElem? h.first.getElem?))
    have herror : ofRows (head :: rest) = .error (.raggedRow ((head :: rest).findIdx (·.length != head.length))
        ((head :: rest)[(head :: rest).findIdx (·.length != head.length)]?.getD []).length head.length) :=
      dif_neg hragged
    obtain ⟨hplace, hrow⟩ := (first_iff_findIdx fun row : List Binary64 => bne_iff_ne).1 h.first
    rw [herror, hplace, hrow]
    rfl

theorem ofRows_eq_error_iff {rows : List (List Binary64)} {fault : Fault} : ofRows rows = .error fault ↔
    ∃ i row first, FirstRagged rows i row first ∧ fault = .raggedRow i row.length first.length := by
  constructor
  · intro h
    cases rows with
    | nil => cases h
    | cons first rest =>
      by_cases hall : ∀ row ∈ first :: rest, row.length = first.length
      · rw [ofRows_of_length (by simp) hall] at h
        cases h
      · push Not at hall
        obtain ⟨i, row, hfirst⟩ := exists_first hall
        have hragged : FirstRagged (first :: rest) i row first := ⟨rfl, hfirst⟩
        rw [ofRows_of_firstRagged hragged] at h
        cases h
        exact ⟨i, row, first, hragged, rfl⟩
  · rintro ⟨i, row, first, h, rfl⟩
    exact ofRows_of_firstRagged h

theorem told_ofRows {rows : List (List Binary64)} {report : Report} : told (ofRows rows) = some report ↔
    ∃ i row first, FirstRagged rows i row first ∧
      report = .invalidInput s!"row {i} has {row.length} features, expected {first.length}" := by
  constructor
  · intro h
    cases hrows : ofRows rows with
    | ok xs => rw [hrows] at h; cases h
    | error fault =>
      obtain ⟨i, row, first, hragged, rfl⟩ := ofRows_eq_error_iff.1 hrows
      rw [hrows] at h
      cases h
      exact ⟨i, row, first, hragged, rfl⟩
  · rintro ⟨i, row, first, hragged, rfl⟩
    rw [ofRows_of_firstRagged hragged]
    rfl

inductive RowsRefusal (p : Samples → Report → Prop) (rows : List (List Binary64)) : Report → Prop
  | ragged {i : Nat} {row first : List Binary64} (h : FirstRagged rows i row first) :
    RowsRefusal p rows (.invalidInput s!"row {i} has {row.length} features, expected {first.length}")
  | matrix {xs : Samples} {report : Report} (hxs : xs.OfRows rows) (h : p xs report) : RowsRefusal p rows report

theorem told_ofRows_bind {α : Type} {f : Samples → Except Fault α} {p : Samples → Report → Prop}
    (hf : ∀ xs report, told (f xs) = some report ↔ p xs report) (rows : List (List Binary64)) (report : Report) :
    told (ofRows rows >>= f) = some report ↔ RowsRefusal p rows report := by
  rw [told_bind, told_ofRows]
  constructor
  · rintro (⟨i, row, first, hragged, rfl⟩ | ⟨xs, hxs, h⟩)
    · exact .ragged hragged
    · exact .matrix (ofRows_eq_ok_iff.1 hxs) ((hf xs report).1 h)
  · rintro (h | ⟨hxs, h⟩)
    · exact .inl ⟨_, _, _, h, rfl⟩
    · exact .inr ⟨_, ofRows_eq_ok_iff.2 hxs, (hf _ report).2 h⟩

inductive Defect (xs : Samples) : Report → Prop
  | empty (h : xs.height = 0 ∨ xs.width = 0) : Defect xs (.invalidInput
    s!"samples must have at least one row and one column, got shape ({xs.height}, {xs.width})")
  | nonFinite {i j : Nat} {row : List Binary64} {x : Binary64}
    (hrow : First (fun row => ∃ x ∈ row, x.isFinite = false) xs.rows i row)
    (hx : First (·.isFinite = false) row j x) :
    Defect xs (.invalidInput s!"non-finite value {x.text} at row {i}, column {j}")

theorem nonFinite?_eq_some_iff {xs : Samples} {i j : Nat} {x : Binary64} : xs.nonFinite? = some (x, i, j) ↔
    ∃ row, First (fun row => ∃ x ∈ row, x.isFinite = false) xs.rows i row ∧ First (·.isFinite = false) row j x := by
  have hfirst {k : Nat} : First (·.isFinite = false) xs.entries k x ↔
      xs.entries.findIdx (!·.isFinite) = k ∧ xs.entries[k]? = some x := first_iff_findIdx fun x => by simp
  rw [nonFinite?, Option.map_eq_some_iff]
  constructor
  · rintro ⟨y, hy, h⟩
    cases h
    apply (first_entries_iff (exists_row_of_getElem?_entries hy).1).1
    rw [Nat.div_add_mod']
    exact hfirst.2 ⟨rfl, hy⟩
  · rintro ⟨row, hrow, hx⟩
    have hj := lt_width_of_getElem?_row hrow.getElem? hx.getElem?
    obtain ⟨hk, hget⟩ := hfirst.1 ((first_entries_iff hj).2 ⟨row, hrow, hx⟩)
    refine ⟨x, hk ▸ hget, ?_⟩
    rw [hk, Nat.add_comm, Nat.add_mul_div_right _ _ (Nat.zero_lt_of_lt hj), Nat.div_eq_of_lt hj, Nat.zero_add,
      Nat.add_mul_mod_self_right, Nat.mod_eq_of_lt hj]

theorem told_check {xs : Samples} {report : Report} : told xs.check = some report ↔ xs.Defect report := by
  unfold check
  split
  next hempty =>
    constructor
    · intro h
      cases h
      exact .empty hempty
    · intro h
      cases h with
      | empty => rfl
      | nonFinite hrow hx =>
        have hi := lt_height_of_getElem?_rows hrow.getElem?
        have hj := lt_width_of_getElem?_row hrow.getElem? hx.getElem?
        omega
  next hne =>
    split
    next x i j h =>
      constructor
      · intro htold
        cases htold
        obtain ⟨row, hrow, hx⟩ := nonFinite?_eq_some_iff.1 h
        exact .nonFinite hrow hx
      · intro hdefect
        cases hdefect with
        | empty hempty => exact absurd hempty hne
        | nonFinite hrow hx =>
          cases h.symm.trans (nonFinite?_eq_some_iff.2 ⟨_, hrow, hx⟩)
          rfl
    next h =>
      refine iff_of_false (by simp [told]) fun hdefect => ?_
      cases hdefect with
      | empty hempty => exact hne hempty
      | nonFinite hrow hx => cases h.symm.trans (nonFinite?_eq_some_iff.2 ⟨_, hrow, hx⟩)

theorem check_eq_ok_iff_defect {xs : Samples} : xs.check = .ok () ↔ ∀ report, ¬xs.Defect report := by
  rw [← exists_ok_iff fun _ => told_check]
  exact ⟨fun h => ⟨(), h⟩, fun ⟨_, h⟩ => h⟩

end Samples

end OutlierBand
