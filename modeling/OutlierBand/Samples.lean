import OutlierBand.Fault

namespace OutlierBand

/-- How a matrix lies in memory. It says nothing about the entries, only in which order a column is summed. -/
inductive Layout where
  | rowMajor
  | columnMajor
  | columnMajorReversed
  | columnMajorStrided
deriving DecidableEq

structure Samples where
  height : Nat
  width : Nat
  entries : List Binary64
  layout : Layout
  length_entries : entries.length = height * width
deriving DecidableEq

namespace Samples

def empty : Samples := ⟨0, 0, [], .rowMajor, rfl⟩

def ofEntries? (height width : Nat) (entries : List Binary64) (layout : Layout) : Option Samples :=
  if h : entries.length = height * width then some ⟨height, width, entries, layout, h⟩ else none

def pieces (width : Nat) : Nat → List Binary64 → List (List Binary64)
  | 0, _ => []
  | height + 1, xs => xs.take width :: pieces width height (xs.drop width)

def rows (xs : Samples) : List (List Binary64) := pieces xs.width xs.height xs.entries

def column (xs : Samples) (j : Nat) : List Binary64 := xs.rows.filterMap (·[j]?)

def columns (xs : Samples) : List (List Binary64) := (List.range xs.width).map xs.column

theorem length_flatten {rows : List (List Binary64)} {width : Nat} (h : ∀ row ∈ rows, row.length = width) :
    rows.flatten.length = rows.length * width := by
  induction rows with
  | nil => simp
  | cons row rows ih =>
    have hr := h row (by simp)
    have ht := ih fun r hr => h r (by simp [hr])
    simp [hr, ht, Nat.succ_mul, Nat.add_comm]

def ofRows (rows : List (List Binary64)) : Except Fault Samples :=
  let width := (rows.head?.map List.length).getD 0
  if h : ∀ row ∈ rows, row.length = width then
    .ok ⟨rows.length, width, rows.flatten, .rowMajor, length_flatten h⟩
  else
    let i := rows.findIdx (·.length != width)
    .error (.raggedRow i (rows[i]?.getD []).length width)

def checkRank (dimensions size : Nat) : Except Fault (Option Samples) :=
  if size = 0 then .ok (some empty)
  else if dimensions = 2 then .ok none
  else .error (.notAMatrix dimensions)

def nonFinite? (xs : Samples) : Option (Binary64 × Nat × Nat) :=
  let k := xs.entries.findIdx (!·.isFinite)
  xs.entries[k]?.map (·, k / xs.width, k % xs.width)

def check (xs : Samples) : Except Fault Unit :=
  if xs.height = 0 ∨ xs.width = 0 then .error (.emptySamples xs.height xs.width)
  else match xs.nonFinite? with
    | some (value, row, column) => .error (.nonFinite value row column)
    | none => .ok ()

theorem pieces_flatten {rows : List (List Binary64)} {width : Nat} (h : ∀ row ∈ rows, row.length = width) :
    pieces width rows.length rows.flatten = rows := by
  induction rows with
  | nil => rfl
  | cons row rows ih =>
    have ih := ih fun r hr => h r (by simp [hr])
    obtain rfl := h row (by simp)
    simp [pieces, ih]

theorem rows_ofRows {rows : List (List Binary64)} {xs : Samples} (h : ofRows rows = .ok xs) : xs.rows = rows := by
  simp only [ofRows] at h
  split at h
  · cases h; exact pieces_flatten (by assumption)
  · cases h

theorem ofRows_of_length {rows : List (List Binary64)} {width : Nat} (hne : rows ≠ [])
    (h : ∀ row ∈ rows, row.length = width) :
    ofRows rows = .ok ⟨rows.length, width, rows.flatten, .rowMajor, length_flatten h⟩ := by
  obtain ⟨row, rows, rfl⟩ := List.exists_cons_of_ne_nil hne
  obtain rfl : row.length = width := h row List.mem_cons_self
  exact dif_pos h

theorem check_eq_ok_iff {xs : Samples} :
    xs.check = .ok () ↔ (xs.height ≠ 0 ∧ xs.width ≠ 0) ∧ ∀ x ∈ xs.entries, x.isFinite = true := by
  have hfinite : xs.nonFinite? = none ↔ ∀ x ∈ xs.entries, x.isFinite = true := by
    have hle : xs.entries.findIdx (!·.isFinite) ≤ xs.entries.length := List.findIdx_le_length
    have heq : xs.entries.findIdx (!·.isFinite) = xs.entries.length ↔ ∀ x ∈ xs.entries, (!x.isFinite) = false :=
      List.findIdx_eq_length
    simp only [Bool.not_eq_false'] at heq
    rw [← heq, nonFinite?, Option.map_eq_none_iff, List.getElem?_eq_none_iff]
    omega
  rw [← hfinite, check]
  split
  next h => simp [← not_or, h]
  next h =>
    rw [not_or] at h
    cases xs.nonFinite? <;> simp [h]

theorem length_rows (xs : Samples) : xs.rows.length = xs.height := by
  have length_pieces (width height : Nat) (l : List Binary64) : (pieces width height l).length = height := by
    induction height generalizing l with
    | zero => rfl
    | succ n ih => simp [pieces, ih]
  exact length_pieces ..

end Samples

end OutlierBand
