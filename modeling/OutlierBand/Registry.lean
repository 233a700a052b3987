namespace OutlierBand

structure Registry (κ α : Type) where
  entries : List (κ × α)
  nodup : (entries.map Prod.fst).Nodup

namespace Registry

variable {κ α : Type} [DecidableEq κ]

def empty : Registry κ α := ⟨[], .nil⟩

instance : Inhabited (Registry κ α) := ⟨empty⟩

def find? (r : Registry κ α) (k : κ) : Option α := (r.entries.find? (·.1 = k)).map Prod.snd

def contains (r : Registry κ α) (k : κ) : Bool := (r.find? k).isSome

def insert (r : Registry κ α) (k : κ) (a : α) : Registry κ α where
  entries := (k, a) :: r.entries.filter (·.1 ≠ k)
  nodup := by
    rw [List.map_cons, List.nodup_cons]
    refine ⟨by simp, (List.filter_sublist.map Prod.fst).nodup r.nodup⟩

def size (r : Registry κ α) : Nat := r.entries.length

def isEmpty (r : Registry κ α) : Bool := r.entries.isEmpty

@[simp] theorem find?_empty (k : κ) : (empty : Registry κ α).find? k = none := rfl

@[simp] theorem find?_insert_self (r : Registry κ α) (k : κ) (a : α) : (r.insert k a).find? k = some a := by
  simp [find?, insert]

theorem find?_insert_of_ne (r : Registry κ α) {k l : κ} (h : l ≠ k) (a : α) :
    (r.insert k a).find? l = r.find? l := by
  simp only [find?, insert, List.find?_cons, Ne.symm h, decide_false, List.find?_filter]
  congr 2
  funext p
  by_cases hp : p.1 = l <;> simp [hp, h]

end Registry

end OutlierBand
