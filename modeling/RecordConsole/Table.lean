import RecordConsole.Entries

/-!
Tables from names to values, kept in strictly increasing order of the names. Names are ordered by
code points, which is also the order of their UTF-8 bytes.
-/
namespace RecordConsole

variable {α : Type}

def insertSorted (name : String) (value : α) : List (String × α) → List (String × α)
  | [] => [(name, value)]
  | (other, old) :: rest =>
    if name < other then (name, value) :: (other, old) :: rest
    else if name = other then (name, value) :: rest
    else (other, old) :: insertSorted name value rest

def Ascending (entries : List (String × α)) : Prop :=
  entries.Pairwise fun a b => a.1 < b.1

theorem mem_insertSorted {name : String} {value : α} {e : String × α}
    {entries : List (String × α)} (h : e ∈ insertSorted name value entries) :
    e = (name, value) ∨ e ∈ entries := by
  induction entries with
  | nil => simpa [insertSorted] using h
  | cons first rest ih =>
    obtain ⟨other, old⟩ := first
    unfold insertSorted at h
    split at h
    · simpa using h
    · split at h
      · rcases List.mem_cons.mp h with h | h
        · exact Or.inl h
        · exact Or.inr (List.mem_cons_of_mem _ h)
      · rcases List.mem_cons.mp h with h | h
        · exact Or.inr (h ▸ List.mem_cons_self)
        · rcases ih h with h | h
          · exact Or.inl h
          · exact Or.inr (List.mem_cons_of_mem _ h)

theorem lt_of_not_lt_of_ne {a b : String} (h : ¬ a < b) (hne : ¬ a = b) : b < a :=
  Decidable.byContradiction fun hba =>
    hne (String.le_antisymm (String.not_lt.mp hba) (String.not_lt.mp h))

theorem ascending_insertSorted {name : String} {value : α} {entries : List (String × α)}
    (h : Ascending entries) : Ascending (insertSorted name value entries) := by
  induction entries with
  | nil => exact List.pairwise_singleton _ _
  | cons first rest ih =>
    obtain ⟨other, old⟩ := first
    obtain ⟨hfirst, hrest⟩ := List.pairwise_cons.mp h
    unfold insertSorted
    split
    · rename_i hlt
      refine List.pairwise_cons.mpr ⟨fun e he => ?_, h⟩
      rcases List.mem_cons.mp he with he | he
      · exact he ▸ hlt
      · exact String.lt_trans hlt (hfirst e he)
    · split
      · rename_i _ heq
        exact List.pairwise_cons.mpr ⟨fun e he => heq ▸ hfirst e he, hrest⟩
      · rename_i hnlt hne
        refine List.pairwise_cons.mpr ⟨fun e he => ?_, ih hrest⟩
        rcases mem_insertSorted he with he | he
        · exact he ▸ lt_of_not_lt_of_ne hnlt hne
        · exact hfirst e he

theorem lookup_insertSorted (name other : String) (value : α) (entries : List (String × α)) :
    (insertSorted name value entries).lookup other =
      if other = name then some value else entries.lookup other := by
  induction entries with
  | nil => simp [insertSorted, lookup_cons_eq_ite]
  | cons first rest ih =>
    unfold insertSorted
    split
    · grind [lookup_cons_eq_ite]
    · split <;> grind [lookup_cons_eq_ite]

structure Table (α : Type) where
  entries : List (String × α)
  ascending : Ascending entries

namespace Table

def empty : Table α := ⟨[], List.Pairwise.nil⟩

def find? (table : Table α) (name : String) : Option α := table.entries.lookup name

def contains (table : Table α) (name : String) : Bool := (table.find? name).isSome

def insert (table : Table α) (name : String) (value : α) : Table α :=
  ⟨insertSorted name value table.entries, ascending_insertSorted table.ascending⟩

def erase (table : Table α) (name : String) : Table α :=
  ⟨table.entries.filter (·.1 ≠ name), table.ascending.filter _⟩

/-- Later pairs replace earlier ones of the same name. -/
def ofList (pairs : List (String × α)) : Table α :=
  pairs.foldl (fun table pair => table.insert pair.1 pair.2) empty

def names (table : Table α) : List String := table.entries.map (·.1)

def ofNames (names : List String) : Table Unit := ofList (names.map fun name => (name, ()))

def size (table : Table α) : Nat := table.entries.length

theorem find?_empty (name : String) : (empty : Table α).find? name = none := rfl

theorem find?_insert (table : Table α) (name other : String) (value : α) :
    (table.insert name value).find? other =
      if other = name then some value else table.find? other :=
  lookup_insertSorted name other value table.entries

theorem find?_erase (table : Table α) (name other : String) :
    (table.erase name).find? other = if other = name then none else table.find? other :=
  lookup_filter_ne name other table.entries

end Table
end RecordConsole
