/-!
Named entries in the order in which their names were first seen. Writing a name again keeps its
place and changes its value.
-/
namespace RecordConsole

variable {α : Type}

def putEntry (name : String) (value : α) : List (String × α) → List (String × α)
  | [] => [(name, value)]
  | (other, old) :: rest =>
    if other = name then (name, value) :: rest else (other, old) :: putEntry name value rest

def entriesOf (pairs : List (String × α)) : List (String × α) :=
  pairs.foldl (fun entries pair => putEntry pair.1 pair.2 entries) []

variable {κ : Type} [DecidableEq κ] [BEq κ] [LawfulBEq κ]

theorem lookup_cons_eq_ite (key other : κ) (value : α) (entries : List (κ × α)) :
    ((key, value) :: entries).lookup other =
      if other = key then some value else entries.lookup other := by
  by_cases h : other = key
  · simp [h]
  · have hne : (other == key) = false := by simpa using h
    simp [List.lookup_cons, hne, h]

theorem lookup_filter_ne (key other : κ) (entries : List (κ × α)) :
    (entries.filter (·.1 ≠ key)).lookup other =
      if other = key then none else entries.lookup other := by
  induction entries with
  | nil => simp
  | cons first rest ih =>
    rw [List.filter_cons]
    split <;> grind [lookup_cons_eq_ite]

theorem lookup_putEntry (name other : String) (value : α) (entries : List (String × α)) :
    (putEntry name value entries).lookup other =
      if other = name then some value else entries.lookup other := by
  induction entries with
  | nil => simp [putEntry, lookup_cons_eq_ite]
  | cons first rest ih =>
    unfold putEntry
    split <;> grind [lookup_cons_eq_ite]

end RecordConsole
