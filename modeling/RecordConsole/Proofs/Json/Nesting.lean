import RecordConsole.Json.Value

/-! How deep values nest, what keys and numbers they hold, and the induction over the parts of a
value that such properties go by. -/
namespace RecordConsole

namespace Json

mutual

/-- How many containers stand around each other at most; an empty one counts as well. -/
def depth : Json → Nat
  | .array items => depthItems items + 1
  | .object entries => depthEntries entries + 1
  | _ => 0

def depthItems : List Json → Nat
  | [] => 0
  | v :: rest => max (depth v) (depthItems rest)

def depthEntries : List (String × Json) → Nat
  | [] => 0
  | (_, v) :: rest => max (depth v) (depthEntries rest)

end

mutual

def Keyed : Json → Prop
  | .array items => KeyedItems items
  | .object entries => (entries.map (·.1)).Nodup ∧ KeyedEntries entries
  | _ => True

def KeyedItems : List Json → Prop
  | [] => True
  | v :: rest => Keyed v ∧ KeyedItems rest

def KeyedEntries : List (String × Json) → Prop
  | [] => True
  | (_, v) :: rest => Keyed v ∧ KeyedEntries rest

end

mutual

def Integral : Json → Prop
  | .number (.float _ _) => False
  | .array items => IntegralItems items
  | .object entries => IntegralEntries entries
  | _ => True

def IntegralItems : List Json → Prop
  | [] => True
  | v :: rest => Integral v ∧ IntegralItems rest

def IntegralEntries : List (String × Json) → Prop
  | [] => True
  | (_, v) :: rest => Integral v ∧ IntegralEntries rest

end

theorem keyedItems_iff {items : List Json} : KeyedItems items ↔ ∀ v ∈ items, v.Keyed := by
  induction items with
  | nil => simp [KeyedItems]
  | cons v rest ih => simp only [KeyedItems, List.mem_cons, forall_eq_or_imp, ih]

theorem integralItems_iff {items : List Json} :
    IntegralItems items ↔ ∀ v ∈ items, v.Integral := by
  induction items with
  | nil => simp [IntegralItems]
  | cons v rest ih => simp only [IntegralItems, List.mem_cons, forall_eq_or_imp, ih]

theorem depthItems_le_iff {items : List Json} {n : Nat} :
    depthItems items ≤ n ↔ ∀ v ∈ items, v.depth ≤ n := by
  induction items with
  | nil => simp [depthItems]
  | cons v rest ih =>
    simp only [depthItems, List.mem_cons, forall_eq_or_imp, ← ih]
    omega

theorem depthEntries_le_iff {entries : List (String × Json)} {n : Nat} :
    depthEntries entries ≤ n ↔ ∀ entry ∈ entries, entry.2.depth ≤ n := by
  induction entries with
  | nil => simp [depthEntries]
  | cons first rest ih =>
    obtain ⟨key, v⟩ := first
    simp only [depthEntries, List.mem_cons, forall_eq_or_imp, ← ih]
    omega

theorem keyedEntries_iff {entries : List (String × Json)} :
    KeyedEntries entries ↔ ∀ entry ∈ entries, entry.2.Keyed := by
  induction entries with
  | nil => simp [KeyedEntries]
  | cons first rest ih =>
    obtain ⟨key, v⟩ := first
    simp only [KeyedEntries, List.mem_cons, forall_eq_or_imp, ih]

theorem integralEntries_iff {entries : List (String × Json)} :
    IntegralEntries entries ↔ ∀ entry ∈ entries, entry.2.Integral := by
  induction entries with
  | nil => simp [IntegralEntries]
  | cons first rest ih =>
    obtain ⟨key, v⟩ := first
    simp only [IntegralEntries, List.mem_cons, forall_eq_or_imp, ih]

section Induction

variable {motive : Json → Prop} (null : motive .null) (bool : ∀ b, motive (.bool b))
  (number : ∀ n, motive (.number n)) (string : ∀ text, motive (.string text))
  (array : ∀ items, (∀ v ∈ items, motive v) → motive (.array items))
  (object : ∀ entries : List (String × Json), (∀ entry ∈ entries, motive entry.2) →
    motive (.object entries))

include null bool number string array object

set_option linter.unusedSectionVars false

mutual

/-- What a container has as soon as all its parts have it, all values have. -/
theorem parts_induction : ∀ v, motive v
  | .null => null
  | .bool b => bool b
  | .number n => number n
  | .string text => string text
  | .array items => array items (items_induction items)
  | .object entries => object entries (entries_induction entries)

theorem items_induction : ∀ items : List Json, ∀ v ∈ items, motive v
  | [] => by simp
  | v :: rest => by
    have hfirst := parts_induction v
    have hothers := items_induction rest
    exact List.forall_mem_cons.mpr ⟨hfirst, hothers⟩

theorem entries_induction : ∀ entries : List (String × Json), ∀ entry ∈ entries, motive entry.2
  | [] => by simp
  | (_, v) :: rest => by
    have hfirst := parts_induction v
    have hothers := entries_induction rest
    exact List.forall_mem_cons.mpr ⟨hfirst, hothers⟩

end

end Induction

end Json

end RecordConsole
