import Mathlib.Data.List.Induction
import RecordConsole.Entries

/-! Entries made of pairs: each of them is one of the pairs, no name comes twice, the last pair of a
name gives its value and the first one its place, and pairs of distinct names are entries as they
stand. -/
namespace RecordConsole

variable {α : Type}

theorem mem_putEntry {name : String} {value : α} {entries : List (String × α)}
    {entry : String × α} (h : entry ∈ putEntry name value entries) :
    entry = (name, value) ∨ entry ∈ entries := by
  induction entries with
  | nil => simpa [putEntry] using h
  | cons first rest ih =>
    obtain ⟨other, old⟩ := first
    unfold putEntry at h
    split at h
    · rcases List.mem_cons.mp h with h | h
      · exact Or.inl h
      · exact Or.inr (List.mem_cons_of_mem _ h)
    · rcases List.mem_cons.mp h with h | h
      · exact Or.inr (h ▸ List.mem_cons_self)
      · exact (ih h).imp_right (List.mem_cons_of_mem _)

theorem names_putEntry (name : String) (value : α) (entries : List (String × α)) :
    (putEntry name value entries).map (·.1) =
      if name ∈ entries.map (·.1) then entries.map (·.1) else entries.map (·.1) ++ [name] := by
  induction entries with
  | nil => simp [putEntry]
  | cons first rest ih =>
    obtain ⟨other, old⟩ := first
    unfold putEntry
    by_cases h : other = name
    · simp [h]
    · simp only [h, if_false, List.map_cons, ih, List.mem_cons, Ne.symm h, false_or]
      split <;> rfl

theorem nodup_putEntry {name : String} {value : α} {entries : List (String × α)}
    (h : (entries.map (·.1)).Nodup) : ((putEntry name value entries).map (·.1)).Nodup := by
  rw [names_putEntry]
  split
  · exact h
  · rename_i hname
    exact List.nodup_append.mpr ⟨h, List.pairwise_singleton _ _, by
      rintro a ha b hb rfl
      exact hname (List.mem_singleton.mp hb ▸ ha)⟩

theorem putEntry_of_not_mem {name : String} {value : α} {entries : List (String × α)}
    (h : name ∉ entries.map (·.1)) : putEntry name value entries = entries ++ [(name, value)] := by
  induction entries with
  | nil => rfl
  | cons first rest ih =>
    obtain ⟨other, old⟩ := first
    simp only [List.map_cons, List.mem_cons, not_or] at h
    rw [putEntry, if_neg (Ne.symm h.1), ih h.2, List.cons_append]

private theorem foldl_putEntry_spec (pairs entries : List (String × α))
    (h : (entries.map (·.1)).Nodup) :
    ((pairs.foldl (fun entries pair => putEntry pair.1 pair.2 entries) entries).map
        (·.1)).Nodup ∧
      ∀ entry ∈ pairs.foldl (fun entries pair => putEntry pair.1 pair.2 entries) entries,
        entry ∈ pairs ∨ entry ∈ entries := by
  induction pairs generalizing entries with
  | nil => exact ⟨h, fun entry hentry => Or.inr hentry⟩
  | cons pair rest ih =>
    obtain ⟨hnodup, hmem⟩ := ih (putEntry pair.1 pair.2 entries) (nodup_putEntry h)
    refine ⟨hnodup, ?_⟩
    intro entry hentry
    rcases hmem entry hentry with hrest | hput
    · exact Or.inl (List.mem_cons_of_mem _ hrest)
    · rcases mem_putEntry hput with rfl | hold
      · exact Or.inl List.mem_cons_self
      · exact Or.inr hold

theorem nodup_entriesOf (pairs : List (String × α)) : ((entriesOf pairs).map (·.1)).Nodup :=
  (foldl_putEntry_spec pairs [] List.nodup_nil).1

theorem mem_of_mem_entriesOf {pairs : List (String × α)} {entry : String × α}
    (h : entry ∈ entriesOf pairs) : entry ∈ pairs :=
  ((foldl_putEntry_spec pairs [] List.nodup_nil).2 entry h).resolve_right List.not_mem_nil

private theorem foldl_putEntry_append (pairs entries : List (String × α))
    (h : ((entries ++ pairs).map (·.1)).Nodup) :
    pairs.foldl (fun entries pair => putEntry pair.1 pair.2 entries) entries =
      entries ++ pairs := by
  induction pairs generalizing entries with
  | nil => simp
  | cons pair rest ih =>
    have hnot : pair.1 ∉ entries.map (·.1) := by
      intro hmem
      rw [List.map_append, List.map_cons] at h
      exact (List.nodup_append.mp h).2.2 pair.1 hmem pair.1 List.mem_cons_self rfl
    rw [List.foldl_cons, putEntry_of_not_mem hnot, ih]
    · simp
    · simpa using h

theorem entriesOf_of_nodup {pairs : List (String × α)} (h : (pairs.map (·.1)).Nodup) :
    entriesOf pairs = pairs :=
  foldl_putEntry_append pairs [] h

/-- Where a pair that is put in is found from then on, the last pair of each name is found. -/
theorem find_foldl {β : Type} (find : β → String → Option α) (put : β → String × α → β)
    (h : ∀ filled pair name,
      find (put filled pair) name = if name = pair.1 then some pair.2 else find filled name)
    (pairs : List (String × α)) (filled : β) (name : String) :
    find (pairs.foldl put filled) name = (pairs.reverse.lookup name).or (find filled name) := by
  induction pairs generalizing filled with
  | nil => rfl
  | cons pair rest ih =>
    rw [List.foldl_cons, ih, h, List.reverse_cons, List.lookup_append, lookup_cons_eq_ite]
    cases rest.reverse.lookup name with
    | some value => rfl
    | none => split <;> rfl

theorem lookup_entriesOf (pairs : List (String × α)) (name : String) :
    (entriesOf pairs).lookup name = pairs.reverse.lookup name := by
  have hfold := find_foldl (fun entries name => entries.lookup name)
    (fun entries pair => putEntry pair.1 pair.2 entries)
    (fun entries pair other => lookup_putEntry pair.1 other pair.2 entries) pairs [] name
  rwa [List.lookup_nil, Option.or_none] at hfold

/-- Of several pairs of one name the first one gives the place. -/
theorem names_entriesOf (pairs : List (String × α)) :
    (entriesOf pairs).map (·.1) = (pairs.map (·.1)).eraseDups := by
  induction pairs using List.reverseRecOn with
  | nil => rfl
  | append_singleton pairs pair ih =>
    have hput : entriesOf (pairs ++ [pair]) = putEntry pair.1 pair.2 (entriesOf pairs) :=
      List.foldl_append
    rw [hput, names_putEntry, ih, List.map_append, List.map_singleton, List.eraseDups_append]
    by_cases h : pair.1 ∈ pairs.map (·.1)
    · simp [h, List.removeAll]
    · simp [h, List.removeAll, List.eraseDups_cons]

end RecordConsole
