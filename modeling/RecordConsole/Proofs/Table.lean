import RecordConsole.Proofs.Entries
import RecordConsole.Proofs.Utf8

/-! Tables as finite maps: a table is known by what it finds, in whatever order it was filled. -/
namespace RecordConsole

variable {α : Type}

theorem mem_of_lookup {entries : List (String × α)} {name : String} {value : α}
    (h : entries.lookup name = some value) : (name, value) ∈ entries := by
  obtain ⟨before, after, rfl, -⟩ := List.lookup_eq_some_iff.mp h
  simp

theorem lookup_of_mem {entries : List (String × α)} (distinct : (entries.map (·.1)).Nodup)
    {name : String} {value : α} (h : (name, value) ∈ entries) :
    entries.lookup name = some value := by
  induction entries with
  | nil => cases h
  | cons first rest ih =>
    obtain ⟨hfirst, hrest⟩ := List.nodup_cons.mp distinct
    rw [lookup_cons_eq_ite]
    rcases List.mem_cons.mp h with rfl | h
    · simp
    · have hne : name ≠ first.1 := by
        rintro rfl
        exact hfirst (List.mem_map.mpr ⟨_, h, rfl⟩)
      rw [if_neg hne, ih hrest h]

theorem lookup_eq_some_iff_mem {entries : List (String × α)}
    (distinct : (entries.map (·.1)).Nodup) (name : String) (value : α) :
    entries.lookup name = some value ↔ (name, value) ∈ entries :=
  ⟨mem_of_lookup, lookup_of_mem distinct⟩

theorem lookup_perm {entries others : List (String × α)} (h : entries.Perm others)
    (distinct : (entries.map (·.1)).Nodup) (name : String) :
    entries.lookup name = others.lookup name := by
  have distinct' : (others.map (·.1)).Nodup := (h.map (·.1)).nodup_iff.mp distinct
  apply Option.ext
  intro value
  rw [lookup_eq_some_iff_mem distinct, lookup_eq_some_iff_mem distinct', h.mem_iff]

theorem Ascending.nodup_names {entries : List (String × α)} (h : Ascending entries) :
    (entries.map (·.1)).Nodup := by
  refine List.pairwise_map.mpr (h.imp ?_)
  intro a b hlt heq
  exact String.lt_irrefl _ (heq ▸ hlt)

theorem Ascending.eq_of_perm {entries others : List (String × α)} (h : Ascending entries)
    (h' : Ascending others) (perm : entries.Perm others) : entries = others :=
  perm.eq_of_pairwise
    (fun _ _ _ _ hab hba => absurd (String.lt_trans hab hba) (String.lt_irrefl _)) h h'

namespace Table

theorem find?_eq_some_iff (table : Table α) (name : String) (value : α) :
    table.find? name = some value ↔ (name, value) ∈ table.entries :=
  lookup_eq_some_iff_mem table.ascending.nodup_names name value

theorem ext_entries {table other : Table α} (h : table.entries = other.entries) :
    table = other := by
  cases table
  cases other
  cases h
  rfl

theorem ext_find? {table other : Table α} (h : ∀ name, table.find? name = other.find? name) :
    table = other := by
  have nodup (t : Table α) : t.entries.Nodup := by
    refine (List.pairwise_map.mp t.ascending.nodup_names).imp ?_
    rintro a b hne rfl
    exact hne rfl
  have same (entry : String × α) : entry ∈ table.entries ↔ entry ∈ other.entries := by
    rw [← find?_eq_some_iff, ← find?_eq_some_iff, h]
  exact ext_entries (table.ascending.eq_of_perm other.ascending
    ((List.perm_ext_iff_of_nodup (nodup table) (nodup other)).mpr same))

/-- Of several pairs of one name the last one counts. -/
theorem find?_ofList (pairs : List (String × α)) (name : String) :
    (ofList pairs).find? name = pairs.reverse.lookup name := by
  have hfold := find_foldl find? (fun table pair => table.insert pair.1 pair.2)
    (fun table pair other => find?_insert table pair.1 other pair.2) pairs empty name
  rwa [find?_empty, Option.or_none] at hfold

theorem mem_of_find?_ofList {pairs : List (String × α)} {name : String} {value : α}
    (h : (ofList pairs).find? name = some value) : (name, value) ∈ pairs :=
  List.mem_reverse.mp (mem_of_lookup (find?_ofList pairs name ▸ h))

theorem contains_iff {table : Table α} {name : String} :
    table.contains name = true ↔ ∃ value, table.find? name = some value :=
  Option.isSome_iff_exists

theorem mem_names_iff {table : Table α} {name : String} :
    name ∈ table.names ↔ table.contains name = true := by
  rw [contains_iff]
  constructor
  · intro h
    obtain ⟨⟨_, value⟩, hentry, rfl⟩ := List.mem_map.mp h
    exact ⟨value, (find?_eq_some_iff _ _ _).mpr hentry⟩
  · rintro ⟨value, h⟩
    exact List.mem_map.mpr ⟨_, (find?_eq_some_iff _ _ _).mp h, rfl⟩

theorem contains_ofList {pairs : List (String × α)} {name : String} :
    (ofList pairs).contains name = true ↔ name ∈ pairs.map (·.1) := by
  rw [contains_iff]
  constructor
  · rintro ⟨value, h⟩
    exact List.mem_map.mpr ⟨_, mem_of_find?_ofList h, rfl⟩
  · intro h
    obtain ⟨⟨_, value⟩, hpair, rfl⟩ := List.mem_map.mp h
    rw [find?_ofList, ← Option.ne_none_iff_exists', Ne, List.lookup_eq_none_iff]
    intro hnone
    simpa using hnone _ (List.mem_reverse.mpr hpair)

theorem contains_ofNames {names : List String} {name : String} :
    (ofNames names).contains name = true ↔ name ∈ names := by
  rw [ofNames, contains_ofList, List.map_map]
  simp

theorem size_eq_length_names (table : Table α) : table.size = table.names.length :=
  (List.length_map _).symm

theorem names_ascending (table : Table α) :
    table.names.Pairwise fun name other =>
      name.toUTF8.data.toList < other.toUTF8.data.toList :=
  List.pairwise_map.mpr (table.ascending.imp Text.lt_iff_bytes_lt.mp)

/-- The entries of a table make it up again, in any order. -/
theorem ofList_of_perm (table : Table α) {pairs : List (String × α)}
    (h : pairs.Perm table.entries) : ofList pairs = table := by
  apply ext_find?
  intro name
  have distinct : (pairs.reverse.map (·.1)).Nodup :=
    (((List.reverse_perm pairs).trans h).map (·.1)).nodup_iff.mpr table.ascending.nodup_names
  rw [find?_ofList]
  exact lookup_perm ((List.reverse_perm pairs).trans h) distinct name

end Table
end RecordConsole
