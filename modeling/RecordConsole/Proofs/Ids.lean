import RecordConsole.Proofs.FailedSave
import RecordConsole.Proofs.Json.Extent
import RecordConsole.Proofs.Store

/-! Records under blank ids. None can be written, but a file is loaded with the keys that it has: a
record that comes in this way stays until it is removed, and all that time is saved and loaded again
with the others. -/
namespace RecordConsole

namespace Snapshot

def keys (bytes : ByteArray) : List String :=
  match Json.read bytes with
  | .ok (.object records) => records.map (·.1)
  | _ => []

theorem load_eq_ok {read : String → Except FileError ByteArray} {name path : String} {store : Store}
    (h : load read name path = .ok store) :
    ∃ bytes records, read path = .ok bytes ∧ Json.read bytes = .ok (.object records) ∧
      store = .ofRecords name records := by
  unfold load at h
  split at h
  · cases h
  · rename_i bytes hread
    unfold parse at h
    split at h
    · cases h
    · rename_i records hobject
      cases h
      exact ⟨bytes, records, hread, hobject, rfl⟩
    · cases h

theorem mem_ids_load {read : String → Except FileError ByteArray} {name path : String}
    {bytes : ByteArray} {store : Store} (hread : read path = .ok bytes)
    (hload : load read name path = .ok store) {id : String} : id ∈ store.ids ↔ id ∈ keys bytes := by
  obtain ⟨held, records, hheld, hobject, rfl⟩ := load_eq_ok hload
  cases hread.symm.trans hheld
  simp only [keys, hobject]
  exact Table.mem_names_iff.trans Table.contains_ofList

/-- Saving and loading again keeps the ids, whatever the records are, if loading succeeds. -/
theorem mem_ids_roundTrip {tree tree' : FileTree} {store loaded : Store}
    {order : List (String × Json)} {path name : String} (horder : order.Perm store.toList)
    (hsave : saveRecords tree order path = (tree', none))
    (hload : load tree'.read name path = .ok loaded) {id : String} :
    id ∈ loaded.ids ↔ id ∈ store.ids := by
  obtain ⟨bytes, records, hread, hobject, rfl⟩ := load_eq_ok hload
  cases (read_saveRecords hsave).symm.trans hread
  obtain ⟨read, hsame, hnames⟩ :=
    Json.names_of_readText (Json.toList_indented indent 0 (.object order)) hobject
  cases hsame
  refine (Table.mem_names_iff.trans Table.contains_ofList).trans ?_
  rw [hnames, List.mem_eraseDups, (horder.map _).mem_iff]
  rfl

end Snapshot

namespace Store

inductive Begins : Store → List String → Prop
  | empty (name : String) : Begins (.empty name) []
  | load {read : String → Except FileError ByteArray} {name path : String} {bytes : ByteArray}
      {store : Store} (hread : read path = .ok bytes)
      (hload : Snapshot.load read name path = .ok store) : Begins store (Snapshot.keys bytes)

theorem Begins.mem_ids_iff {store : Store} {keys : List String} (h : store.Begins keys)
    {id : String} : id ∈ store.ids ↔ id ∈ keys := by
  cases h with
  | empty => exact Iff.rfl
  | load hread hload => exact Snapshot.mem_ids_load hread hload

theorem mem_ids_iff {store : Store} {id : String} :
    id ∈ store.ids ↔ ∃ record, store.records.find? id = some record :=
  Table.mem_names_iff.trans Table.contains_iff

theorem set_eq_ok_iff {store : Store} {id : String} {record : Json} :
    (∃ old next, store.set id record = .ok (old, next)) ↔ Text.isAllBlank id = false := by
  unfold set
  cases Text.isAllBlank id <;> simp

theorem mem_ids_serve {id : String} (hblank : Text.isAllBlank id = true) (store : Store)
    (request : Request) :
    id ∈ (store.serve request).2.ids ↔
      id ∈ store.ids ∧ Change.of? (request, (store.serve request).1) ≠ some (.removal id) := by
  cases request with
  | set other record =>
    rw [serve_set]
    by_cases hrefused : Text.isAllBlank other = true
    · simp [hrefused, Change.of?]
    · have hne : id ≠ other := by
        rintro rfl
        exact hrefused hblank
      rw [if_neg hrefused]
      simp [mem_ids_iff, Table.find?_insert, hne, Change.of?]
  | remove other =>
    rw [serve_remove]
    cases hfind : store.records.find? other with
    | none => simp [Change.of?]
    | some record =>
      by_cases hsame : id = other
      · simp [mem_ids_iff, Table.find?_erase, Change.of?, hsame]
      · simp [mem_ids_iff, Table.find?_erase, Change.of?, hsame, Ne.symm hsame]
  | get other => simp [serve, Change.of?]
  | ids => simp [serve, Change.of?]
  | size => simp [serve, Change.of?]
  | records => simp [serve, Change.of?]

end Store

namespace Archive

/-- What becomes of a store by requests, by saves and by saves after which it is loaded again, and
the changes that were made to it. -/
inductive Becomes (start : Archive) : Archive → List Store.Change → Prop
  | start : Becomes start start []
  | serve {archive : Archive} {log : List Store.Change} (h : Becomes start archive log)
      (request : Store.Request) :
      Becomes start { archive with store := (archive.store.serve request).2 }
        (log ++ (Store.Change.of? (request, (archive.store.serve request).1)).toList)
  | save {archive next : Archive} {log : List Store.Change} {path : String} {fault : Option Fault}
      (h : Becomes start archive log) (hsave : archive.Saves path next fault) :
      Becomes start next log
  | roundTrip {archive next : Archive} {log : List Store.Change} {path name : String}
      {loaded : Store} (h : Becomes start archive log) (hsave : archive.Saves path next none)
      (hload : Snapshot.load next.tree.read name path = .ok loaded) :
      Becomes start { next with store := loaded } log

theorem Saves.store_eq {archive next : Archive} {path : String} {fault : Option Fault}
    (h : archive.Saves path next fault) : next.store = archive.store := by
  cases h
  rfl

theorem Saves.mem_ids_iff {archive next : Archive} {path name : String} {loaded : Store}
    (hsave : archive.Saves path next none)
    (hload : Snapshot.load next.tree.read name path = .ok loaded) {id : String} :
    id ∈ loaded.ids ↔ id ∈ archive.store.ids := by
  cases hsave with
  | inOrder horder hsave => exact Snapshot.mem_ids_roundTrip horder hsave hload

/-- A blank id is there as long as it was there from the start and was not removed. -/
theorem Becomes.mem_ids_iff {start now : Archive} {log : List Store.Change}
    (h : start.Becomes now log) {id : String} (hblank : Text.isAllBlank id = true) :
    id ∈ now.store.ids ↔ id ∈ start.store.ids ∧ .removal id ∉ log := by
  induction h with
  | start => simp
  | serve h request ih =>
    rw [Store.mem_ids_serve hblank, ih, List.mem_append, not_or, and_assoc, Option.mem_toList]
  | save h hsave ih => rw [hsave.store_eq, ih]
  | roundTrip h hsave hload ih => rw [hsave.mem_ids_iff hload, ih]

/-- A store holds a blank id exactly if it was loaded from a file with this key and the record was
not removed since, for all requests, saves and reloads in between. So all of its ids could have been
written, with their records, as soon as the blank keys of the file are removed. -/
theorem blank_ids_from_file {start now : Archive} {keys : List String} {log : List Store.Change}
    (hstart : start.store.Begins keys) (h : start.Becomes now log) :
    (∀ id, Text.isAllBlank id = true → (id ∈ now.store.ids ↔ id ∈ keys ∧ .removal id ∉ log)) ∧
    ((∀ id ∈ now.store.ids, Text.isAllBlank id = false) ↔
      ∀ key ∈ keys, Text.isAllBlank key = true → .removal key ∈ log) ∧
    ((∀ entry ∈ now.store.toList, ∃ old next, now.store.set entry.1 entry.2 = .ok (old, next)) ↔
      ∀ key ∈ keys, Text.isAllBlank key = true → .removal key ∈ log) := by
  have hids : ∀ id, Text.isAllBlank id = true →
      (id ∈ now.store.ids ↔ id ∈ keys ∧ .removal id ∉ log) := by
    intro id hblank
    rw [h.mem_ids_iff hblank, hstart.mem_ids_iff]
  have hfilled : (∀ id ∈ now.store.ids, Text.isAllBlank id = false) ↔
      ∀ key ∈ keys, Text.isAllBlank key = true → .removal key ∈ log := by
    constructor
    · intro hall key hkey hblank
      by_contra hkept
      have hfalse := hall key ((hids key hblank).mpr ⟨hkey, hkept⟩)
      exact absurd (hblank.symm.trans hfalse) (by decide)
    · intro hremoved id hid
      rw [Bool.eq_false_iff]
      intro hblank
      obtain ⟨hkey, hkept⟩ := (hids id hblank).mp hid
      exact hkept (hremoved id hkey hblank)
  refine ⟨hids, hfilled, ?_⟩
  rw [← hfilled, Store.ids, Table.names, List.forall_mem_map]
  simp only [Store.set_eq_ok_iff]
  rfl

def unnamed : ByteArray := "\x7b\"\": null, \"ada\": true\x7d".toUTF8

def unnamedStore : Store := .ofRecords "users" [("", .null), ("ada", .bool true)]

def namedStore : Store := .ofRecords "users" [("ada", .bool true)]

theorem load_unnamed :
    Snapshot.load (fun _ => .ok unnamed) "users" "users.json" = .ok unnamedStore := by rfl

theorem begins_unnamed : unnamedStore.Begins ["", "ada"] := by
  have hkeys : Snapshot.keys unnamed = ["", "ada"] := by rfl
  rw [← hkeys]
  exact .load (by rfl) load_unnamed

theorem blank_ids_from_file_removed :
    ∃ tree, unnamedStore.Begins ["", "ada"] ∧
      Becomes ⟨unnamedStore, {}⟩ ⟨namedStore, tree⟩ [.removal ""] ∧
      "" ∈ unnamedStore.ids ∧ ∀ id ∈ namedStore.ids, Text.isAllBlank id = false := by
  have hremoved : Becomes ⟨unnamedStore, {}⟩ ⟨namedStore, {}⟩ [.removal ""] :=
    .serve .start (.remove "")
  have hsaves : Archive.Saves ⟨namedStore, {}⟩ "users.json" ⟨namedStore, _⟩ none :=
    .inOrder (List.Perm.refl _) (Snapshot.saveRecords_empty [("ada", .bool true)])
  have hreload : Snapshot.load (Snapshot.saveRecords {} [("ada", .bool true)]
      "users.json").1.read "users" "users.json" = .ok namedStore := by rfl
  have hbecomes := Becomes.roundTrip hremoved hsaves hreload
  have hfilled : Text.isAllBlank "ada" = false := by decide
  refine ⟨_, begins_unnamed, hbecomes, by decide, ?_⟩
  exact (blank_ids_from_file begins_unnamed hbecomes).2.1.mpr (by simp [hfilled])

/-- The file is loaded, and one of its records could not be written. -/
theorem blank_ids_from_file_kept :
    Snapshot.load (fun _ => .ok unnamed) "users" "users.json" = .ok unnamedStore ∧
      unnamedStore.ids = ["", "ada"] ∧ Text.isAllBlank "" = true ∧
      unnamedStore.set "" .null = .error .blankId := by
  refine ⟨load_unnamed, by rfl, by rfl, by rfl⟩

end Archive
end RecordConsole
