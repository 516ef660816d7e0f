import RecordConsole.Proofs.Siblings

/-! What a save leaves behind that ends with a fault. It gave up while it made the directories on
the way, before it wrote the sibling of the target, or before it moved that sibling. Whichever it
was, nothing that was there is lost, the sibling apart. -/
namespace RecordConsole

structure Archive where
  store : Store
  tree : FileTree

/-- One way a save can go. The records of a store are written in any order. -/
inductive Archive.Saves (archive : Archive) (path : String) : Archive → Option Fault → Prop
  | inOrder {order : List (String × Json)} {tree : FileTree} {fault : Option Fault}
      (horder : order.Perm archive.store.toList)
      (hsave : Snapshot.saveRecords archive.tree order path = (tree, fault)) :
      Saves archive path { archive with tree } fault

namespace Snapshot

/-- A save that fails leaves no more than the directories it made, or these and the sibling. -/
theorem saveRecords_eq_error {tree tree' : FileTree} {records : List (String × Json)}
    {path : String} {fault : Fault} (h : saveRecords tree records path = (tree', some fault)) :
    tree' = (prepareParent tree path).1 ∨
      (prepareParent tree path).1.write (temporary path) (text records).toUTF8 = .ok tree' := by
  simp only [saveRecords] at h
  split at h
  · rename_i hprepare
    cases h
    rw [hprepare]
    exact Or.inl rfl
  · rename_i hprepare
    rw [hprepare]
    split at h
    · cases h
      exact Or.inl rfl
    · rename_i hwrite
      split at h
      · cases h
      · cases h
        exact Or.inr hwrite

/-- The second tree has all that the first one has, except for what stands under the name of the
sibling, and besides only that sibling and directories on the way to the path. -/
structure LosesNothing (path : String) (bytes : ByteArray) (tree tree' : FileTree) : Prop where
  directories : FileTree.KeepsDirectories tree tree'
  files : ∀ location held, tree.node? location = some (.file held) →
    ¬ tree'.LeadsTo (temporary path) location → tree'.node? location = some (.file held)
  fresh : ∀ location, tree.node? location = none →
    tree'.node? location = none ∨
      tree'.node? location = some .directory ∧ tree'.Passes path location ∨
      tree'.node? location = some (.file bytes) ∧ tree'.LeadsTo (temporary path) location

theorem losesNothing_of_addsPassage {path : String} {bytes : ByteArray} {tree tree' : FileTree}
    (h : FileTree.AddsPassage path tree tree') : LosesNothing path bytes tree tree' where
  directories := h.keepsDirectories
  files := by
    intro location held hheld _
    rcases h.node location with hsame | ⟨hnone, -⟩
    · exact hsame.trans hheld
    · cases hheld.symm.trans hnone
  fresh := by
    intro location hnone
    rcases h.node location with hsame | ⟨-, hdirectory⟩
    · exact Or.inl (hsame.trans hnone)
    · exact Or.inr (Or.inl ⟨hdirectory, h.passes location hnone hdirectory⟩)

theorem LosesNothing.write {path : String} {bytes : ByteArray} {tree prepared tree' : FileTree}
    (h : LosesNothing path bytes tree prepared)
    (hwrite : prepared.write (temporary path) bytes = .ok tree') :
    LosesNothing path bytes tree tree' := by
  have hkeeps := FileTree.keepsDirectories_write hwrite
  obtain ⟨aside, haside, -, rfl⟩ := FileTree.write_eq_ok hwrite
  have hothers : ∀ {location}, location ≠ aside →
      (prepared.put aside (.file bytes)).node? location = prepared.node? location :=
    fun hne => FileTree.node?_put_of_ne prepared _ hne
  refine ⟨h.directories.trans hkeeps, ?_, ?_⟩
  · intro location held hheld hleads
    have hne : location ≠ aside := by
      rintro rfl
      exact hleads (haside.mono hkeeps)
    rw [hothers hne]
    apply h.files location held hheld
    intro hearlier
    exact hleads (hearlier.mono hkeeps)
  · intro location hnone
    by_cases hsame : location = aside
    · subst hsame
      right
      right
      exact ⟨FileTree.node?_put_self prepared _ haside.ne_nil, haside.mono hkeeps⟩
    · rw [hothers hsame]
      rcases h.fresh location hnone with hfree | ⟨hdirectory, hpass⟩ | ⟨hfile, hleads⟩
      · exact Or.inl hfree
      · exact Or.inr (Or.inl ⟨hdirectory, hpass.mono hkeeps⟩)
      · exact Or.inr (Or.inr ⟨hfile, hleads.mono hkeeps⟩)

theorem losesNothing_of_error {tree tree' : FileTree} {records : List (String × Json)}
    {path : String} {fault : Fault} (h : saveRecords tree records path = (tree', some fault)) :
    LosesNothing path (text records).toUTF8 tree tree' := by
  have hprepared : LosesNothing path (text records).toUTF8 tree (prepareParent tree path).1 :=
    losesNothing_of_addsPassage (addsPassage_prepareParent tree path)
  rcases saveRecords_eq_error h with rfl | hwrite
  · exact hprepared
  · exact hprepared.write hwrite

theorem LosesNothing.read {path : String} {bytes held : ByteArray} {tree tree' : FileTree}
    (h : LosesNothing path bytes tree tree') (hpath : temporary path ≠ path)
    (hread : tree.read path = .ok held) : tree'.read path = .ok held := by
  obtain ⟨location, hleads, hfile⟩ := FileTree.read_eq_ok_iff.mp hread
  have hleads' := hleads.mono h.directories
  refine FileTree.read_eq_ok_iff.mpr ⟨location, hleads', ?_⟩
  apply h.files location held hfile
  intro haside
  exact hpath (hleads'.withExtension_eq_self (by simp [Path.IsPiece]) haside)

example (records : List (String × Json)) :
    saveRecords { nodes := [(["users.json"], .directory)] } records "users.json" =
      ({ nodes := [(["users.tmp"], .file (text records).toUTF8), (["users.json"], .directory)] },
        some (.io ("Failed to rename temp file 'users.tmp' -> 'users.json': " ++
          FileError.isDirectory.message))) := rfl

end Snapshot

/-- A save that fails loses nothing, at whatever stage it fails. The store is as before. Every file
is there with the same bytes but the one under the name of the sibling, and every directory is
there. What is new is directories that the path passes and the sibling with the text of the store.
So a snapshot under the path loads as before, unless the path is that of its own sibling. -/
theorem Archive.Saves.loses_nothing {archive archive' : Archive} {path : String} {fault : Fault}
    (h : archive.Saves path archive' (some fault)) :
    archive'.store = archive.store ∧
      (∃ order, order.Perm archive.store.toList ∧
        Snapshot.LosesNothing path (Snapshot.text order).toUTF8 archive.tree archive'.tree) ∧
      (Snapshot.temporary path ≠ path → ∀ name loaded,
        Snapshot.load archive.tree.read name path = .ok loaded →
          Snapshot.load archive'.tree.read name path = .ok loaded) := by
  obtain ⟨horder, hsave⟩ := h
  have hkept := Snapshot.losesNothing_of_error hsave
  refine ⟨rfl, ⟨_, horder, hkept⟩, ?_⟩
  intro hpath name loaded hload
  cases hread : archive.tree.read path with
  | error e =>
    rw [Snapshot.load, hread] at hload
    cases hload
  | ok held =>
    rw [← hload]
    exact Snapshot.load_congr ((hkept.read hpath hread).trans hread.symm) name

def Snapshot.blocked (records : List (String × Json)) : FileTree :=
  { nodes := [(["users.json"], .file (text records).toUTF8), (["users.tmp"], .directory)] }

theorem Snapshot.saveRecords_blocked (records others : List (String × Json)) :
    saveRecords (blocked records) others "users.json" = (blocked records,
      some (.io ("Failed to write temp file 'users.tmp': " ++
        FileError.isDirectory.message))) := rfl

theorem Archive.Saves.loses_nothing_blocked :
    let earlier := Store.ofRecords "users" [("ada", .null)]
    let archive : Archive :=
      ⟨Store.ofRecords "users" [("ada", .bool true)], Snapshot.blocked earlier.toList⟩
    ∃ archive' fault loaded, archive.Saves "users.json" archive' (some fault) ∧
      Snapshot.load archive'.tree.read "users" "users.json" = .ok loaded ∧
      loaded.toList = [("ada", .null)] := by
  intro earlier archive
  have hnull : Json.null.Accepted :=
    Json.accepted_iff.mpr ⟨trivial, trivial, by decide⟩
  have hearlier : earlier.Built := Store.Built.ofRecords "users" (List.forall_mem_singleton.mpr
    (show (("ada", Json.null) : String × Json).2.Accepted from hnull))
  have hread : archive.tree.read "users.json" = .ok (Snapshot.text earlier.toList).toUTF8 := rfl
  have hload := Snapshot.load_text hearlier (List.Perm.refl _) hread "users"
    (List.forall_mem_singleton.mpr (by decide))
  have hsaves : archive.Saves "users.json" archive (some _) :=
    .inOrder (List.Perm.refl _) (Snapshot.saveRecords_blocked earlier.toList archive.store.toList)
  obtain ⟨-, -, hsame⟩ := Archive.Saves.loses_nothing hsaves
  exact ⟨archive, _, _, hsaves, hsame (by decide) "users" _ hload, rfl⟩

end RecordConsole
