import RecordConsole.Proofs.Passage
import RecordConsole.Proofs.Snapshot

/-! What a save leaves alone. It adds the directories on the way, replaces the target, and takes over
the sibling through which it goes; everything else in the tree stays as it was. -/
namespace RecordConsole

def FileTree.SameFile (tree : FileTree) (path other : String) : Prop :=
  ∃ location, tree.LeadsTo path location ∧ tree.LeadsTo other location

namespace Snapshot

theorem addsPassage_prepareParent (tree : FileTree) (path : String) :
    FileTree.AddsPassage path tree (prepareParent tree path).1 := by
  unfold prepareParent
  split
  · exact .refl path tree
  · rename_i parent hparent
    have hadds := FileTree.addsPassage_makeDirectories hparent tree
    split
    · rename_i hmade
      rw [hmade] at hadds
      exact hadds
    · rename_i hmade
      rw [hmade] at hadds
      exact hadds

/-- All that a save does to the tree. -/
theorem saveRecords_effect {tree tree' : FileTree} {records : List (String × Json)} {path : String}
    (h : saveRecords tree records path = (tree', none)) :
    FileTree.KeepsDirectories tree tree' ∧
      ∃ target aside, tree'.LeadsTo path target ∧ tree'.LeadsTo (temporary path) aside ∧
        tree'.node? target = some (.file (text records).toUTF8) ∧
        (aside ≠ target → tree'.node? aside = none) ∧
        ∀ location, location ≠ target → location ≠ aside →
          tree'.node? location = tree.node? location ∨
            tree.node? location = none ∧ tree'.node? location = some .directory := by
  obtain ⟨prepared, written, hprepare, hwrite, hrename⟩ := saveRecords_eq_ok h
  have hadds := (addsPassage_prepareParent tree path).toAddsDirectories
  rw [hprepare] at hadds
  have hwritten := FileTree.keepsDirectories_write hwrite
  have hrenamed := FileTree.keepsDirectories_renameFile hrename
  obtain ⟨aside, haside, -, rfl⟩ := FileTree.write_eq_ok hwrite
  obtain ⟨old, target, bytes, hold, htarget, hbytes, -, hmoved⟩ := FileTree.renameFile_eq_ok hrename
  obtain rfl := hold.unique (haside.mono hwritten)
  rw [FileTree.node?_put_self prepared _ haside.ne_nil] at hbytes
  cases hbytes
  refine ⟨hadds.keepsDirectories.trans (hwritten.trans hrenamed), target, old,
    htarget.mono hrenamed, hold.mono hrenamed, ?_⟩
  by_cases hsame : old = target
  · rw [if_pos hsame] at hmoved
    subst hmoved hsame
    refine ⟨FileTree.node?_put_self prepared _ haside.ne_nil, fun hne => absurd rfl hne, ?_⟩
    intro location hother _
    rw [FileTree.node?_put_of_ne prepared _ hother]
    exact hadds.node location
  · rw [if_neg hsame] at hmoved
    subst hmoved
    refine ⟨FileTree.node?_put_self _ _ htarget.ne_nil, ?_, ?_⟩
    · intro hne
      rw [FileTree.node?_put_of_ne _ _ hne, FileTree.node?_clear _ old haside.ne_nil, if_pos rfl]
    · intro location htarget' hold'
      rw [FileTree.node?_put_of_ne _ _ htarget', FileTree.node?_clear_of_ne _ hold',
        FileTree.node?_put_of_ne prepared _ hold']
      exact hadds.node location

theorem node?_aside_saveRecords {tree tree' : FileTree} {records : List (String × Json)}
    {path : String} (h : saveRecords tree records path = (tree', none)) {location : Location}
    (haside : tree'.LeadsTo (temporary path) location) (hother : ¬ tree'.LeadsTo path location) :
    tree'.node? location = none := by
  obtain ⟨-, target, aside, htarget, haside', -, hgone, -⟩ := saveRecords_effect h
  obtain rfl := haside.unique haside'
  refine hgone ?_
  rintro rfl
  exact hother htarget

/-- A file under another name than the target is kept exactly if the save did not go through it. -/
theorem node?_saveRecords_iff {tree tree' : FileTree} {records : List (String × Json)}
    {path : String} (h : saveRecords tree records path = (tree', none)) {location : Location}
    {bytes : ByteArray} (hfile : tree.node? location = some (.file bytes))
    (hother : ¬ tree'.LeadsTo path location) :
    tree'.node? location = some (.file bytes) ↔ ¬ tree'.LeadsTo (temporary path) location := by
  obtain ⟨-, target, aside, htarget, haside, -, -, hrest⟩ := saveRecords_effect h
  have hne : location ≠ target := by
    rintro rfl
    exact hother htarget
  constructor
  · intro hkept hleads
    rw [node?_aside_saveRecords h hleads hother] at hkept
    cases hkept
  · intro hleads
    have hne' : location ≠ aside := by
      rintro rfl
      exact hleads haside
    rcases hrest location hne hne' with hsame | ⟨hnone, -⟩
    · exact hsame.trans hfile
    · cases hfile.symm.trans hnone

theorem read_saveRecords_other {tree tree' : FileTree} {records : List (String × Json)}
    {path other : String} (h : saveRecords tree records path = (tree', none)) {bytes : ByteArray}
    (hread : tree.read other = .ok bytes) (htarget : ¬ tree'.SameFile other path)
    (haside : ¬ tree'.SameFile other (temporary path)) : tree'.read other = .ok bytes := by
  obtain ⟨hkeeps, -⟩ := saveRecords_effect h
  obtain ⟨location, hpath, hfile⟩ := FileTree.read_eq_ok_iff.mp hread
  have hpath' := hpath.mono hkeeps
  have hkept := (node?_saveRecords_iff h hfile fun hleads => htarget ⟨location, hpath', hleads⟩).mpr
    fun hleads => haside ⟨location, hpath', hleads⟩
  exact FileTree.read_eq_ok_iff.mpr ⟨location, hpath', hkept⟩

theorem load_congr {read read' : String → Except FileError ByteArray} {path : String}
    (h : read path = read' path) (name : String) : load read name path = load read' name path := by
  unfold load
  rw [h]

/-- A save keeps every file but its target and the sibling that it goes through, and that sibling is
gone afterwards. So a snapshot saved earlier loads as it did, unless it stands under one of these two
names, and gives its records if they leave room for the container around them. -/
theorem saveRecords_keeps_files {tree tree' : FileTree} {records : List (String × Json)}
    {path : String} (h : saveRecords tree records path = (tree', none)) :
    (∀ location bytes, tree.node? location = some (.file bytes) → ¬ tree'.LeadsTo path location →
      (tree'.node? location = some (.file bytes) ↔
        ¬ tree'.LeadsTo (temporary path) location)) ∧
    (∀ location, tree'.LeadsTo (temporary path) location → ¬ tree'.LeadsTo path location →
      tree'.node? location = none) ∧
    ∀ {start : FileTree} {order : List (String × Json)} {other : String},
      saveRecords start order other = (tree, none) → ¬ tree'.SameFile other path →
      ¬ tree'.SameFile other (temporary path) → ∀ name,
        load tree'.read name other = load tree.read name other ∧
        ∀ {store : Store}, store.Built → order.Perm store.toList →
          (∀ entry ∈ store.toList, entry.2.depth < Json.depthLimit) →
          ∃ loaded, load tree'.read name other = .ok loaded ∧ loaded.name = name ∧
            loaded.toList = store.toList := by
  refine ⟨fun location bytes hfile hother => node?_saveRecords_iff h hfile hother, ?_, ?_⟩
  · intro location haside hother
    exact node?_aside_saveRecords h haside hother
  intro start order other hearlier htarget haside name
  have hread := read_saveRecords hearlier
  have hread' := read_saveRecords_other h hread htarget haside
  refine ⟨load_congr (hread'.trans hread.symm) name, ?_⟩
  intro store hstore horder hfits
  exact ⟨_, load_text hstore horder hread' name hfits, rfl, rfl⟩

theorem saveRecords_beside (records others : List (String × Json)) :
    saveRecords (saveRecords {} records "users.json").1 others "threads.json" =
      ((saveRecords (saveRecords {} records "users.json").1 others "threads.json").1, none) := rfl

theorem saveRecords_keeps_files_users :
    let ada : Json := .object [("zeta", .bool true), ("alpha", .null)]
    let users := (saveRecords {} [("ada", ada)] "users.json").1
    ∃ tree loaded, saveRecords users [("t-1", .null)] "threads.json" = (tree, none) ∧
      tree.node? ["threads.tmp"] = none ∧
      load tree.read "users" "users.json" = .ok loaded ∧ loaded.toList = [("ada", ada)] := by
  intro ada users
  have hrecord : ada.Accepted :=
    Json.accepted_iff.mpr ⟨by simp [ada, Json.Integral, Json.IntegralEntries],
      by simp [ada, Json.Keyed, Json.KeyedEntries], by decide⟩
  have hstore := Store.Built.ofRecords "users" (List.forall_mem_singleton.mpr
    (show (("ada", ada) : String × Json).2.Accepted from hrecord))
  have hsave := saveRecords_beside [("ada", ada)] [("t-1", .null)]
  have husers : (saveRecords users [("t-1", .null)] "threads.json").1.LeadsTo "users.json"
      ["users.json"] := ⟨rfl, by decide⟩
  have hthreads : (saveRecords users [("t-1", .null)] "threads.json").1.LeadsTo "threads.json"
      ["threads.json"] := ⟨rfl, by decide⟩
  have haside : (saveRecords users [("t-1", .null)] "threads.json").1.LeadsTo
      (temporary "threads.json") ["threads.tmp"] := ⟨rfl, by decide⟩
  have hne : ¬ (saveRecords users [("t-1", .null)] "threads.json").1.SameFile "users.json"
      "threads.json" := by
    rintro ⟨location, h, h'⟩
    exact absurd ((husers.unique h).trans (h'.unique hthreads)) (by decide)
  have hne' : ¬ (saveRecords users [("t-1", .null)] "threads.json").1.SameFile "users.json"
      (temporary "threads.json") := by
    rintro ⟨location, h, h'⟩
    exact absurd ((husers.unique h).trans (h'.unique haside)) (by decide)
  obtain ⟨-, hgone, hkept⟩ := saveRecords_keeps_files hsave
  have hsibling := hgone ["threads.tmp"] haside fun h =>
    absurd (h.unique hthreads) (by decide)
  obtain ⟨loaded, hload, -, hsame⟩ :=
    (hkept (saveRecords_empty [("ada", ada)]) hne hne' "users").2
      hstore (List.Perm.refl _) (List.forall_mem_singleton.mpr (by decide))
  exact ⟨_, loaded, hsave, hsibling, hload, hsame⟩

def sole (name : String) (records : List (String × Json)) : FileTree :=
  { nodes := [([name], .file (text records).toUTF8)] }

theorem saveRecords_sibling (records : List (String × Json)) :
    saveRecords {} records "users.tmp" = (sole "users.tmp" records, none) := rfl

theorem saveRecords_through (records others : List (String × Json)) :
    saveRecords (sole "users.tmp" records) others "users.json" =
      (sole "users.json" others, none) := rfl

/-- A snapshot under the name of a sibling is lost. -/
theorem saveRecords_over_sibling :
    let store := Store.ofRecords "users" [("ada", .bool true)]
    ∃ users tree, save {} store "users.tmp" = (users, none) ∧
      save users store "users.json" = (tree, none) ∧
      ¬ tree.SameFile "users.tmp" "users.json" ∧
      (∃ bytes, users.node? ["users.tmp"] = some (.file bytes)) ∧
      tree.node? ["users.tmp"] = none ∧
      ¬ ∃ loaded, load tree.read "users" "users.tmp" = .ok loaded := by
  intro store
  refine ⟨_, _, saveRecords_sibling store.toList, saveRecords_through store.toList store.toList,
    ?_, ⟨_, rfl⟩, rfl, ?_⟩
  · have htarget : (sole "users.json" store.toList).LeadsTo "users.json" ["users.json"] :=
      ⟨rfl, by decide⟩
    have haside : (sole "users.json" store.toList).LeadsTo "users.tmp" ["users.tmp"] :=
      ⟨rfl, by decide⟩
    rintro ⟨location, h, h'⟩
    exact absurd ((haside.unique h).trans (h'.unique htarget)) (by decide)
  · have hread : (sole "users.json" store.toList).read "users.tmp" = .error .notFound := rfl
    rintro ⟨loaded, hloaded⟩
    rw [load, hread] at hloaded
    cases hloaded

end Snapshot
end RecordConsole
