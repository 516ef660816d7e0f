import RecordConsole.FileTree.Basic

/-! What writing and renaming do to a tree of files. A path leads to the same place in every tree
that has at least the directories of this one, and neither operation takes a directory away. -/
namespace RecordConsole.FileTree

theorem node?_put_self (tree : FileTree) {location : Location} (node : Node) (h : location ≠ []) :
    (tree.put location node).node? location = some node := by
  rw [node?_put tree location node h, if_pos rfl]

theorem node?_put_of_ne (tree : FileTree) {location other : Location} (node : Node)
    (h : other ≠ location) : (tree.put location node).node? other = tree.node? other := by
  by_cases hroot : other = []
  · rw [hroot, node?_root, node?_root]
  · rw [node?_put tree location node hroot, if_neg h]

theorem node?_clear_of_ne (tree : FileTree) {location other : Location} (h : other ≠ location) :
    (tree.clear location).node? other = tree.node? other := by
  by_cases hroot : other = []
  · rw [hroot, node?_root, node?_root]
  · rw [node?_clear tree location hroot, if_neg h]

structure KeepsDirectories (tree tree' : FileTree) : Prop where
  working : tree'.working = tree.working
  directory : ∀ location, tree.node? location = some .directory →
    tree'.node? location = some .directory

theorem KeepsDirectories.refl (tree : FileTree) : KeepsDirectories tree tree := ⟨rfl, fun _ h => h⟩

theorem KeepsDirectories.trans {tree tree' tree'' : FileTree} (h : KeepsDirectories tree tree')
    (h' : KeepsDirectories tree' tree'') : KeepsDirectories tree tree'' where
  working := h'.working.trans h.working
  directory location hdirectory := h'.directory location (h.directory location hdirectory)

theorem keepsDirectories_put {tree : FileTree} {location : Location} (node : Node)
    (h : tree.node? location ≠ some .directory) :
    KeepsDirectories tree (tree.put location node) where
  working := rfl
  directory other hother := by
    have hne : other ≠ location := by
      rintro rfl
      exact h hother
    rw [node?_put_of_ne tree node hne, hother]

theorem keepsDirectories_clear {tree : FileTree} {location : Location}
    (h : tree.node? location ≠ some .directory) :
    KeepsDirectories tree (tree.clear location) where
  working := rfl
  directory other hother := by
    have hne : other ≠ location := by
      rintro rfl
      exact h hother
    rw [node?_clear_of_ne tree hne, hother]

/-! ## Following paths -/

theorem walk_mono {tree tree' : FileTree} (h : KeepsDirectories tree tree') {names : List String}
    {here there : Location} (hwalk : tree.walk here names = .ok there) :
    tree'.walk here names = .ok there := by
  induction names generalizing here with
  | nil => exact hwalk
  | cons name rest ih =>
    rw [walk] at hwalk ⊢
    split at hwalk
    · rw [if_pos ‹_›]
      exact ih hwalk
    · rw [if_neg ‹_›]
      split at hwalk
      · rw [if_pos ‹_›]
        exact ih hwalk
      · rw [if_neg ‹_›]
        split at hwalk
        · contradiction
        · rw [if_neg ‹_›]
          split at hwalk
          · contradiction
          · contradiction
          · rename_i hdirectory
            rw [h.directory _ hdirectory]
            exact ih hwalk

theorem locate_mono {tree tree' : FileTree} (h : KeepsDirectories tree tree') {path : String}
    {place : Place} (hlocate : tree.locate path = .ok place) :
    tree'.locate path = .ok place := by
  simp only [locate] at hlocate ⊢
  rw [h.working]
  split at hlocate
  · contradiction
  · rw [if_neg ‹_›]
    split at hlocate
    · contradiction
    · rw [if_neg ‹_›]
      split at hlocate
      · contradiction
      · rw [if_neg ‹_›]
        split at hlocate
        · exact hlocate
        · simp only [bind, Except.bind] at hlocate ⊢
          split at hlocate
          · contradiction
          · rename_i hwalk
            rw [walk_mono h hwalk]
            exact hlocate

theorem locate_entry_ne_nil {tree : FileTree} {path : String} {location : Location} {slash : Bool}
    (h : tree.locate path = .ok (.entry location slash)) : location ≠ [] := by
  simp only [locate, bind, Except.bind] at h
  repeat' split at h
  all_goals cases h
  exact List.append_ne_nil_of_right_ne_nil _ (List.cons_ne_nil _ _)

/-! ## Single operations -/

/-- A path to a name that can be a file's: it ends with no slash, and the name is not too long. -/
structure LeadsTo (tree : FileTree) (path : String) (location : Location) : Prop where
  locate : tree.locate path = .ok (.entry location false)
  short : ¬ nameLimit < (location.getLast?.getD "").utf8ByteSize

theorem LeadsTo.mono {tree tree' : FileTree} (h : KeepsDirectories tree tree') {path : String}
    {location : Location} (hpath : tree.LeadsTo path location) : tree'.LeadsTo path location :=
  ⟨locate_mono h hpath.locate, hpath.short⟩

theorem LeadsTo.ne_nil {tree : FileTree} {path : String} {location : Location}
    (h : tree.LeadsTo path location) : location ≠ [] := locate_entry_ne_nil h.locate

theorem LeadsTo.unique {tree : FileTree} {path : String} {location other : Location}
    (h : tree.LeadsTo path location) (h' : tree.LeadsTo path other) : location = other := by
  have heq := h.locate.symm.trans h'.locate
  cases heq
  rfl

theorem nodeAt_eq_ok_iff {tree : FileTree} {location : Location} {node : Option Node} :
    tree.nodeAt location = .ok node ↔
      ¬ nameLimit < (location.getLast?.getD "").utf8ByteSize ∧ tree.node? location = node := by
  unfold nodeAt
  split
  · rename_i hlong
    simp [hlong]
  · rename_i hshort
    simp [hshort]

theorem bind_eq_ok_iff {α β : Type} {first : Except FileError α} {next : α → Except FileError β}
    {b : β} : (first >>= next) = .ok b ↔ ∃ a, first = .ok a ∧ next a = .ok b := by
  cases first with
  | error e => simp [bind, Except.bind]
  | ok a => simp [bind, Except.bind]

theorem read_eq_ok_iff {tree : FileTree} {path : String} {bytes : ByteArray} :
    tree.read path = .ok bytes ↔
      ∃ location, tree.LeadsTo path location ∧ tree.node? location = some (.file bytes) := by
  constructor
  · intro h
    obtain ⟨place, hlocate, h⟩ := bind_eq_ok_iff.mp h
    cases place with
    | directory => contradiction
    | entry location slash =>
      obtain ⟨node, hnode, h⟩ := bind_eq_ok_iff.mp h
      obtain ⟨hshort, hnode⟩ := nodeAt_eq_ok_iff.mp hnode
      split at h
      · contradiction
      · contradiction
      · cases slash with
        | true => contradiction
        | false =>
          cases h
          exact ⟨location, ⟨hlocate, hshort⟩, hnode⟩
  · rintro ⟨location, hpath, hnode⟩
    refine bind_eq_ok_iff.mpr ⟨_, hpath.locate, ?_⟩
    exact bind_eq_ok_iff.mpr ⟨_, nodeAt_eq_ok_iff.mpr ⟨hpath.short, hnode⟩, rfl⟩

theorem write_eq_ok {tree tree' : FileTree} {path : String} {bytes : ByteArray}
    (h : tree.write path bytes = .ok tree') :
    ∃ location, tree.LeadsTo path location ∧ tree.node? location ≠ some .directory ∧
      tree' = tree.put location (.file bytes) := by
  obtain ⟨place, hlocate, h⟩ := bind_eq_ok_iff.mp h
  cases place with
  | directory => contradiction
  | entry location slash =>
    cases slash with
    | true => contradiction
    | false =>
      obtain ⟨node, hnode, h⟩ := bind_eq_ok_iff.mp h
      obtain ⟨hshort, hnode⟩ := nodeAt_eq_ok_iff.mp hnode
      split at h
      · contradiction
      · rename_i hfree
        cases h
        exact ⟨location, ⟨hlocate, hshort⟩, hnode ▸ hfree, rfl⟩

theorem renameFile_eq_ok {tree tree' : FileTree} {path target : String}
    (h : tree.renameFile path target = .ok tree') :
    ∃ old new bytes, tree.LeadsTo path old ∧ tree.LeadsTo target new ∧
      tree.node? old = some (.file bytes) ∧ tree.node? new ≠ some .directory ∧
      tree' = if old = new then tree else (tree.clear old).put new (.file bytes) := by
  obtain ⟨source, hsource, hrest⟩ := bind_eq_ok_iff.mp h
  obtain ⟨goal, hgoal, hmove⟩ := bind_eq_ok_iff.mp hrest
  cases source with
  | directory => contradiction
  | entry old oldSlash =>
    cases goal with
    | directory => contradiction
    | entry new newSlash =>
      obtain ⟨node, hold, hfound⟩ := bind_eq_ok_iff.mp hmove
      obtain ⟨hshort, hnode⟩ := nodeAt_eq_ok_iff.mp hold
      split at hfound
      · contradiction
      · contradiction
      · rename_i bytes
        obtain ⟨there, hnew, hput⟩ := bind_eq_ok_iff.mp hfound
        obtain ⟨hshort', hthere⟩ := nodeAt_eq_ok_iff.mp hnew
        split at hput
        · contradiction
        · rename_i hslash
          rw [Bool.not_eq_true, Bool.or_eq_false_iff] at hslash
          obtain ⟨rfl, rfl⟩ := hslash
          refine ⟨old, new, bytes, ⟨hsource, hshort⟩, ⟨hgoal, hshort'⟩, hnode, ?_⟩
          split at hput
          · contradiction
          · rename_i hfree
            refine ⟨hthere ▸ hfree, ?_⟩
            split at hput
            · rw [if_pos ‹_›]
              cases hput
              rfl
            · rw [if_neg ‹_›]
              cases hput
              rfl

/-! ## A file written under one name and moved to another -/

theorem keepsDirectories_write {tree tree' : FileTree} {path : String} {bytes : ByteArray}
    (h : tree.write path bytes = .ok tree') : KeepsDirectories tree tree' := by
  obtain ⟨location, -, hfree, rfl⟩ := write_eq_ok h
  exact keepsDirectories_put _ hfree

theorem keepsDirectories_renameFile {tree tree' : FileTree} {path target : String}
    (h : tree.renameFile path target = .ok tree') : KeepsDirectories tree tree' := by
  obtain ⟨old, new, bytes, -, hnew, hold, hfree, rfl⟩ := renameFile_eq_ok h
  by_cases hsame : old = new
  · rw [if_pos hsame]
    exact .refl tree
  · have hclear : KeepsDirectories tree (tree.clear old) :=
      keepsDirectories_clear (by rw [hold]; simp)
    rw [if_neg hsame]
    refine hclear.trans (keepsDirectories_put _ ?_)
    rw [node?_clear_of_ne tree (Ne.symm hsame)]
    exact hfree

theorem read_write {tree tree' : FileTree} {path : String} {bytes : ByteArray}
    (h : tree.write path bytes = .ok tree') : tree'.read path = .ok bytes := by
  have hkeeps := keepsDirectories_write h
  obtain ⟨location, hpath, -, rfl⟩ := write_eq_ok h
  refine read_eq_ok_iff.mpr ⟨location, hpath.mono hkeeps, ?_⟩
  rw [node?_put_self tree _ hpath.ne_nil]

theorem read_renameFile {tree tree' : FileTree} {path target : String} {bytes : ByteArray}
    (hread : tree.read path = .ok bytes) (h : tree.renameFile path target = .ok tree') :
    tree'.read target = .ok bytes := by
  have hkeeps := keepsDirectories_renameFile h
  obtain ⟨location, hlocation, hfile⟩ := read_eq_ok_iff.mp hread
  obtain ⟨old, new, held, hold, hnew, hheld, -, rfl⟩ := renameFile_eq_ok h
  cases hlocation.unique hold
  cases hfile.symm.trans hheld
  refine read_eq_ok_iff.mpr ⟨new, hnew.mono hkeeps, ?_⟩
  by_cases hsame : location = new
  · rw [if_pos hsame, ← hsame]
    exact hfile
  · rw [if_neg hsame, node?_put_self _ _ hnew.ne_nil]

/-! ## New directories -/

/-- Both trees hold the same, except that the second one may have directories where the first has
nothing. -/
structure AddsDirectories (tree tree' : FileTree) : Prop where
  working : tree'.working = tree.working
  node : ∀ location, tree'.node? location = tree.node? location ∨
    tree.node? location = none ∧ tree'.node? location = some .directory

theorem AddsDirectories.refl (tree : FileTree) : AddsDirectories tree tree :=
  ⟨rfl, fun _ => Or.inl rfl⟩

theorem AddsDirectories.trans {tree tree' tree'' : FileTree} (h : AddsDirectories tree tree')
    (h' : AddsDirectories tree' tree'') : AddsDirectories tree tree'' where
  working := h'.working.trans h.working
  node location := by
    rcases h.node location with hsame | ⟨hnone, hdirectory⟩
    · rcases h'.node location with hsame' | ⟨hnone', hdirectory'⟩
      · exact Or.inl (hsame'.trans hsame)
      · exact Or.inr ⟨hsame.symm.trans hnone', hdirectory'⟩
    · rcases h'.node location with hsame' | ⟨-, hdirectory'⟩
      · exact Or.inr ⟨hnone, hsame'.trans hdirectory⟩
      · exact Or.inr ⟨hnone, hdirectory'⟩

theorem AddsDirectories.keepsDirectories {tree tree' : FileTree} (h : AddsDirectories tree tree') :
    KeepsDirectories tree tree' where
  working := h.working
  directory location hdirectory := by
    rcases h.node location with hsame | ⟨-, hdirectory'⟩
    · exact hsame.trans hdirectory
    · exact hdirectory'

theorem addsDirectories_makeDirectory {tree tree' : FileTree} {path : String}
    (h : tree.makeDirectory path = .ok tree') : AddsDirectories tree tree' := by
  obtain ⟨place, hlocate, hmake⟩ := bind_eq_ok_iff.mp h
  cases place with
  | directory => contradiction
  | entry location slash =>
    obtain ⟨node, hnode, hput⟩ := bind_eq_ok_iff.mp hmake
    obtain ⟨-, hfree⟩ := nodeAt_eq_ok_iff.mp hnode
    cases node with
    | some node => contradiction
    | none =>
      cases hput
      refine ⟨rfl, fun other => ?_⟩
      by_cases hsame : other = location
      · subst hsame
        have hne : other ≠ [] := by
          rintro rfl
          cases hfree
        exact Or.inr ⟨hfree, node?_put_self tree .directory hne⟩
      · exact Or.inl (node?_put_of_ne tree .directory hsame)

/-- What every new directory preserves is preserved by making all that are missing, also when that
fails on the way. -/
theorem makeMissing_related {R : FileTree → FileTree → Prop} {paths : List String}
    (hrefl : ∀ tree, R tree tree)
    (htrans : ∀ {tree tree' tree''}, R tree tree' → R tree' tree'' → R tree tree'')
    (hmake : ∀ {tree tree' path}, path ∈ paths → tree.makeDirectory path = .ok tree' →
      R tree tree') (tree : FileTree) :
    R tree (tree.makeMissing paths).1 := by
  induction paths with
  | nil => exact hrefl tree
  | cons path above ih =>
    have habove := ih fun hpath => hmake (List.mem_cons_of_mem path hpath)
    rw [makeMissing]
    split
    · rename_i hmade
      exact hmake List.mem_cons_self hmade
    · split
      · rename_i hfail
        rwa [hfail] at habove
      · rename_i hdone
        rw [hdone] at habove
        split
        · rename_i hmade
          exact htrans habove (hmake List.mem_cons_self hmade)
        · exact habove
    · exact hrefl tree

end RecordConsole.FileTree
