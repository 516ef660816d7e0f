import RecordConsole.Proofs.FileTree
import RecordConsole.Proofs.Path

/-! The directories on the way to a path. Making the directory above a path puts nothing anywhere
but on that way, whether it succeeds or fails, and two paths that differ in the extension only never
lead to one name. -/
namespace RecordConsole.FileTree

def start (tree : FileTree) (path : String) : Location :=
  if (Path.pieces path).head? = some "" then [] else tree.working

def Passes (tree : FileTree) (path : String) (location : Location) : Prop :=
  ∃ names, names <+: (Path.names path).dropLast ∧
    tree.walk (tree.start path) names = .ok location

theorem start_congr {tree tree' : FileTree} {path path' : String}
    (hworking : tree'.working = tree.working)
    (hhead : (Path.pieces path').head? = (Path.pieces path).head?) :
    tree'.start path' = tree.start path := by
  rw [start, start, hworking, hhead]

theorem Passes.mono {tree tree' : FileTree} (h : KeepsDirectories tree tree') {path : String}
    {location : Location} (hpass : tree.Passes path location) : tree'.Passes path location := by
  obtain ⟨names, hnames, hwalk⟩ := hpass
  refine ⟨names, hnames, ?_⟩
  rw [start_congr h.working rfl]
  exact walk_mono h hwalk

theorem walk_append (tree : FileTree) (here : Location) (names more : List String) :
    tree.walk here (names ++ more) =
      tree.walk here names >>= fun there => tree.walk there more := by
  induction names generalizing here with
  | nil => rfl
  | cons name rest ih =>
    rw [List.cons_append, walk, walk]
    split
    · exact ih here
    · split
      · exact ih here.dropLast
      · split
        · rfl
        · split
          · rfl
          · rfl
          · exact ih (here ++ [name])

theorem walk_concat {tree : FileTree} {here there : Location} {names : List String} {name : String}
    (hwalk : tree.walk here names = .ok there) (hdot : name ≠ ".") (hdots : name ≠ "..")
    (hshort : ¬ nameLimit < name.utf8ByteSize)
    (hdirectory : tree.node? (there ++ [name]) = some .directory) :
    tree.walk here (names ++ [name]) = .ok (there ++ [name]) := by
  rw [walk_append, hwalk]
  simp only [bind, Except.bind]
  rw [walk, if_neg hdot, if_neg hdots, if_neg hshort, hdirectory]
  rfl

structure Ends (tree : FileTree) (path : String) (directory : Location) (name : String) : Prop where
  last : (Path.names path).getLast? = some name
  walk : tree.walk (tree.start path) (Path.names path).dropLast = .ok directory
  dot : name ≠ "."
  dots : name ≠ ".."

theorem locate_eq_entry {tree : FileTree} {path : String} {location : Location} {slash : Bool}
    (h : tree.locate path = .ok (.entry location slash)) :
    (∃ directory name, location = directory ++ [name] ∧ tree.Ends path directory name) ∧
      slash = ((Path.pieces path).getLast? == some "") := by
  simp only [locate] at h
  split at h
  · contradiction
  · split at h
    · contradiction
    · split at h
      · contradiction
      · split at h
        · cases h
        · rename_i name hlast
          obtain ⟨directory, hwalk, hentry⟩ := bind_eq_ok_iff.mp h
          split at hentry
          · cases hentry
          · rename_i hdots
            cases hentry
            rw [not_or] at hdots
            exact ⟨⟨directory, name, rfl, hlast, hwalk, hdots.1, hdots.2⟩, rfl⟩

/-! ## New directories -/

/-- Both trees hold the same, except that the second one may have directories where the first has
nothing, and the path passes all of these. -/
structure AddsPassage (path : String) (tree tree' : FileTree) : Prop extends
    AddsDirectories tree tree' where
  passes : ∀ location, tree.node? location = none → tree'.node? location = some .directory →
    tree'.Passes path location

theorem AddsPassage.refl (path : String) (tree : FileTree) : AddsPassage path tree tree where
  toAddsDirectories := .refl tree
  passes := by
    intro location hnone hdirectory
    cases hnone.symm.trans hdirectory

theorem AddsPassage.trans {path : String} {tree tree' tree'' : FileTree}
    (h : AddsPassage path tree tree') (h' : AddsPassage path tree' tree'') :
    AddsPassage path tree tree'' where
  toAddsDirectories := h.toAddsDirectories.trans h'.toAddsDirectories
  passes := by
    intro location hnone hdirectory
    rcases h.node location with hsame | ⟨-, hearlier⟩
    · exact h'.passes location (hsame.trans hnone) hdirectory
    · exact (h.passes location hnone hearlier).mono h'.keepsDirectories

theorem addsPassage_makeDirectory {tree tree' : FileTree} {path above : String}
    (habove : Path.OnWay above path) (h : tree.makeDirectory above = .ok tree') :
    AddsPassage path tree tree' := by
  have hadds := addsDirectories_makeDirectory h
  refine ⟨hadds, ?_⟩
  intro other hnone hdirectory
  obtain ⟨place, hlocate, hmake⟩ := bind_eq_ok_iff.mp h
  cases place with
  | directory => contradiction
  | entry location slash =>
    obtain ⟨node, hnode, hput⟩ := bind_eq_ok_iff.mp hmake
    obtain ⟨hshort, -⟩ := nodeAt_eq_ok_iff.mp hnode
    cases node with
    | some node => contradiction
    | none =>
      cases hput
      have hother : other = location := by
        by_contra hne
        rw [node?_put_of_ne tree .directory hne, hnone] at hdirectory
        cases hdirectory
      subst hother
      obtain ⟨⟨directory, name, rfl, hends⟩, -⟩ := locate_eq_entry hlocate
      refine ⟨Path.names above, habove.names, ?_⟩
      have hwalk := walk_mono hadds.keepsDirectories hends.walk
      rw [← start_congr hadds.working habove.head.symm] at hwalk
      rw [List.getLast?_concat] at hshort
      rw [← List.dropLast_append_getLast? name hends.last]
      exact walk_concat hwalk hends.dot hends.dots hshort hdirectory

/-- Whatever is done to make the parent of a path, it is done on the way to the path. -/
theorem addsPassage_makeDirectories {path parent : String} (h : Path.parent? path = some parent)
    (tree : FileTree) : AddsPassage path tree (tree.makeDirectories parent).1 := by
  apply makeMissing_related
  · exact AddsPassage.refl path
  · intro tree tree' tree'' hfirst hsecond
    exact hfirst.trans hsecond
  · intro tree tree' above hmem hmade
    exact addsPassage_makeDirectory (Path.onWay_of_mem_ancestors h hmem) hmade

/-! ## The last name -/

theorem LeadsTo.exists_endsWith {tree : FileTree} {path : String} {location : Location}
    (h : tree.LeadsTo path location) :
    ∃ directory name, location = directory ++ [name] ∧ Path.EndsWith path name := by
  obtain ⟨⟨directory, name, hlocation, hends⟩, hslash⟩ := locate_eq_entry h.locate
  refine ⟨directory, name, hlocation, ?_⟩
  have hlast : (Path.pieces path).getLast? = some name := by
    rcases List.eq_nil_or_concat' (Path.pieces path) with hnil | ⟨inner, last, hpieces⟩
    · exact absurd hnil (Path.pieces_ne_nil path)
    · rw [hpieces, List.getLast?_concat] at hslash ⊢
      have hword : last ≠ "" := by simpa using hslash.symm
      have hname := hends.last
      rw [Path.names, hpieces, List.filter_append] at hname
      simpa [hword] using hname
  have hword : name ≠ "" := by
    rintro rfl
    rw [hlast] at hslash
    cases hslash
  exact ⟨hlast, by simp [Path.isIdle, hword, hends.dot], hends.dots⟩

/-- Under two extensions a path leads to two names, unless it is the same path twice. -/
theorem LeadsTo.withExtension_eq_self {tree : FileTree} {path extension : String}
    {location : Location} (hextension : Path.IsPiece extension) (h : tree.LeadsTo path location)
    (h' : tree.LeadsTo (Path.withExtension path extension) location) :
    Path.withExtension path extension = path := by
  obtain ⟨directory, name, hlocation, hends⟩ := h.exists_endsWith
  obtain ⟨directory', name', hlocation', hends'⟩ := h'.exists_endsWith
  have hname : name = name' := by
    have hlast := congrArg List.getLast? (hlocation.symm.trans hlocation')
    rw [List.getLast?_concat, List.getLast?_concat] at hlast
    exact Option.some.inj hlast
  subst hname
  exact hends.withExtension_eq_self hextension hends'

end RecordConsole.FileTree
