import Mathlib.Data.List.Basic
import RecordConsole.FileTree.Basic

/-! The pieces of a path. The text of a list of pieces has these pieces again, so what taking the
parent or changing the extension does to a path is read off the lists: the parent of a path names
only what stands before the last name of the path, and another extension leaves all pieces but the
last one alone. -/
namespace RecordConsole.Path

theorem splitSlashes_eq_splitOn (chars : List Char) : splitSlashes chars = chars.splitOn '/' := by
  induction chars with
  | nil => rfl
  | cons c rest ih =>
    rw [splitSlashes, List.splitOn_cons_eq_if_modifyHead, ih]
    by_cases hslash : c = '/'
    · rw [if_pos hslash, if_pos (by simpa using hslash)]
    · rw [if_neg hslash, if_neg (by simpa using hslash)]
      cases hsplit : rest.splitOn '/' with
      | nil => exact absurd hsplit (List.splitOn_ne_nil '/' rest)
      | cons piece others => rfl

theorem slash_not_mem_of_mem_splitSlashes {chars piece : List Char}
    (h : piece ∈ splitSlashes chars) : '/' ∉ piece := by
  induction chars generalizing piece with
  | nil =>
    rw [List.mem_singleton.mp h]
    exact List.not_mem_nil
  | cons c rest ih =>
    rw [splitSlashes] at h
    split at h
    · rcases List.mem_cons.mp h with rfl | hrest
      · exact List.not_mem_nil
      · exact ih hrest
    · rename_i hslash
      have hfirst : ∀ tail : List Char, '/' ∉ tail → '/' ∉ c :: tail := by
        intro tail htail hmem
        rcases List.mem_cons.mp hmem with rfl | hmem
        · exact hslash rfl
        · exact htail hmem
      split at h
      · rw [List.mem_singleton.mp h]
        exact hfirst [] List.not_mem_nil
      · rename_i head others hsplit
        rw [hsplit] at ih
        rcases List.mem_cons.mp h with rfl | hothers
        · exact hfirst head (ih List.mem_cons_self)
        · exact ih (List.mem_cons_of_mem _ hothers)

def IsPiece (piece : String) : Prop := '/' ∉ piece.toList

theorem isPiece_of_mem_pieces {path piece : String} (h : piece ∈ pieces path) : IsPiece piece := by
  obtain ⟨chars, hchars, rfl⟩ := List.mem_map.mp h
  rw [IsPiece, String.toList_ofList]
  exact slash_not_mem_of_mem_splitSlashes hchars

theorem pieces_ne_nil (path : String) : pieces path ≠ [] := by
  rw [pieces, splitSlashes_eq_splitOn]
  exact fun h => List.splitOn_ne_nil '/' path.toList (List.map_eq_nil_iff.mp h)

theorem join_eq_intercalate {list : List String} (h : list ≠ [""]) :
    join list = "/".intercalate list := by
  unfold join
  split
  · exact absurd rfl h
  · rfl

theorem pieces_intercalate {list : List String} (hne : list ≠ [])
    (h : ∀ piece ∈ list, IsPiece piece) : pieces ("/".intercalate list) = list := by
  have hchars : ∀ chars ∈ list.map String.toList, '/' ∉ chars := by
    intro chars hmem
    obtain ⟨piece, hpiece, rfl⟩ := List.mem_map.mp hmem
    exact h piece hpiece
  have hsplit := List.splitOn_intercalate '/' hchars (by simpa using hne)
  rw [pieces, splitSlashes_eq_splitOn, String.toList_intercalate]
  exact (congrArg _ hsplit).trans (by simp)

theorem pieces_join {list : List String} (hne : list ≠ []) (hroot : list ≠ [""])
    (h : ∀ piece ∈ list, IsPiece piece) : pieces (join list) = list := by
  rw [join_eq_intercalate hroot, pieces_intercalate hne h]

theorem intercalate_pieces (path : String) : "/".intercalate (pieces path) = path := by
  apply String.toList_inj.mp
  rw [String.toList_intercalate, pieces, List.map_map]
  have hid : String.toList ∘ String.ofList = id := funext fun chars => String.toList_ofList
  rw [hid, List.map_id, splitSlashes_eq_splitOn]
  exact List.intercalate_splitOn '/'

theorem join_pieces {path : String} (h : path ≠ "") : join (pieces path) = path := by
  have hroot : pieces path ≠ [""] := by
    intro hpieces
    have hpath := intercalate_pieces path
    rw [hpieces] at hpath
    exact h hpath.symm
  rw [join_eq_intercalate hroot, intercalate_pieces]

/-! ## The names on the way -/

def names (path : String) : List String := (pieces path).filter (· ≠ "")

theorem names_join {list : List String} (hne : list ≠ []) (h : ∀ piece ∈ list, IsPiece piece) :
    names (join list) = list.filter (· ≠ "") := by
  by_cases hroot : list = [""]
  · rw [hroot]
    rfl
  · rw [names, pieces_join hne hroot h]

theorem head?_pieces_join {list : List String} (hne : list ≠ [])
    (h : ∀ piece ∈ list, IsPiece piece) : (pieces (join list)).head? = list.head? := by
  by_cases hroot : list = [""]
  · rw [hroot]
    rfl
  · rw [pieces_join hne hroot h]

theorem prefix_dropIdleEnd (list : List String) : dropIdleEnd list <+: list := by
  have hsuffix := List.reverse_prefix.mpr (List.dropWhile_suffix isIdle (l := list.reverse))
  rwa [List.reverse_reverse] at hsuffix

theorem not_isIdle_of_dropIdleEnd {list inner : List String} {last : String}
    (h : dropIdleEnd list = inner ++ [last]) : isIdle last = false := by
  have hreverse : list.reverse.dropWhile isIdle = last :: inner.reverse := by
    rw [← List.reverse_reverse (list.reverse.dropWhile isIdle)]
    exact (congrArg _ h).trans (by simp)
  have hhead := List.head?_dropWhile_not isIdle list.reverse
  rw [hreverse] at hhead
  simpa using hhead

theorem significant_eq_cons {path : String} (h : path ≠ "") :
    ∃ head rest, pieces path = head :: rest ∧ significant path = head :: dropIdleEnd rest := by
  obtain ⟨head, rest, hpieces⟩ := List.exists_cons_of_ne_nil (pieces_ne_nil path)
  refine ⟨head, rest, hpieces, ?_⟩
  rw [significant, hpieces]
  exact if_neg (by simpa using h)

/-- The parent of a path is empty, or it is the text of a list of pieces that stand at the head of
the path's pieces, before a name. -/
theorem parent?_eq_some {path parent : String} (h : parent? path = some parent) :
    parent = "" ∨ ∃ list last, list ≠ [] ∧ isIdle last = false ∧ parent = join list ∧
      ∃ inner, list <+: inner ∧ inner ++ [last] <+: pieces path := by
  have hpath : path ≠ "" := by
    rintro rfl
    cases h
  obtain ⟨head, rest, hpieces, hsignificant⟩ := significant_eq_cons hpath
  rw [parent?, hsignificant] at h
  rcases List.eq_nil_or_concat' (dropIdleEnd rest) with hrest | ⟨inner, last, hrest⟩
  · rw [hrest] at h
    left
    split at h <;> simp_all
  · right
    have hlast := not_isIdle_of_dropIdleEnd hrest
    have hprefix : head :: inner ++ [last] <+: pieces path := by
      rw [hpieces, List.cons_append, ← hrest]
      exact (List.prefix_cons_inj head).mpr (prefix_dropIdleEnd rest)
    rw [hrest] at h
    split at h
    · cases h
    · cases h
    · rename_i heq
      cases heq
      rw [List.dropLast_concat] at h
      split at h
      · rw [if_neg (by simp)] at h
        cases h
        exact ⟨[head], last, List.cons_ne_nil _ _, hlast, rfl, [head], List.prefix_refl _, hprefix⟩
      · cases h
        exact ⟨_, last, List.cons_ne_nil _ _, hlast, rfl, _,
          (List.prefix_cons_inj head).mpr (prefix_dropIdleEnd inner), hprefix⟩

/-- The first path starts where the other one does and names no more than what stands before the
other's last name. -/
structure OnWay (above path : String) : Prop where
  head : (pieces above).head? = (pieces path).head?
  names : names above <+: (names path).dropLast

theorem OnWay.trans {first above path : String} (h : OnWay first above) (h' : OnWay above path) :
    OnWay first path where
  head := h.head.trans h'.head
  names := h.names.trans ((List.dropLast_prefix _).trans h'.names)

theorem onWay_parent {path parent : String} (h : parent? path = some parent)
    (hne : parent ≠ "") : OnWay parent path := by
  rcases parent?_eq_some h with hempty | ⟨list, last, hlist, hlast, rfl, inner, hinner, hpath⟩
  · exact absurd hempty hne
  · have hpieces : ∀ piece ∈ list, IsPiece piece := fun piece hpiece =>
      isPiece_of_mem_pieces (hpath.subset (List.mem_append_left _ (hinner.subset hpiece)))
    have hword : last ≠ "" := by
      rintro rfl
      cases hlast
    obtain ⟨others, hinner⟩ := hinner
    obtain ⟨after, hpath⟩ := hpath
    subst hinner
    constructor
    · rw [head?_pieces_join hlist hpieces, ← hpath, List.append_assoc, List.append_assoc,
        List.head?_append_of_ne_nil _ hlist]
    · have hnames : names path = list.filter (· ≠ "") ++
          (others.filter (· ≠ "") ++ last :: after.filter (· ≠ "")) := by
        rw [names, ← hpath]
        simp [hword]
      rw [names_join hlist hpieces, hnames, List.dropLast_append_of_ne_nil (by simp)]
      exact List.prefix_append _ _

theorem onWay_of_mem_ancestorsFrom {count : Nat} {path parent above : String}
    (h : parent? path = some parent) (hmem : above ∈ ancestorsFrom count parent) :
    OnWay above path := by
  induction count generalizing path parent with
  | zero => cases hmem
  | succ count ih =>
    rw [ancestorsFrom] at hmem
    split at hmem
    · cases hmem
    · rename_i next hnext
      have hne : parent ≠ "" := by
        rintro rfl
        cases hnext
      rcases List.mem_cons.mp hmem with rfl | hmem
      · exact onWay_parent h hne
      · exact (ih hnext hmem).trans (onWay_parent h hne)

theorem onWay_of_mem_ancestors {path parent above : String} (h : parent? path = some parent)
    (hmem : above ∈ ancestors parent) : OnWay above path := onWay_of_mem_ancestorsFrom h hmem

/-! ## The last name -/

theorem isPiece_stem {name : String} (h : IsPiece name) : IsPiece (stem name) := by
  simp only [stem]
  split
  · exact h
  · rw [IsPiece, String.toList_ofList]
    exact fun hmem => h (List.mem_of_mem_take hmem)

theorem dropIdleEnd_eq_self {list : List String}
    (h : ∀ last, list.getLast? = some last → isIdle last = false) : dropIdleEnd list = list := by
  rcases List.eq_nil_or_concat' list with rfl | ⟨inner, last, rfl⟩
  · rfl
  · have hlast := h last List.getLast?_concat
    simp [dropIdleEnd, hlast]

/-- A path that ends with a name: its last piece is neither empty nor made of dots. -/
structure EndsWith (path name : String) : Prop where
  last : (pieces path).getLast? = some name
  idle : isIdle name = false
  dots : name ≠ ".."

section

variable {path name : String} (h : EndsWith path name)

include h

theorem EndsWith.ne_empty : path ≠ "" := by
  rintro rfl
  cases h.last
  cases h.idle

theorem EndsWith.significant : significant path = pieces path := by
  obtain ⟨head, rest, hpieces, hsignificant⟩ := significant_eq_cons h.ne_empty
  rw [hsignificant, hpieces, dropIdleEnd_eq_self]
  intro last hlast
  have hname := h.last
  rw [hpieces, List.getLast?_cons, hlast] at hname
  cases hname
  exact h.idle

theorem EndsWith.fileName? : fileName? path = some name := by
  rw [Path.fileName?, h.significant, h.last]
  simp [h.idle, h.dots]

theorem EndsWith.withExtension {extension : String} (hextension : IsPiece extension) :
    ∃ extended, Path.withExtension path extension = join ((pieces path).dropLast ++ [extended]) ∧
      pieces (Path.withExtension path extension) = (pieces path).dropLast ++ [extended] := by
  obtain ⟨extended, hextended, hpiece, hne⟩ : ∃ extended, Path.withExtension path extension =
      join ((pieces path).dropLast ++ [extended]) ∧ IsPiece extended ∧ extended ≠ "" := by
    simp only [Path.withExtension, h.fileName?, h.significant]
    refine ⟨_, rfl, ?_⟩
    split
    · exact ⟨by simp [IsPiece], by decide⟩
    · have hname := isPiece_stem (isPiece_of_mem_pieces (List.mem_of_getLast? h.last))
      refine ⟨?_, by simp⟩
      simp only [IsPiece, String.toList_append, List.mem_append, not_or]
      exact ⟨⟨hname, by decide⟩, hextension⟩
  refine ⟨extended, hextended, ?_⟩
  rw [hextended]
  refine pieces_join (by simp) ?_ ?_
  · intro hroot
    have hlast := congrArg List.getLast? hroot
    rw [List.getLast?_concat] at hlast
    exact hne (Option.some.inj hlast)
  · intro piece hmem
    rcases List.mem_append.mp hmem with hmem | hmem
    · exact isPiece_of_mem_pieces ((List.dropLast_prefix _).subset hmem)
    · rw [List.mem_singleton.mp hmem]
      exact hpiece

theorem EndsWith.withExtension_eq_self {extension : String} (hextension : IsPiece extension)
    (hsame : EndsWith (Path.withExtension path extension) name) :
    Path.withExtension path extension = path := by
  obtain ⟨extended, hjoin, hpieces⟩ := h.withExtension hextension
  have hname := hsame.last
  rw [hpieces, List.getLast?_concat] at hname
  cases hname
  rw [hjoin, List.dropLast_append_getLast? name h.last, join_pieces h.ne_empty]

end

end RecordConsole.Path
