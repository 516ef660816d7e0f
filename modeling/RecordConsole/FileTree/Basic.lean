import RecordConsole.FileTree.Path
import RecordConsole.Table

/-!
A tree of directories and files with one working directory, and the operations that saving and
loading need. Each of them changes nothing when it fails. There are no links, and everyone may do
everything.
-/
namespace RecordConsole

inductive FileError where
  | notFound
  | busy
  | fileExists
  | notDirectory
  | isDirectory
  | nameTooLong
  | zeroInPath
deriving DecidableEq, Repr

def FileError.message : FileError → String
  | notFound => "No such file or directory (os error 2)"
  | busy => "Device or resource busy (os error 16)"
  | fileExists => "File exists (os error 17)"
  | notDirectory => "Not a directory (os error 20)"
  | isDirectory => "Is a directory (os error 21)"
  | nameTooLong => "File name too long (os error 36)"
  | zeroInPath => "file name contained an unexpected NUL byte"

abbrev Location := List String

inductive Node where
  | directory
  | file (bytes : ByteArray)

structure FileTree where
  nodes : List (Location × Node) := []
  working : Location := []

/-- Where a path leads: to a directory, for a path that ends in dots or at the root, or to a name in
a directory, with or without a slash after it. -/
inductive Place where
  | directory
  | entry (location : Location) (slash : Bool)

namespace FileTree

def nameLimit : Nat := 255

def pathLimit : Nat := 4096

/-- The root is always there. -/
def node? (tree : FileTree) (location : Location) : Option Node :=
  if location.isEmpty then some .directory else tree.nodes.lookup location

def clear (tree : FileTree) (location : Location) : FileTree :=
  { tree with nodes := tree.nodes.filter (·.1 ≠ location) }

def put (tree : FileTree) (location : Location) (node : Node) : FileTree :=
  let rest := tree.clear location
  { rest with nodes := (location, node) :: rest.nodes }

theorem node?_root (tree : FileTree) : tree.node? [] = some .directory := rfl

theorem node?_clear (tree : FileTree) (location : Location) {other : Location} (h : other ≠ []) :
    (tree.clear location).node? other = if other = location then none else tree.node? other := by
  simp only [node?, List.isEmpty_iff, h, if_false]
  exact lookup_filter_ne location other tree.nodes

theorem node?_put (tree : FileTree) (location : Location) (node : Node) {other : Location}
    (h : other ≠ []) :
    (tree.put location node).node? other =
      if other = location then some node else tree.node? other := by
  have hput : (tree.put location node).node? other =
      if other = location then some node else (tree.clear location).node? other := by
    simp [node?, put, h, lookup_cons_eq_ite]
  rw [hput, node?_clear tree location h]
  grind

def walk (tree : FileTree) : Location → List String → Except FileError Location
  | here, [] => .ok here
  | here, name :: rest =>
    if name = "." then walk tree here rest
    else if name = ".." then walk tree here.dropLast rest
    else if nameLimit < name.utf8ByteSize then .error .nameTooLong
    else match tree.node? (here ++ [name]) with
      | none => .error .notFound
      | some (.file _) => .error .notDirectory
      | some .directory => walk tree (here ++ [name]) rest

/-- The place that a path names, with all directories on the way to it in place. -/
def locate (tree : FileTree) (path : String) : Except FileError Place :=
  if path.toList.contains (Char.ofNat 0) then .error .zeroInPath
  else if path.isEmpty then .error .notFound
  else if pathLimit ≤ path.utf8ByteSize then .error .nameTooLong
  else
    let pieces := Path.pieces path
    let names := pieces.filter (· ≠ "")
    let start := if pieces.head? = some "" then [] else tree.working
    match names.getLast? with
    | none => .ok .directory
    | some name => do
      let directory ← tree.walk start names.dropLast
      if name = "." ∨ name = ".." then .ok .directory
      else .ok (.entry (directory ++ [name]) (pieces.getLast? == some ""))

/-- What stands at a place, if its name is not too long for anything to stand there. -/
def nodeAt (tree : FileTree) (location : Location) : Except FileError (Option Node) :=
  if nameLimit < (location.getLast?.getD "").utf8ByteSize then .error .nameTooLong
  else .ok (tree.node? location)

def isDirectory (tree : FileTree) (path : String) : Bool :=
  match tree.locate path with
  | .error _ => false
  | .ok .directory => true
  | .ok (.entry location _) =>
    match tree.node? location with
    | some .directory => true
    | _ => false

def read (tree : FileTree) (path : String) : Except FileError ByteArray := do
  match ← tree.locate path with
  | .directory => .error .isDirectory
  | .entry location slash =>
    match ← tree.nodeAt location with
    | none => .error .notFound
    | some .directory => .error .isDirectory
    | some (.file bytes) => if slash then .error .notDirectory else .ok bytes

def write (tree : FileTree) (path : String) (bytes : ByteArray) : Except FileError FileTree := do
  match ← tree.locate path with
  | .directory => .error .isDirectory
  | .entry location slash =>
    if slash then .error .isDirectory
    else match ← tree.nodeAt location with
      | some .directory => .error .isDirectory
      | _ => .ok (tree.put location (.file bytes))

def makeDirectory (tree : FileTree) (path : String) : Except FileError FileTree := do
  match ← tree.locate path with
  | .directory => .error .fileExists
  | .entry location _ =>
    match ← tree.nodeAt location with
    | some _ => .error .fileExists
    | none => .ok (tree.put location .directory)

def renameFile (tree : FileTree) (path target : String) : Except FileError FileTree := do
  let source ← tree.locate path
  let goal ← tree.locate target
  match source, goal with
  | .entry old oldSlash, .entry new newSlash =>
    match ← tree.nodeAt old with
    | none => .error .notFound
    | some .directory => .error .isDirectory
    | some (.file bytes) =>
      let there ← tree.nodeAt new
      if oldSlash || newSlash then .error .notDirectory
      else match there with
        | some .directory => .error .isDirectory
        | _ => if old = new then .ok tree else .ok ((tree.clear old).put new (.file bytes))
  | _, _ => .error .busy

/-- What was done, and what failed at the end of it, if anything. -/
abbrev Attempt := FileTree × Option FileError

/-- Makes the first of these directories, and before it the next ones as far as they are missing. A
directory that is there already is as good as a new one; of several new ones the first may remain
when a later one fails. -/
def makeMissing (tree : FileTree) : List String → Attempt
  | [] => (tree, none)
  | path :: above =>
    match tree.makeDirectory path with
    | .ok made => (made, none)
    | .error .notFound =>
      match makeMissing tree above with
      | (made, some e) => (made, some e)
      | (made, none) =>
        match made.makeDirectory path with
        | .ok made => (made, none)
        | .error e => (made, if made.isDirectory path then none else some e)
    | .error e => (tree, if tree.isDirectory path then none else some e)

def makeDirectories (tree : FileTree) (path : String) : Attempt :=
  tree.makeMissing (Path.ancestors path)

def listing (tree : FileTree) : List String :=
  let paths := tree.nodes.filterMap fun (location, node) =>
    if tree.working.isPrefixOf location && location.length != tree.working.length then
      let path := "/".intercalate (location.drop tree.working.length)
      match node with
      | .directory => some (path ++ "/")
      | .file _ => some path
    else none
  (Table.ofNames paths).names

end FileTree
end RecordConsole
