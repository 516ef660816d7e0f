/-!
Paths as texts. A path is a list of pieces between slashes; empty pieces and single dots say
nothing, except that an empty piece at the head makes the path absolute and a dot at the head stands
for itself.
-/
namespace RecordConsole.Path

def splitSlashes : List Char → List (List Char)
  | [] => [[]]
  | c :: rest =>
    if c = '/' then [] :: splitSlashes rest
    else match splitSlashes rest with
      | [] => [[c]]
      | piece :: others => (c :: piece) :: others

def pieces (path : String) : List String := (splitSlashes path.toList).map String.ofList

def join : List String → String
  | [""] => "/"
  | pieces => "/".intercalate pieces

def isIdle (piece : String) : Bool := piece == "" || piece == "."

def dropIdleEnd (pieces : List String) : List String :=
  (pieces.reverse.dropWhile isIdle).reverse

def significant (path : String) : List String :=
  match pieces path with
  | [] => []
  | head :: rest => if path.isEmpty then [] else head :: dropIdleEnd rest

/-- The name that the path ends with, if it does not end with dots. -/
def fileName? (path : String) : Option String :=
  match (significant path).getLast? with
  | none => none
  | some piece => if isIdle piece || piece == ".." then none else some piece

/-- The path without its last piece, which the root and the empty path do not have. -/
def parent? (path : String) : Option String :=
  match significant path with
  | [] => none
  | [""] => none
  | head :: rest =>
    match rest.dropLast with
    | [] => some (if rest.isEmpty then "" else join [head])
    | inner => some (join (head :: dropIdleEnd inner))

/-- A name up to its last dot; a dot at the head does not count. -/
def stem (name : String) : String :=
  let chars := name.toList
  let after := chars.reverse.takeWhile (· ≠ '.')
  let before := chars.take (chars.length - after.length - 1)
  if before.isEmpty || after.length == chars.length then name else .ofList before

/-- The path whose last name has another extension. A path that ends with no name stays as it is. A
dot with an extension, at the very end, becomes two dots without one: they are no name to extend. -/
def withExtension (path extension : String) : String :=
  match fileName? path with
  | none => path
  | some name =>
    let extended :=
      if stem name = "." ∧ (pieces path).getLast? = some name then ".."
      else stem name ++ "." ++ extension
    join ((significant path).dropLast ++ [extended])

def ancestorsFrom : Nat → String → List String
  | 0, _ => []
  | count + 1, path =>
    match parent? path with
    | none => []
    | some parent => path :: ancestorsFrom count parent

/-- The path and the paths above it, down to but not including the root or the working directory. -/
def ancestors (path : String) : List String := ancestorsFrom (pieces path).length path

end RecordConsole.Path
