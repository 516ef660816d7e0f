import RecordConsole.Registry
import RecordConsole.Text.LowerCase

/-!
Suggestions for a word that names nothing: the registered names that the word begins, in lower case,
or else those that share its first letter.
-/
namespace RecordConsole.Suggestion

/-- All registered names, each once and in order. -/
def vocabulary (registry : Registry) : List String :=
  (Table.ofNames (registry.commandNames ++ registry.modifierNames)).names

def startingWith (names : List String) (start : List Char) : List String :=
  names.filter fun name => start.isPrefixOf name.toList

def suggest (registry : Registry) (word : String) : List String :=
  let names := vocabulary registry
  match (Text.lowerCase (Text.trim word)).toList with
  | [] => []
  | first :: rest =>
    match startingWith names (first :: rest) with
    | [] => startingWith names [first]
    | found => found

end RecordConsole.Suggestion
