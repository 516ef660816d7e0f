import RecordConsole.Json.Value
import RecordConsole.Text.Numeral
import RecordConsole.Text.Words

/-!
Walking into a value, from the outside in. A key names an entry of an object or a position of an
array; where there is no such place the walk ends at null, and null has no places.
-/
namespace RecordConsole.Json

def child? : Json → String → Option Json
  | .object entries, key => entries.lookup key
  | .array items, key => (Text.size? key).bind fun position => items[position]?
  | _, _ => none

def walk : Json → List String → Json
  | v, [] => v
  | v, key :: rest =>
    match v.child? key with
    | some inner => walk inner rest
    | none => .null

def property (v : Json) (keys : List String) : Json := v.walk (Text.wordsOfParts keys)

end RecordConsole.Json
