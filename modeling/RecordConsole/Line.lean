import RecordConsole.Fault
import RecordConsole.Text.Words

/-!
The grammar of a line, `[modifier ]command::target tail`. The first separator ends the name; names,
target and tail are set apart by blanks, and the tail is left as it stands.
-/
namespace RecordConsole

structure CallName where
  modifier : Option String
  command : String
deriving DecidableEq, Repr

/-- A line in its parts. The target is the author where the line wrote the self keyword. -/
structure Invocation where
  modifier : Option String
  command : String
  rawTarget : String
  target : String
  tail : String
deriving DecidableEq, Repr

inductive LineError where
  | missingName
  | missingSeparator (line : String)
  | missingTarget (command : String)
deriving DecidableEq, Repr

def LineError.message : LineError → String
  | missingName => "missing command name"
  | missingSeparator line => "expected '<command>::<target>' in '" ++ Text.trim line ++ "'"
  | missingTarget command => "missing target for command '" ++ command ++ "'"

def LineError.fault (e : LineError) : Fault := .parse e.message

namespace Line

def separator : String := "::"

def splitAtSeparator : List Char → Option (List Char × List Char)
  | ':' :: ':' :: rest => some ([], rest)
  | c :: rest => (splitAtSeparator rest).map fun (before, after) => (c :: before, after)
  | [] => none

/-- The name of a line, which is the whole line if there is no separator. -/
def namePart (line : List Char) : List Char :=
  match splitAtSeparator line with
  | some (before, _) => before
  | none => line

/-- Words after the second one are ignored. -/
def readName (line : String) : Except LineError CallName :=
  match Text.splitWords (namePart line.toList) with
  | [] => .error .missingName
  | [command] => .ok ⟨none, .ofList command⟩
  | modifier :: command :: _ => .ok ⟨some (.ofList modifier), .ofList command⟩

def isKeyword (keyword word : String) : Bool :=
  word.toList.map Char.toLower == keyword.toList.map Char.toLower

def read (line author keyword : String) : Except LineError Invocation := do
  let name ← readName line
  match splitAtSeparator line.toList with
  | none => .error (.missingSeparator line)
  | some (_, after) =>
    let place := Text.dropBlank after
    let rawTarget := String.ofList (place.takeWhile fun c => !Text.isBlank c)
    if rawTarget.isEmpty then .error (.missingTarget name.command)
    else .ok {
      modifier := name.modifier
      command := name.command
      rawTarget
      target := if isKeyword keyword rawTarget then author else rawTarget
      tail := .ofList (Text.trimChars (place.dropWhile fun c => !Text.isBlank c)) }

end Line
end RecordConsole
