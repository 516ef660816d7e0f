import RecordConsole.Json.Printer
import RecordConsole.Text.Alphanumeric

/-!
A dump of a value for readers: strings in single quotes, keys bare where they are identifiers, and
containers below a given depth shown by their kind alone. A container stays on one line if that line
is short enough.
-/
namespace RecordConsole.Json.Dump

def lineWidth : Nat := 72

def step : Nat := 2

def apostrophe : Char := Char.ofNat 39

def escape (c : Char) : List Char :=
  if c = apostrophe then ['\\', apostrophe]
  else if c = '\\' then ['\\', '\\']
  else if c = '\n' then ['\\', 'n']
  else if c = '\t' then ['\\', 't']
  else if c = '\r' then ['\\', 'r']
  else [c]

def quoted (text : String) : String :=
  .ofList (apostrophe :: (text.toList.flatMap escape ++ [apostrophe]))

def startsIdentifier (c : Char) : Bool := Text.isAlphabetic c || c == '_' || c == '$'

def continuesIdentifier (c : Char) : Bool := Text.isAlphanumeric c || c == '_' || c == '$'

def isIdentifier (text : String) : Bool :=
  match text.toList with
  | [] => false
  | c :: rest => startsIdentifier c && rest.all continuesIdentifier

def key (name : String) : String := if isIdentifier name then name else quoted name

def oneLine (first last : String) (parts : List String) : String :=
  first ++ " " ++ ", ".intercalate parts ++ " " ++ last

/-- A container on one line if it is short and no part of it is broken, and on several lines
otherwise; it stands on a line at the given level. -/
def wrapped (first last : String) (level : Nat) (parts : List String) : String :=
  let line := oneLine first last parts
  if line.utf8ByteSize ≤ lineWidth && !line.toList.contains '\n' then line
  else bracketed first last step (level * step) parts

mutual

/-- The text of a value at a level, where containers at levels above `depth` are shown by their
kind. -/
def dump (depth level : Nat) : Json → String
  | .null => "null"
  | .bool b => truth b
  | .number n => n.text
  | .string s => quoted s
  | .array [] => "[]"
  | .array (v :: rest) =>
    if depth < level then "[Array]"
    else wrapped "[" "]" level (dump depth (level + 1) v :: dumpItems depth (level + 1) rest)
  | .object [] => "\x7b\x7d"
  | .object ((name, v) :: rest) =>
    if depth < level then "[Object]"
    else wrapped "\x7b" "\x7d" level
      ((key name ++ ": " ++ dump depth (level + 1) v) :: dumpEntries depth (level + 1) rest)

def dumpItems (depth level : Nat) : List Json → List String
  | [] => []
  | v :: rest => dump depth level v :: dumpItems depth level rest

def dumpEntries (depth level : Nat) : List (String × Json) → List String
  | [] => []
  | (name, v) :: rest => (key name ++ ": " ++ dump depth level v) :: dumpEntries depth level rest

end

end Dump

def inspect (v : Json) (depth : Nat) : String := Dump.dump depth 0 v

end RecordConsole.Json
