import RecordConsole.Text.Numeral

/-!
What the console is started with, and how it is given on a command line: options with a value,
either in the same word after an equals sign or in the next word.
-/
namespace RecordConsole

structure Settings where
  author : String := "guest"
  admins : List String := []
  depth : Nat := 2
  command : Option String := none
  users : Option String := none
  threads : Option String := none
deriving DecidableEq, Repr

inductive UsageError where
  | unknownOption (word : String)
  | missingValue (option : String)
  | badDepth (text : String)
deriving DecidableEq, Repr

def UsageError.message : UsageError → String
  | unknownOption word => "unexpected argument '" ++ word ++ "'"
  | missingValue option => "a value is required for '" ++ option ++ "'"
  | badDepth text => "invalid value '" ++ text ++ "' for '--depth'"

namespace Settings

def set (settings : Settings) (option value : String) : Except UsageError Settings :=
  match option with
  | "--author" => .ok { settings with author := value }
  | "--admin" => .ok { settings with admins := settings.admins ++ [value] }
  | "--users" => .ok { settings with users := some value }
  | "--threads" => .ok { settings with threads := some value }
  | "--command" => .ok { settings with command := some value }
  | "-c" => .ok { settings with command := some value }
  | "--depth" =>
    match Text.size? value with
    | some depth => .ok { settings with depth }
    | none => .error (.badDepth value)
  | _ => .error (.unknownOption option)

def splitValue (word : String) : Option (String × String) :=
  let chars := word.toList
  match chars.dropWhile (· ≠ '=') with
  | [] => none
  | _ :: value => some (.ofList (chars.takeWhile (· ≠ '=')), .ofList value)

def addWords (settings : Settings) : List String → Except UsageError Settings
  | [] => .ok settings
  | word :: rest =>
    match splitValue word with
    | some (option, value) => do addWords (← settings.set option value) rest
    | none =>
      match rest with
      | [] => .error (.missingValue word)
      | value :: more => do addWords (← settings.set word value) more

def ofWords (words : List String) : Except UsageError Settings := addWords {} words

end Settings
end RecordConsole
