import RecordConsole.Entries
import RecordConsole.Text.Numeral
import RecordConsole.Text.Words

/-!
Positional arguments and flags of a tail. A flag takes the token after it as its value unless that
token is a flag too; a flag that is written again keeps its place and takes its last form.
-/
namespace RecordConsole

inductive Flag where
  | present
  | value (text : String)
deriving DecidableEq, Repr

def Flag.value? : Flag → Option String
  | present => none
  | value text => some text

inductive Argument where
  | positional (token : String)
  | flag (name : String) (form : Flag)
deriving DecidableEq, Repr

def flagName? (token : String) : Option String :=
  match token.toList with
  | '-' :: '-' :: name => some (.ofList name)
  | _ => none

def Argument.ofTokens : List String → List Argument
  | [] => []
  | token :: rest =>
    match flagName? token with
    | none => .positional token :: ofTokens rest
    | some name =>
      match rest with
      | [] => [.flag name .present]
      | next :: more =>
        match flagName? next with
        | none => .flag name (.value next) :: ofTokens more
        | some _ => .flag name .present :: ofTokens (next :: more)

def Argument.positional? : Argument → Option String
  | positional token => some token
  | flag _ _ => none

def Argument.flag? : Argument → Option (String × Flag)
  | positional _ => none
  | flag name form => some (name, form)

structure Arguments where
  positional : List String
  flags : List (String × Flag)
deriving DecidableEq, Repr

namespace Arguments

def ofTokens (tokens : List String) : Arguments where
  positional := (Argument.ofTokens tokens).filterMap Argument.positional?
  flags := entriesOf ((Argument.ofTokens tokens).filterMap Argument.flag?)

def ofParts (parts : List String) : Arguments := ofTokens (Text.wordsOfParts parts)

def ofTail (tail : String) : Arguments := ofTokens (Text.words tail)

def flag? (args : Arguments) (name : String) : Option Flag := args.flags.lookup name

def hasFlag (args : Arguments) (name : String) : Bool := (args.flag? name).isSome

def flagValue? (args : Arguments) (name : String) : Option String :=
  (args.flag? name).bind Flag.value?

/-- A value that is no number counts as absent. -/
def flagSize? (args : Arguments) (name : String) : Option Nat :=
  (args.flagValue? name).bind Text.size?

def isEmpty (args : Arguments) : Bool := args.positional.isEmpty && args.flags.isEmpty

end Arguments
end RecordConsole
