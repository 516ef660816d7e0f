/-!
Failures as they reach a user: a kind, a text, and for some a longer account beside it. The lines
that report a failure or a refusal are here as well.
-/
namespace RecordConsole

inductive Fault where
  | parse (text : String)
  | unknownCommand (name : String)
  | unknownModifier (name : String)
  | recordNotFound (key : String)
  | store (text : String)
  | sink (text : String)
  | execution (text : String)
  | config (text : String)
  | lock (text : String)
  | io (text : String)
  | json (text : String)
  | detailed (text detail : String)
deriving DecidableEq, Repr

namespace Fault

def message : Fault → String
  | parse text => "Parse error: " ++ text
  | unknownCommand name => "Command '" ++ name ++ "' not found"
  | unknownModifier name => "Modifier '" ++ name ++ "' not found"
  | recordNotFound key => "Record '" ++ key ++ "' not found"
  | store text => "Store error: " ++ text
  | sink text => "Sink error: " ++ text
  | execution text => "Execution error: " ++ text
  | config text => "Configuration error: " ++ text
  | lock text => "Lock error: " ++ text
  | io text => "I/O error: " ++ text
  | json text => "JSON error: " ++ text
  | detailed text _ => text

def detail? : Fault → Option String
  | detailed _ detail => some detail
  | _ => none

def line (fault : Fault) : String :=
  "❌ NXS Error: " ++ fault.message ++
    match fault.detail? with
    | some detail => "\n\n" ++ detail
    | none => ""

end Fault

def unknownCommandLine (name : String) : String := "❌ CommandNotFound: " ++ name

def unknownModifierLine (name : String) : String := "❌ ModifierNotFound: " ++ name

def deniedLine : String := "🔒 Rise the permission first."

def Fault.poisoned : Fault := .lock "poisoned lock: another task failed inside"

end RecordConsole
