import RecordConsole.Fault
import RecordConsole.Line

/-!
Settings of an engine: how output is rendered, which target word stands for the author, and whether
diagnostics are sent along with the output.
-/
namespace RecordConsole

structure Config where
  inspectDepth : Nat := 2
  jsonIndent : Nat := 2
  selfKeyword : String := "self"
  forwardDiagnostics : Bool := true
deriving DecidableEq, Repr

def Config.maxJsonIndent : Nat := 10

inductive ConfigError where
  | emptyKeyword
  | keywordNotOneToken (keyword : String)
  | wideIndent
deriving DecidableEq, Repr

def ConfigError.message : ConfigError → String
  | emptyKeyword => "self_keyword cannot be empty"
  | keywordNotOneToken keyword => "self_keyword '" ++ keyword ++ "' must be a single token"
  | wideIndent => "json_indent must be <= " ++ toString Config.maxJsonIndent

def ConfigError.fault (e : ConfigError) : Fault := .config e.message

/-- Blanks around the keyword are allowed, blanks inside it are not. -/
def Config.validate (config : Config) : Except ConfigError Unit :=
  let keyword := Text.trim config.selfKeyword
  if keyword.isEmpty then .error .emptyKeyword
  else if Text.hasBlank keyword || (Line.splitAtSeparator keyword.toList).isSome then
    .error (.keywordNotOneToken config.selfKeyword)
  else if maxJsonIndent < config.jsonIndent then .error .wideIndent
  else .ok ()

end RecordConsole
