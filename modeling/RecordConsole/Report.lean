import RecordConsole.Json.Printer

/-!
How a run ended: exit codes with a meaning of their own, and the report of one run.
-/
namespace RecordConsole

inductive Status where
  | success
  | permissionDenied
  | internalError
  | missingArguments
  | unknownCommand
deriving DecidableEq, Repr

def Status.code : Status → Int
  | success => 0
  | permissionDenied => 2
  | internalError => 3
  | missingArguments => 4
  | unknownCommand => 127

def Status.ofCode? (code : Int) : Option Status :=
  [success, permissionDenied, internalError, missingArguments, unknownCommand].find?
    fun status => status.code == code

/-- The exit code, all the text that the command produced, and the diagnostic of the run if it was
refused or failed. -/
structure Report where
  code : Int
  output : String
  diagnostic : Option String
deriving DecidableEq, Repr

namespace Report

def completed (code : Int) (output : String) : Report := ⟨code, output, none⟩

def failed (status : Status) (output diagnostic : String) : Report :=
  ⟨status.code, output, some diagnostic⟩

def status? (report : Report) : Option Status := Status.ofCode? report.code

def isSuccess (report : Report) : Bool := report.code == Status.success.code

def toJson (report : Report) : Json :=
  .object [
    ("code", .number (.ofDigits (decide (report.code < 0)) report.code.natAbs)),
    ("output", .string report.output),
    ("diagnostic", match report.diagnostic with
      | some diagnostic => .string diagnostic
      | none => .null)]

end Report
end RecordConsole
