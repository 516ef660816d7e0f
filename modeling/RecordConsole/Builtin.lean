import RecordConsole.Json.Dump
import RecordConsole.Json.Property
import RecordConsole.Registry
import RecordConsole.Report

/-!
The built-in commands and the standard registry: reading a property of a record, showing who acts on
whom, and listing what there is to run.
-/
namespace RecordConsole

namespace PropertyReader

def keysRequired : String :=
  "A nested keys (shallowest to deepest, separated by spaces.) is required."

def wholeRecord : String := "all"

def select (record : Json) (keys : List String) : Json :=
  if keys.head? = some wholeRecord then record else record.property keys

def render (config : Config) (arguments : Arguments) (v : Json) : String :=
  if arguments.hasFlag "json" then v.text config.jsonIndent
  else v.inspect ((arguments.flagSize? "depth").getD config.inspectDepth)

/-- Checks that there are keys, then that the author may act on the target, and only then fetches
the record. -/
def execute (kind : StoreKind) (context : Context) : Output :=
  let keys := context.arguments.positional
  if keys.isEmpty then
    { steps := [.chunk keysRequired, .exit Status.missingArguments.code] }
  else if !context.permissions.allowsBetween context.author context.target then
    { steps := [.chunk deniedLine, .exit Status.permissionDenied.code] }
  else match context.sources.get kind context.target with
    | .error fault => { steps := [.fault fault], fetched := [kind] }
    | .ok record =>
      let body := render context.config context.arguments (select record keys)
      { steps := [
          .chunk ("Property => " ++ ".".intercalate keys ++ "\n\n" ++ body),
          .exit Status.success.code]
        fetched := [kind] }

end PropertyReader

namespace Command

def userProperty : Command where
  name := "uget"
  summary := "read a property of a user record"
  execute := PropertyReader.execute .users

def threadProperty : Command where
  name := "tget"
  summary := "read a property of a thread record"
  execute := PropertyReader.execute .threads

def whoami : Command where
  name := "whoami"
  summary := "show author, target and the active permission scope"
  execute context := { steps := [
    .chunk ("author: " ++ context.author ++ "\n"),
    .chunk ("target: " ++ context.target ++ "\n"),
    .chunk ("author admin: " ++ Json.truth context.session.isAdmin ++ "\n"),
    .chunk ("target admin: " ++ Json.truth context.targetIsAdmin ++ "\n"),
    .chunk ("scope: " ++ context.scope.name ++ "\n")] }

def nameColumn : Nat := 10

def helpEntry (listing : Listing) : String :=
  "  " ++ listing.name ++ Json.spaces (nameColumn - listing.name.length) ++ " "
    ++ listing.summary ++ "\n"

def helpText (catalog : Catalog) : String :=
  "Usage: [modifier ]command" ++ Line.separator ++ "target [args] [--flag [value]]\n\nCommands:\n"
    ++ String.join (catalog.commands.map helpEntry)
    ++ "\nModifiers:\n" ++ String.join (catalog.modifiers.map helpEntry)

def help : Command where
  name := "help"
  summary := "list commands and modifiers"
  execute context := { steps := [.chunk (helpText context.catalog)] }

end Command

def Modifier.rise : Modifier where
  name := "rise"
  summary := "run the command with admin permissions (admins only)"
  actions := [.rise]

def Registry.standard : Registry where
  commands := .ofList
    ([Command.userProperty, .threadProperty, .whoami, .help].map fun command =>
      (command.name, command))
  modifiers := .ofList [(Modifier.rise.name, .rise)]

end RecordConsole
