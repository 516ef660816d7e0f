import RecordConsole.Command

/-!
The registry of commands and modifiers. A name is one that a line can call, and within its kind it
is taken once and for all.
-/
namespace RecordConsole

structure Registry where
  commands : Table Command
  modifiers : Table Modifier

inductive RegistryError where
  | invalidName (name : String)
  | commandTaken (name : String)
  | modifierTaken (name : String)
deriving DecidableEq, Repr

def RegistryError.message : RegistryError → String
  | invalidName name => "'" ++ name ++ "' is not a valid command or modifier name"
  | commandTaken name => "Command '" ++ name ++ "' is already registered"
  | modifierTaken name => "Modifier '" ++ name ++ "' is already registered"

def RegistryError.fault (e : RegistryError) : Fault := .execution e.message

namespace Registry

def empty : Registry := ⟨.empty, .empty⟩

/-- Names are single words and hold no separator. -/
def isValidName (name : String) : Bool :=
  !name.isEmpty && !Text.hasBlank name && (Line.splitAtSeparator name.toList).isNone

def addCommand (registry : Registry) (command : Command) : Except RegistryError Registry :=
  if !isValidName command.name then .error (.invalidName command.name)
  else if registry.commands.contains command.name then .error (.commandTaken command.name)
  else .ok { registry with commands := registry.commands.insert command.name command }

def addModifier (registry : Registry) (modifier : Modifier) : Except RegistryError Registry :=
  if !isValidName modifier.name then .error (.invalidName modifier.name)
  else if registry.modifiers.contains modifier.name then .error (.modifierTaken modifier.name)
  else .ok { registry with modifiers := registry.modifiers.insert modifier.name modifier }

def command (registry : Registry) (name : String) : Except Fault Command :=
  match registry.commands.find? name with
  | some command => .ok command
  | none => .error (.unknownCommand name)

def modifier (registry : Registry) (name : String) : Except Fault Modifier :=
  match registry.modifiers.find? name with
  | some modifier => .ok modifier
  | none => .error (.unknownModifier name)

def commandNames (registry : Registry) : List String := registry.commands.names

def modifierNames (registry : Registry) : List String := registry.modifiers.names

def catalog (registry : Registry) : Catalog where
  commands := registry.commands.entries.map fun (_, command) => command.listing
  modifiers := registry.modifiers.entries.map fun (_, modifier) => modifier.listing

end Registry
end RecordConsole
