import RecordConsole.Arguments
import RecordConsole.Config
import RecordConsole.Permission
import RecordConsole.Roster
import RecordConsole.Store

/-!
Commands and modifiers as data. A command maps its context to the steps that it yields; a modifier
is a list of actions on the context, carried out before the command starts.
-/
namespace RecordConsole

structure Listing where
  name : String
  summary : String
deriving DecidableEq, Repr

structure Catalog where
  commands : List Listing
  modifiers : List Listing
deriving DecidableEq, Repr

structure Context where
  invocation : Invocation
  arguments : Arguments
  permissions : Permissions
  session : Session
  targetIsAdmin : Bool
  sources : Sources
  config : Config
  catalog : Catalog

namespace Context

/-- The context of a line that was just read: permissions start at the base scope, and the target is
looked up in the roster of this moment. -/
def start (roster : Roster) (session : Session) (sources : Sources) (config : Config)
    (catalog : Catalog) (invocation : Invocation) : Context where
  invocation
  arguments := .ofTail invocation.tail
  permissions := {
    author := session.author
    target := invocation.target
    authorIsAdmin := session.isAdmin }
  session
  targetIsAdmin := roster.contains invocation.target
  sources
  config
  catalog

def author (context : Context) : String := context.session.author

def target (context : Context) : String := context.invocation.target

def scope (context : Context) : Scope := context.permissions.scope

def elevate (context : Context) : Context :=
  { context with permissions := { context.permissions with scope := .elevated } }

/-- Elevates for admins, and does nothing for others. -/
def rise (context : Context) : Context :=
  if context.session.isAdmin then context.elevate else context

end Context

/-- One item of what a command yields. Nothing after an exit or a fault is read. -/
inductive Step where
  | chunk (text : String)
  | exit (code : Int)
  | fault (fault : Fault)
deriving DecidableEq, Repr

/-- The steps of a command, and the stores that it fetched from on the way. -/
structure Output where
  steps : List Step
  fetched : List StoreKind := []
deriving DecidableEq, Repr

structure Command where
  name : String
  summary : String
  execute : Context → Output

def Command.listing (command : Command) : Listing := ⟨command.name, command.summary⟩

inductive Action where
  | elevate
  | rise
  | fail (fault : Fault)
deriving DecidableEq, Repr

def Action.apply (context : Context) : Action → Except Fault Context
  | elevate => .ok context.elevate
  | rise => .ok context.rise
  | fail fault => .error fault

structure Modifier where
  name : String
  summary : String
  actions : List Action
deriving DecidableEq, Repr

def Modifier.listing (modifier : Modifier) : Listing := ⟨modifier.name, modifier.summary⟩

def Modifier.apply (modifier : Modifier) (context : Context) : Except Fault Context :=
  modifier.actions.foldlM Action.apply context

end RecordConsole
