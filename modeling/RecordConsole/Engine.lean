import RecordConsole.Builtin
import RecordConsole.Delivery

/-!
The engine runs one line. Names are looked up before the rest of the line is read, the modifier acts
before the command starts, and whatever goes wrong ends in a report with a diagnostic.
-/
namespace RecordConsole

structure Engine where
  registry : Registry
  config : Config

inductive Refusal where
  | unknownCommand (name : String)
  | unknownModifier (name : String)
  | fault (fault : Fault)
deriving DecidableEq, Repr

namespace Refusal

def status : Refusal → Status
  | unknownCommand _ => .unknownCommand
  | unknownModifier _ => .unknownCommand
  | fault _ => .internalError

def line : Refusal → String
  | unknownCommand name => unknownCommandLine name
  | unknownModifier name => unknownModifierLine name
  | fault f => f.line

end Refusal

/-- A finished run: its report, the state it left the sink in, and the stores it fetched from. -/
structure Run (σ : Type) where
  report : Report
  sink : σ
  fetched : List StoreKind

namespace Engine

def standard : Engine := ⟨.standard, {}⟩

def make (registry : Registry) (config : Config) : Except ConfigError Engine := do
  config.validate
  .ok ⟨registry, config⟩

/-- Looks up the names of a line, the command first. -/
def resolve (engine : Engine) (line : String) : Except Refusal (Command × Option Modifier) := do
  let name ← (Line.readName line).mapError fun e => .fault e.fault
  let command ← (engine.registry.command name.command).mapError fun _ =>
    .unknownCommand name.command
  match name.modifier with
  | none => .ok (command, none)
  | some modifierName =>
    let modifier ← (engine.registry.modifier modifierName).mapError fun _ =>
      .unknownModifier modifierName
    .ok (command, some modifier)

def context (engine : Engine) (roster : Roster) (session : Session) (sources : Sources)
    (line : String) : Except LineError Context := do
  let invocation ← Line.read line session.author engine.config.selfKeyword
  .ok (.start roster session sources engine.config engine.registry.catalog invocation)

def prepare (engine : Engine) (roster : Roster) (session : Session) (sources : Sources)
    (line : String) : Except Refusal Output := do
  let (command, modifier) ← engine.resolve line
  let context ← (engine.context roster session sources line).mapError fun e => .fault e.fault
  match modifier with
  | none => .ok (command.execute context)
  | some modifier =>
    let context ← (modifier.apply context).mapError .fault
    .ok (command.execute context)

variable {σ : Type}

/-- The report of a run that was refused, after `output`; its diagnostic goes to the sink as well,
if the configuration says so. -/
def refuse (engine : Engine) (sink : Sink σ) (refusal : Refusal) (output : String)
    (fetched : List StoreKind) (state : σ) : Run σ where
  report := .failed refusal.status output refusal.line
  sink := if engine.config.forwardDiagnostics then (sink refusal.line state).2 else state
  fetched

def run (engine : Engine) (roster : Roster) (session : Session) (sources : Sources)
    (sink : Sink σ) (state : σ) (line : String) : Run σ :=
  match engine.prepare roster session sources line with
  | .error refusal => engine.refuse sink refusal "" [] state
  | .ok output =>
    match Delivery.deliver sink output.steps {} state with
    | (.ok code, delivery, state) => ⟨.completed code delivery.output, state, output.fetched⟩
    | (.error fault, delivery, state) =>
      engine.refuse sink (.fault fault) delivery.output output.fetched state

end Engine
end RecordConsole
