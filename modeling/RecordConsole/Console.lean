import RecordConsole.Engine
import RecordConsole.Settings
import RecordConsole.Snapshot
import RecordConsole.Suggestion
import RecordConsole.Text.Utf8

/-!
The console over an engine: it runs one given line, or a conversation in which each line is answered
after a prompt. All of it is text in and text out.
-/
namespace RecordConsole

structure Abort where
  context : String
  cause : String
deriving DecidableEq, Repr

/-- Further lines of the cause stand as far in as the first. -/
def Abort.text (abort : Abort) : String :=
  "Error: " ++ abort.context ++ "\n\nCaused by:\n    "
    ++ "\n    ".intercalate (abort.cause.splitOn "\n") ++ "\n"

structure Console where
  engine : Engine
  roster : Roster
  session : Session
  sources : Sources

namespace Console

def openStore (read : String → Except FileError ByteArray) (kind : StoreKind)
    (path : Option String) : Except Abort Store :=
  match path with
  | none => .ok (.empty kind.name)
  | some path => (Snapshot.load read kind.name path).mapError fun fault =>
    ⟨"Failed to load " ++ kind.name ++ " snapshot", fault.message⟩

def grantAll (roster : Roster) (identities : List String) : Except Abort Roster :=
  identities.foldlM (fun roster identity =>
    match roster.grant identity with
    | .ok (_, roster) => .ok roster
    | .error e => .error ⟨"Invalid admin identity '" ++ identity ++ "'", e.fault.message⟩) roster

def start (settings : Settings) (read : String → Except FileError ByteArray) :
    Except Abort Console := do
  let users ← openStore read .users settings.users
  let threads ← openStore read .threads settings.threads
  let roster ← grantAll .empty settings.admins
  .ok {
    engine := ⟨.standard, { inspectDepth := settings.depth }⟩
    roster
    session := roster.session settings.author
    sources := ⟨users.source, threads.source⟩ }

def printing : Sink String := fun text printed => (true, printed ++ text ++ "\n")

/-- The word that suggestions are looked up for: the last one of the name of the line. -/
def hintWord? (line : String) : Option String :=
  (Text.splitWords (Line.namePart line.toList)).getLast?.map String.ofList

def hint (console : Console) (line : String) : String :=
  match hintWord? line with
  | none => ""
  | some word =>
    match Suggestion.suggest console.engine.registry word with
    | [] => ""
    | names => "Did you mean: " ++ ", ".intercalate names ++ "?\n"

def execute (console : Console) (line : String) : Int × String :=
  let run := console.engine.run console.roster console.session console.sources printing "" line
  let code := run.report.code
  (code, run.sink ++ if code == Status.unknownCommand.code then console.hint line else "")

def banner (console : Console) : String :=
  "scriptline: acting as '" ++ console.session.author ++ "'"
    ++ (if console.session.isAdmin then " (admin)" else "")
    ++ ". Type 'help" ++ Line.separator ++ "self' or 'exit'.\n"

def prompt : String := "> "

def reply (console : Console) (line : String) : Option String :=
  let line := Text.trim line
  if line.isEmpty then some ""
  else if line = "exit" ∨ line = "quit" then none
  else
    let (code, printed) := console.execute line
    some (printed ++ "[exit " ++ toString code ++ "]\n")

def stripBreak (line : List UInt8) : List UInt8 :=
  match line.reverse with
  | 0x0A :: 0x0D :: rest => rest.reverse
  | 0x0A :: rest => rest.reverse
  | _ => line

/-- The text of a line. A character that the line break cuts short is incomplete. -/
def decodeLine (line : List UInt8) : Except Abort String :=
  (Text.decodeUtf8 ⟨(stripBreak line).toArray⟩).mapError fun fault =>
    ⟨"REPL failed", fault.message⟩

def splitLines : List UInt8 → List (List UInt8)
  | [] => []
  | b :: rest =>
    if b = 0x0A then [b] :: splitLines rest
    else match splitLines rest with
      | [] => [[b]]
      | line :: others => (b :: line) :: others

structure Transcript where
  code : Int
  stdout : String
  stderr : String
deriving DecidableEq, Repr

def converse (console : Console) (printed : String) : List (List UInt8) → Transcript
  | [] => ⟨0, printed ++ prompt, ""⟩
  | line :: rest =>
    match decodeLine line with
    | .error abort => ⟨1, printed ++ prompt, abort.text⟩
    | .ok text =>
      match console.reply text with
      | none => ⟨0, printed ++ prompt, ""⟩
      | some answer => converse console (printed ++ prompt ++ answer) rest

def transcript (settings : Settings) (read : String → Except FileError ByteArray)
    (stdin : ByteArray) : Transcript :=
  match start settings read with
  | .error abort => ⟨1, "", abort.text⟩
  | .ok console =>
    match settings.command with
    | some line =>
      let (code, printed) := console.execute line
      ⟨code, printed, ""⟩
    | none => console.converse console.banner (splitLines stdin.data.toList)

end Console
end RecordConsole
