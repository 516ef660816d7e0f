import RecordConsole.FileTree.Basic
import RecordConsole.Json.Printer
import RecordConsole.Json.Reader
import RecordConsole.Store

/-!
Snapshots: a store in a file, as one JSON object from ids to records. A save writes a file beside
the target and then moves it there, so that the target holds either the old snapshot or the new one.
-/
namespace RecordConsole.Snapshot

def indent : Nat := 2

def text (records : List (String × Json)) : String := (Json.object records).indented indent 0

/-- The records in a file; nothing but an object will do. -/
def parse (path : String) (bytes : ByteArray) : Except Fault (List (String × Json)) :=
  match Json.read bytes with
  | .error e => .error (.json e.message)
  | .ok (.object records) => .ok records
  | .ok other =>
    .error (.store ("Snapshot '" ++ path ++ "' must be a JSON object, got " ++ other.kind))

/-- Loads a store through anything that reads files. -/
def load (read : String → Except FileError ByteArray) (name path : String) : Except Fault Store :=
  match read path with
  | .error e => .error (.io ("Failed to read snapshot '" ++ path ++ "': " ++ e.message))
  | .ok bytes => (parse path bytes).map (Store.ofRecords name)

def temporary (path : String) : String := Path.withExtension path "tmp"

def prepareParent (tree : FileTree) (path : String) : FileTree × Option Fault :=
  match Path.parent? path with
  | none => (tree, none)
  | some parent =>
    match tree.makeDirectories parent with
    | (tree, none) => (tree, none)
    | (tree, some e) =>
      (tree, some (.io ("Failed to create parent directory '" ++ parent ++ "': " ++ e.message)))

/-- Writes records in the given order. What was done before a failure stays done. -/
def saveRecords (tree : FileTree) (records : List (String × Json)) (path : String) :
    FileTree × Option Fault :=
  match prepareParent tree path with
  | (tree, some fault) => (tree, some fault)
  | (tree, none) =>
    let aside := temporary path
    match tree.write aside (text records).toUTF8 with
    | .error e => (tree, some (.io ("Failed to write temp file '" ++ aside ++ "': " ++ e.message)))
    | .ok tree =>
      match tree.renameFile aside path with
      | .ok tree => (tree, none)
      | .error e => (tree, some (.io
          ("Failed to rename temp file '" ++ aside ++ "' -> '" ++ path ++ "': " ++ e.message)))

def save (tree : FileTree) (store : Store) (path : String) : FileTree × Option Fault :=
  saveRecords tree store.toList path

end RecordConsole.Snapshot
