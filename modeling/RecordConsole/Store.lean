import RecordConsole.Fault
import RecordConsole.Json.Value
import RecordConsole.Table
import RecordConsole.Text.Words

/-!
Record stores: a name, and a table from record ids to JSON values. Commands do not see stores but
the sources that fetch from them, and a source may fail for reasons of its own.
-/
namespace RecordConsole

structure Store where
  name : String
  records : Table Json

inductive StoreError where
  | blankId
  | missing (key : String)
deriving DecidableEq, Repr

def StoreError.fault : StoreError → Fault
  | blankId => .store "Record id cannot be empty"
  | missing key => .recordNotFound key

namespace Store

def empty (name : String) : Store := ⟨name, .empty⟩

def ofRecords (name : String) (records : List (String × Json)) : Store := ⟨name, .ofList records⟩

def key (store : Store) (id : String) : String := store.name ++ "/" ++ id

def get (store : Store) (id : String) : Except StoreError Json :=
  match store.records.find? id with
  | some record => .ok record
  | none => .error (.missing (store.key id))

/-- Gives back the record that stood there before. -/
def set (store : Store) (id : String) (record : Json) :
    Except StoreError (Option Json × Store) :=
  if Text.isAllBlank id then .error .blankId
  else .ok (store.records.find? id, { store with records := store.records.insert id record })

def remove (store : Store) (id : String) : Except StoreError (Json × Store) :=
  match store.records.find? id with
  | some record => .ok (record, { store with records := store.records.erase id })
  | none => .error (.missing (store.key id))

def ids (store : Store) : List String := store.records.names

def size (store : Store) : Nat := store.records.size

def isEmpty (store : Store) : Bool := store.size == 0

def toList (store : Store) : List (String × Json) := store.records.entries

end Store

inductive StoreKind where
  | users
  | threads
deriving DecidableEq, Repr

def StoreKind.name : StoreKind → String
  | users => "users"
  | threads => "threads"

/-- Fetches a record by its id. -/
abbrev Source := String → Except Fault Json

def Store.source (store : Store) : Source := fun id => (store.get id).mapError StoreError.fault

structure Sources where
  users : Source
  threads : Source

def Sources.get (sources : Sources) : StoreKind → Source
  | .users => sources.users
  | .threads => sources.threads

end RecordConsole
