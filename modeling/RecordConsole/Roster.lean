import RecordConsole.Fault
import RecordConsole.Table
import RecordConsole.Text.Words

/-!
The roster of admins and the sessions opened against it. A roster never loses its last admin; a
session keeps the admin right that its author had when it was opened.
-/
namespace RecordConsole

structure Roster where
  admins : Table Unit

inductive RosterError where
  | emptyIdentity
  | longIdentity
  | blankInIdentity
  | notAdmin (identity : String)
  | lastAdmin
deriving DecidableEq, Repr

namespace Roster

def identityLimit : Nat := 128

end Roster

def RosterError.message : RosterError → String
  | emptyIdentity => "Identity cannot be empty"
  | longIdentity => "Identity too long (max " ++ toString Roster.identityLimit ++ " characters)"
  | blankInIdentity => "Identity cannot contain whitespace"
  | notAdmin identity => "Identity '" ++ identity ++ "' is not an admin"
  | lastAdmin => "Cannot revoke the last admin"

def RosterError.fault (e : RosterError) : Fault := .execution e.message

namespace Roster

def empty : Roster := ⟨.empty⟩

def ofList (identities : List String) : Roster := ⟨.ofNames identities⟩

def contains (roster : Roster) (identity : String) : Bool := roster.admins.contains identity

def toList (roster : Roster) : List String := roster.admins.names

def size (roster : Roster) : Nat := roster.admins.size

def checkIdentity (identity : String) : Except RosterError Unit :=
  if Text.isAllBlank identity then .error .emptyIdentity
  else if identityLimit < identity.utf8ByteSize then .error .longIdentity
  else if Text.hasBlank identity then .error .blankInIdentity
  else .ok ()

/-- Tells as well whether the identity was no admin before. -/
def grant (roster : Roster) (identity : String) : Except RosterError (Bool × Roster) := do
  checkIdentity identity
  .ok (!roster.contains identity, ⟨roster.admins.insert identity ()⟩)

def revoke (roster : Roster) (identity : String) : Except RosterError Roster :=
  if !roster.contains identity then .error (.notAdmin identity)
  else if roster.size ≤ 1 then .error .lastAdmin
  else .ok ⟨roster.admins.erase identity⟩

end Roster

structure Session where
  author : String
  isAdmin : Bool
deriving DecidableEq, Repr

def Roster.session (roster : Roster) (author : String) : Session :=
  ⟨author, roster.contains author⟩

end RecordConsole
