/-!
Who may act on whom. The base scope lets authors act on themselves alone; the elevated scope lets
admin authors act on anyone.
-/
namespace RecordConsole

inductive Scope where
  | base
  | elevated
deriving DecidableEq, Repr

def Scope.name : Scope → String
  | base => "base"
  | elevated => "elevated"

structure Permissions where
  author : String
  target : String
  authorIsAdmin : Bool
  scope : Scope := .base
deriving DecidableEq, Repr

namespace Permissions

def allowsUnder (p : Permissions) (scope : Scope) (author target : String) : Bool :=
  match scope with
  | .base => author == target
  | .elevated => p.authorIsAdmin || author == target

def allowsBetween (p : Permissions) (author target : String) : Bool :=
  p.allowsUnder p.scope author target

def allows (p : Permissions) : Bool := p.allowsBetween p.author p.target

end Permissions
end RecordConsole
