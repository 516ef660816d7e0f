/-!
Character classes as ascending lists of code point ranges. Membership reads the list from the left
and stops at the first range that ends at or after the character.
-/
namespace RecordConsole.Text

/-- Ranges of code points, ends included, in ascending order and apart from one another. -/
abbrev CharClass := List (Nat × Nat)

def CharClass.containsCode : CharClass → Nat → Bool
  | [], _ => false
  | (first, last) :: rest, code =>
    if code ≤ last then first ≤ code else CharClass.containsCode rest code

def CharClass.contains (ranges : CharClass) (c : Char) : Bool :=
  ranges.containsCode c.toNat

end RecordConsole.Text
