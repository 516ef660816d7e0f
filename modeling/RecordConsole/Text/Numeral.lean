/-!
Decimal numerals in texts: ASCII digits, with one plus sign allowed in front.
-/
namespace RecordConsole.Text

def digitValue? (c : Char) : Option Nat :=
  if c.isDigit then some (c.toNat - 48) else none

def continueNumber : Nat → List Char → Option Nat
  | value, [] => some value
  | value, c :: rest =>
    match digitValue? c with
    | some digit => continueNumber (10 * value + digit) rest
    | none => none

def digitsValue? : List Char → Option Nat
  | [] => none
  | digits => continueNumber 0 digits

def natural? (limit : Nat) (text : String) : Option Nat :=
  let digits := match text.toList with
    | '+' :: rest => rest
    | all => all
  match digitsValue? digits with
  | some value => if value < limit then some value else none
  | none => none

/-- Sizes, depths and positions have 64 bits. -/
def wordLimit : Nat := 18446744073709551616

def size? (text : String) : Option Nat := natural? wordLimit text

end RecordConsole.Text
