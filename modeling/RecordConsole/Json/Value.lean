import RecordConsole.Decimal.Shortest
import RecordConsole.Text.Numeral

/-!
JSON values. Objects keep their entries in order, so two objects with the same entries in another
order are two values; integers and floating-point numbers stay apart as well.
-/
namespace RecordConsole

namespace Json

/-- The integers kept as such: those of 64 bits, signed or unsigned. -/
abbrev FitsWord (n : Int) : Prop := -9223372036854775808 ≤ n ∧ n < Text.wordLimit

inductive Number where
  | integer (n : Int) (fits : FitsWord n)
  | float (negative : Bool) (magnitude : Decimal.Binary64)
deriving DecidableEq

/-- The number with these digits and neither a point nor an exponent. Minus zero is no integer, and
an integer that does not fit a word becomes a floating-point number. -/
def Number.ofDigits (negative : Bool) (digits : Nat) : Number :=
  let float := Number.float negative ((Decimal.Binary64.ofRatio digits 1).getD .zero)
  let n : Int := if negative then -digits else digits
  if negative && digits == 0 then float
  else if fits : FitsWord n then .integer n fits
  else float

def Number.layout : Decimal.Layout := ⟨-5, 15⟩

def Number.text : Number → String
  | .integer n _ => if n < 0 then "-" ++ toString n.natAbs else toString n.natAbs
  | .float negative magnitude => (if negative then "-" else "") ++ layout.text magnitude

end Json

inductive Json where
  | null
  | bool (b : Bool)
  | number (n : Json.Number)
  | string (s : String)
  | array (items : List Json)
  | object (entries : List (String × Json))
deriving Inhabited

def Json.kind : Json → String
  | .null => "null"
  | .bool _ => "a boolean"
  | .number _ => "a number"
  | .string _ => "a string"
  | .array _ => "an array"
  | .object _ => "an object"

end RecordConsole
