/-!
Magnitudes of finite double-precision numbers, and the arithmetic that reading a decimal number
needs, all in natural numbers. Every operation rounds its exact result to the nearest double, and a
half goes to the neighbour with the even mantissa.
-/
namespace RecordConsole.Decimal

def unitsPerOne : Nat := 1 <<< 1074

def leadingBit : Nat := 4503599627370496

def topPower : Nat := 2045

/-- Mantissas have at most 53 bits, and fewer only at the least power, so no magnitude has two
forms. -/
abbrev Canonical (mantissa power : Nat) : Prop :=
  mantissa < 2 * leadingBit ∧ (power = 0 ∨ leadingBit ≤ mantissa) ∧ power ≤ topPower

/-- The magnitude `mantissa * 2 ^ power`, counted in the least positive double. -/
structure Binary64 where
  mantissa : Nat
  power : Nat
  canonical : Canonical mantissa power
deriving DecidableEq

/-- The quotient rounded to a natural number, a half to the even neighbour. -/
def roundQuotient (num den : Nat) : Nat :=
  let quotient := num / den
  let twice := 2 * (num % den)
  if den < twice || (twice == den && quotient % 2 == 1) then quotient + 1 else quotient

namespace Binary64

def zero : Binary64 := ⟨0, 0, by decide⟩

def ofCanonical? (mantissa power : Nat) : Option Binary64 :=
  if h : Canonical mantissa power then some ⟨mantissa, power, h⟩ else none

/-- The double nearest to `num / den`, or nothing if it is too large for one. A mantissa that rounds
up to 54 bits is a power of two. -/
def ofRatio (num den : Nat) : Option Binary64 :=
  let units := num * unitsPerOne
  let power := Nat.log2 (units / den) - 52
  let mantissa := roundQuotient units (den <<< power)
  if mantissa = 2 * leadingBit then ofCanonical? leadingBit (power + 1)
  else ofCanonical? mantissa power

def units (x : Binary64) : Nat := x.mantissa <<< x.power

def mul (x y : Binary64) : Option Binary64 :=
  ofRatio (x.units * y.units) (unitsPerOne * unitsPerOne)

def div (x y : Binary64) : Option Binary64 := ofRatio x.units y.units

def powerOfTen (exponent : Nat) : Option Binary64 := ofRatio (Nat.pow 10 exponent) 1

def topTen : Nat := 308

/-- Divides by `10 ^ topTen` so many times, unless zero is reached, and then by `10 ^ last`. -/
def shiftDownBy (last : Nat) : Nat → Binary64 → Option Binary64
  | 0, x => (powerOfTen last).bind x.div
  | blocks + 1, x =>
    if x = zero then some x
    else ((powerOfTen topTen).bind x.div).bind (shiftDownBy last blocks)

def shiftDown (x : Binary64) (places : Nat) : Option Binary64 :=
  let blocks := (places - 1) / topTen
  shiftDownBy (places - blocks * topTen) blocks x

def shiftUp (x : Binary64) (places : Nat) : Option Binary64 :=
  if places ≤ topTen then (powerOfTen places).bind x.mul
  else if x = zero then some x
  else none

/-- Reads `significand * 10 ^ exponent` in rounded steps: the significand is rounded first, and then
each product or quotient. The result may differ from the nearest double in its last place. -/
def ofDecimal (significand : Nat) (exponent : Int) : Option Binary64 :=
  (ofRatio significand 1).bind fun x =>
    if 0 ≤ exponent then x.shiftUp exponent.toNat else x.shiftDown (-exponent).toNat

end Binary64
end RecordConsole.Decimal
