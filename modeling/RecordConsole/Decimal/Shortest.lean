import RecordConsole.Decimal.Binary64

/-!
The shortest decimal number that reads back as a given double, and its layout as text. Coarser grids
of decimal numbers are tried first, so no shorter number lies among those that round to the double.
-/
namespace RecordConsole.Decimal

structure Scaled where
  digits : Nat
  exponent : Int
deriving DecidableEq, Repr

/-- What rounds to a double, counted in quarters of the least positive double: the numbers between
`low` and `high`, and these two as well if `closed`. -/
structure RoundingInterval where
  low : Nat
  value : Nat
  high : Nat
  closed : Bool

/-- Below a power of two the doubles lie twice as close as above it. -/
def Binary64.interval (x : Binary64) : RoundingInterval :=
  let below := if x.mantissa = leadingBit ∧ 0 < x.power then 1 else 2
  { low := (4 * x.mantissa - below) <<< x.power
    value := (4 * x.mantissa) <<< x.power
    high := (4 * x.mantissa + 2) <<< x.power
    closed := x.mantissa % 2 == 0 }

namespace RoundingInterval

/-- The best multiple of `10 ^ exponent` in the interval: of the two neighbours of the value the
nearer one that lies inside, and of two equally near ones the even one. -/
def onGrid? (i : RoundingInterval) (exponent : Int) : Option Nat :=
  let up := Nat.pow 10 (-exponent).toNat
  let down := 4 * unitsPerOne * Nat.pow 10 exponent.toNat
  let inside (n : Nat) : Bool :=
    0 < n && (if i.closed then i.low * up ≤ n * down && n * down ≤ i.high * up
      else i.low * up < n * down && n * down < i.high * up)
  let lower := i.value * up / down
  match inside lower, inside (lower + 1) with
  | true, true => some (roundQuotient (i.value * up) down)
  | true, false => some lower
  | false, true => some (lower + 1)
  | false, false => none

def coarsest (i : RoundingInterval) : Nat → Int → Scaled
  | 0, exponent => ⟨(i.onGrid? exponent).getD 0, exponent⟩
  | steps + 1, exponent =>
    match i.onGrid? exponent with
    | some digits => ⟨digits, exponent⟩
    | none => coarsest i steps (exponent - 1)

end RoundingInterval

def Binary64.leadingExponent (x : Binary64) : Int :=
  (Nat.log2 x.units * 30103 / 100000 : Nat) - 322

/-- Twenty-four grids reach seventeen digits from any start that is at most three places too high,
and seventeen digits always suffice. -/
def Binary64.shortest (x : Binary64) : Scaled := x.interval.coarsest 24 x.leadingExponent

/-- How numbers are laid out: those with a first digit at one of the places from `10 ^ lowest` to
`10 ^ highest` are written positionally, the others with an exponent. -/
structure Layout where
  lowest : Int
  highest : Int

def zeros (count : Nat) : String := .ofList (List.replicate count '0')

def Scaled.positional (x : Scaled) : String :=
  let digits := (toString x.digits).toList
  if 0 ≤ x.exponent then .ofList digits ++ zeros x.exponent.toNat ++ ".0"
  else
    let whole := (digits.length + x.exponent).toNat
    if 0 < whole then .ofList (digits.take whole) ++ "." ++ .ofList (digits.drop whole)
    else "0." ++ zeros (-(digits.length + x.exponent)).toNat ++ .ofList digits

def Scaled.scientific (x : Scaled) (first : Int) : String :=
  let mantissa := match (toString x.digits).toList with
    | digit :: [] => String.ofList [digit]
    | digit :: rest => .ofList (digit :: '.' :: rest)
    | [] => ""
  mantissa ++ (if 0 ≤ first then "e+" else "e-") ++ toString first.natAbs

def Layout.text (layout : Layout) (x : Binary64) : String :=
  if x = Binary64.zero then "0.0"
  else
    let shortest := x.shortest
    let first : Int := shortest.exponent + (toString shortest.digits).length - 1
    if layout.lowest ≤ first ∧ first ≤ layout.highest then shortest.positional
    else shortest.scientific first

end RecordConsole.Decimal
