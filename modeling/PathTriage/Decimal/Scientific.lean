import PathTriage.Decimal.Shortest

/-!
Decimal text with an exponent and a fixed number of places, and the general layout that chooses
between an exponent and positional notation by size. Both are rounded correctly from the exact
binary value, ties to even.
-/

namespace PathTriage.Decimal

/-- The positive quotient `num / den` rounded to `places + 1` significant digits, with the exponent
    of its leading digit. -/
def significant (num den places : Nat) : Nat × Int :=
  let lead := leadingExponent num den
  let shift : Int := places - lead
  let units :=
    if 0 ≤ shift then roundDiv (num * pow10 shift.toNat) den
    else roundDiv num (den * pow10 (-shift).toNat)
  if units = pow10 (places + 1) then (pow10 places, lead + 1) else (units, lead)

/-- The significant digits of a magnitude; zero has exponent zero. -/
def significantOf (mant : Nat) (exp : Int) (places : Nat) : Nat × Int :=
  if mant = 0 then (0, 0)
  else
    let (num, den) := Binary64.quotient mant exp
    significant num den places

/-- An exponent with its sign and at least two digits. -/
def exponentText (lead : Int) : String :=
  "e" ++ (if lead < 0 then "-" else "+") ++ String.ofList (paddedDigits lead.natAbs 2)

/-- Removes the zeros at the end of a text with a decimal point, and the point if nothing
    follows. -/
def trimZeros (text : String) : String :=
  let cs := text.toList
  if cs.contains '.' then
    let kept := cs.reverse.dropWhile (· == '0')
    String.ofList (kept.dropWhile (· == '.')).reverse
  else text

/-- A point after a text that has none. -/
def withPoint (text : String) : String := if text.toList.contains '.' then text else text ++ "."

/-- How a magnitude is written: a number of places, and whether a point is kept that nothing
    follows. -/
structure Magnitude where
  places : Nat
  keepPoint : Bool := false
deriving Repr, DecidableEq

namespace Magnitude

/-- The point of a text, if it is to be kept. -/
def point (layout : Magnitude) (text : String) : String :=
  if layout.keepPoint then withPoint text else text

/-- Positional text of the magnitude `mant * 2 ^ exp`. -/
def positional (layout : Magnitude) (mant : Nat) (exp : Int) : String :=
  let (num, den) := Binary64.quotient mant exp
  layout.point (unitsText (roundDiv (num * pow10 layout.places) den) layout.places)

/-- Text with an exponent of the magnitude `mant * 2 ^ exp`. -/
def exponential (layout : Magnitude) (mant : Nat) (exp : Int) : String :=
  let (units, lead) := significantOf mant exp layout.places
  layout.point (unitsText units layout.places) ++ exponentText lead

/-- Text of the magnitude `mant * 2 ^ exp` with as many significant digits as there are places, at
    least one: positional if the leading exponent is from -4 up to the number of digits, with an
    exponent otherwise. Zeros at the end are removed unless the point is kept. -/
def general (layout : Magnitude) (mant : Nat) (exp : Int) : String :=
  let count := max 1 layout.places
  let (units, lead) := significantOf mant exp (count - 1)
  let finish := fun text => if layout.keepPoint then withPoint text else trimZeros text
  if -4 ≤ lead ∧ lead < count then
    finish (positional { places := (count - 1 - lead : Int).toNat } mant exp)
  else finish (unitsText units (count - 1)) ++ exponentText lead

end Magnitude
end PathTriage.Decimal
