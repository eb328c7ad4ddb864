import PathTriage.Decimal.Binary64

/-!
Decimal text with a fixed number of places, and rounding to a number of places.

The text of a machine number is rounded correctly from its exact binary value, ties to even. What
may differ from one output to the next is gathered in `Fixed`.
-/

namespace PathTriage.Decimal

/-- The decimal digits of a natural number, most significant first. -/
def digits (n : Nat) : List Char := Nat.toDigits 10 n

/-- The digits of `n`, filled up with leading zeros to at least `width` characters. -/
def paddedDigits (n width : Nat) : List Char :=
  let ds := digits n
  List.replicate (width - ds.length) '0' ++ ds

/-- A number of `10 ^ -places` units as text with a decimal point. -/
def unitsText (units places : Nat) : String :=
  let ds := paddedDigits units (places + 1)
  let whole := ds.take (ds.length - places)
  let part := ds.drop (ds.length - places)
  if places = 0 then String.ofList ds else String.ofList (whole ++ '.' :: part)

/-- A layout with a fixed number of places; `signedZero` keeps the minus sign of a number that
    rounds to zero. -/
structure Fixed where
  places : Nat
  signedZero : Bool := true
deriving Repr, DecidableEq

/-- The text of a machine number in a fixed layout. -/
def Fixed.text (layout : Fixed) (x : Float) : String :=
  match Binary64.ofFloat x with
  | .nan => "nan"
  | .infinite negative => if negative then "-inf" else "inf"
  | .finite negative mant exp =>
    let (num, den) := Binary64.quotient mant exp
    let units := roundDiv (num * pow10 layout.places) den
    let minus := negative && (layout.signedZero || units != 0)
    (if minus then "-" else "") ++ unitsText units layout.places

/-- The machine number nearest to `x` rounded to `places` decimal places. -/
def roundTo (places : Nat) (x : Float) : Float :=
  match Binary64.ofFloat x with
  | .finite negative mant exp =>
    let (num, den) := Binary64.quotient mant exp
    Binary64.nearest negative (roundDiv (num * pow10 places) den) (pow10 places)
  | _ => x

/-- A share as a whole percentage: scaled by a hundred, then rounded to no places. -/
def percentText (x : Float) : String :=
  ({ places := 0 } : Fixed).text (x * 100) ++ "%"

end PathTriage.Decimal
