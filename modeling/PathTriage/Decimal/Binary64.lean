import PathTriage.Decimal.Rounding

/-!
The 64-bit binary floating-point format, read exactly.

`Binary64.ofFloat` takes a machine number apart into sign, mantissa and binary exponent, and
`Binary64.nearest` goes the other way: it gives the machine number nearest to a quotient of two
natural numbers, ties to the even mantissa. All rounding in this library goes through these two.
-/

namespace PathTriage

/-- What a 64-bit floating-point number stands for: `± mant * 2 ^ exp`, an infinity, or no
    number. -/
inductive Binary64 where
  | finite (negative : Bool) (mant : Nat) (exp : Int)
  | infinite (negative : Bool)
  | nan
deriving Repr, DecidableEq

namespace Binary64

/-- The fields of a machine number, as an exact value. -/
def ofFloat (x : Float) : Binary64 :=
  let bits := x.toBits.toNat
  let negative := decide (pow2 63 ≤ bits)
  let field : Nat := bits / pow2 52 % 2048
  let fraction := bits % pow2 52
  if field = 2047 then
    if fraction = 0 then .infinite negative else .nan
  else if field = 0 then .finite negative fraction (-1074)
  else .finite negative (pow2 52 + fraction) ((field : Int) - 1075)

/-- The quotient of natural numbers that `mant * 2 ^ exp` is. -/
def quotient (mant : Nat) (exp : Int) : Nat × Nat :=
  if 0 ≤ exp then (mant * pow2 exp.toNat, 1) else (mant, pow2 (-exp).toNat)

/-- The binary exponent at which `num / den` has a 53-bit mantissa, or the least one there is. -/
def scale (num den : Nat) : Int :=
  let e : Int := (num.log2 : Int) - den.log2 - 52
  let short : Bool :=
    if 0 ≤ e then num < pow2 52 * (den * pow2 e.toNat)
    else num * pow2 (-e).toNat < pow2 52 * den
  max (if short then e - 1 else e) (-1074)

/-- The bits of the nonnegative machine number nearest to `num / den`, where `den` is positive. -/
def nearestBits (num den : Nat) : Nat :=
  if num = 0 then 0
  else
    let e := scale num den
    let mant :=
      if 0 ≤ e then Decimal.roundDiv num (den * pow2 e.toNat)
      else Decimal.roundDiv (num * pow2 (-e).toNat) den
    let bits := if mant < pow2 52 then mant else (e + 1075).toNat * pow2 52 + (mant - pow2 52)
    min bits (2047 * pow2 52)

/-- The machine number nearest to `± num / den`; beyond the largest one it is an infinity. -/
def nearest (negative : Bool) (num den : Nat) : Float :=
  Float.ofBits (UInt64.ofNat (nearestBits num den + if negative then pow2 63 else 0))

/-- The infinity of a sign. -/
def infinity (negative : Bool) : Float :=
  Float.ofBits (UInt64.ofNat (2047 * pow2 52 + if negative then pow2 63 else 0))

/-- The machine number nearest to the quotient of an integer and a positive natural number. -/
def ofRatio (num : Int) (den : Nat) : Float :=
  nearest (decide (num < 0)) num.natAbs den

/-- The machine number nearest to an integer. -/
def ofInt (n : Int) : Float := ofRatio n 1

end Binary64
end PathTriage
