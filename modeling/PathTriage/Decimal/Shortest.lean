import PathTriage.Decimal.Fixed

/-!
The shortest decimal that reads back as a given machine number.

For one digit, two digits and so on, the two neighbours of the exact value on that decimal grid are
tried; the first grid with a neighbour that reads back wins, and of two the nearer. Seventeen digits
always suffice. `Layout` then decides where the point goes and when an exponent is written.
-/

namespace PathTriage.Decimal

/-- A positive decimal `sig * 10 ^ exp`. -/
structure Sci where
  sig : Nat
  exp : Int
deriving Repr, DecidableEq

namespace Sci

/-- The quotient of natural numbers that a decimal is. -/
def quotient (d : Sci) : Nat × Nat :=
  if 0 ≤ d.exp then (d.sig * pow10 d.exp.toNat, 1) else (d.sig, pow10 (-d.exp).toNat)

/-- The bits of the nonnegative machine number nearest to a decimal. -/
def bits (d : Sci) : Nat := Binary64.nearestBits d.quotient.1 d.quotient.2

/-- Moves trailing zeros of the significand into the exponent, at most `n` of them. -/
def trim : Nat → Sci → Sci
  | 0, d => d
  | n + 1, d => if d.sig ≠ 0 ∧ d.sig % 10 = 0 then trim n ⟨d.sig / 10, d.exp + 1⟩ else d

end Sci

/-- The exponent of the leading decimal digit of `num / den`. -/
def leadingExponent (num den : Nat) : Int :=
  let e : Int := ((digits num).length : Int) - (digits den).length
  let reaches : Bool := if 0 ≤ e then den * pow10 e.toNat ≤ num else den ≤ num * pow10 (-e).toNat
  if reaches then e else e - 1

/-- The neighbours of `num / den` with exponent `exp` that read back as `bits`, nearer one first. -/
def neighbours (num den bits : Nat) (exp : Int) : List Sci :=
  let (n, d) := if 0 ≤ exp then (num, den * pow10 exp.toNat) else (num * pow10 (-exp).toNat, den)
  let below : Sci := ⟨n / d, exp⟩
  let above : Sci := ⟨n / d + 1, exp⟩
  let belowFirst := roundDiv n d = n / d
  (if belowFirst then [below, above] else [above, below]).filter (·.bits = bits)

/-- The shortest decimal that reads back as the positive machine number `num / den` with `bits`. -/
def shortest (num den bits : Nat) : Sci :=
  let lead := leadingExponent num den
  let found := (List.range 17).findSome? fun (n : Nat) => (neighbours num den bits (lead - n)).head?
  (found.getD ⟨num, 0⟩).trim 400

/-- How a shortest decimal is laid out: the leading exponents that are written positionally, from
    `leastPositional` up to but not including `pastPositional`, and the least width of an
    exponent. -/
structure Layout where
  leastPositional : Int
  pastPositional : Int
  exponentWidth : Nat
deriving Repr, DecidableEq

/-- A decimal in a layout; a whole number written positionally keeps one zero after the point. -/
def Layout.sciText (layout : Layout) (d : Sci) : String :=
  let ds := digits d.sig
  let lead : Int := (ds.length : Int) - 1 + d.exp
  if layout.leastPositional ≤ lead ∧ lead < layout.pastPositional then
    if 0 ≤ d.exp then
      String.ofList (ds ++ List.replicate d.exp.toNat '0') ++ ".0"
    else
      unitsText d.sig (-d.exp).toNat
  else
    let tail := ds.drop 1
    let mant := String.ofList (ds.take 1) ++
      (if tail.isEmpty then "" else "." ++ String.ofList tail)
    let sign := if lead < 0 then "-" else "+"
    mant ++ "e" ++ sign ++ String.ofList (paddedDigits lead.natAbs layout.exponentWidth)

/-- The shortest text of a machine number in a layout. -/
def Layout.text (layout : Layout) (x : Float) : String :=
  match Binary64.ofFloat x with
  | .nan => "nan"
  | .infinite negative => if negative then "-inf" else "inf"
  | .finite negative mant exp =>
    let sign := if negative then "-" else ""
    if mant = 0 then sign ++ "0.0"
    else
      let (num, den) := Binary64.quotient mant exp
      sign ++ layout.sciText (shortest num den (Binary64.nearestBits num den))

end PathTriage.Decimal
