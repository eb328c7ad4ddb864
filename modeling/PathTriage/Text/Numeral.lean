import PathTriage.Number
import PathTriage.Text.Blank
import PathTriage.Text.Digit

/-!
Reading numbers from text.

Padding around a numeral is dropped, a sign may stand in front, digits may come from any script, and
single underscores may stand between digits. `readInt?` reads whole numbers of a limited number of
digits and `readFloat?` decimals with a point and an exponent, and the words for infinity and
not-a-number.
-/

namespace PathTriage.Text.Numeral

/-- Takes an optional sign off the front; true stands for a minus. -/
def takeSign : List Char → Bool × List Char
  | '-' :: rest => (true, rest)
  | '+' :: rest => (false, rest)
  | cs => (false, cs)

/-- Digit values separated by at most one underscore each. The flag tells whether a digit has just
    been read, so that an underscore may follow. Stops at the first character that does not fit and
    returns it with the rest; an underscore that no digit follows is left in the rest. -/
def takeDigits (afterDigit : Bool) : List Char → List Nat × List Char
  | [] => ([], [])
  | c :: rest =>
    match decimalValue? c with
    | some d =>
      let (ds, remaining) := takeDigits true rest
      (d :: ds, remaining)
    | none =>
      if c = '_' ∧ afterDigit = true then
        match takeDigits false rest with
        | ([], _) => ([], c :: rest)
        | taken => taken
      else ([], c :: rest)

/-- The number that a list of digits spells. -/
def digitsValue (ds : List Nat) : Nat := ds.foldl (fun n d => 10 * n + d) 0

/-- The largest number of digits of a whole number that is read. -/
def maxDigits : Nat := 4300

/-- Reads a whole number. Zeros in front count as digits. -/
def readInt? (s : String) : Option Int :=
  let (negative, cs) := takeSign (trim s.toList)
  match takeDigits false cs with
  | (d :: ds, []) =>
    if maxDigits ≤ ds.length then none
    else
      let n : Int := digitsValue (d :: ds)
      some (if negative then -n else n)
  | _ => none

/-- The machine number nearest to `± sig * 10 ^ exp`, by exact rounding where the result is neither
    certainly zero nor certainly infinite. -/
def scientific (negative : Bool) (sig : Nat) (exp : Int) : Float :=
  let lead : Int := exp + (Decimal.digits sig).length
  if sig = 0 ∨ lead < -400 then Binary64.nearest negative 0 1
  else if 400 < lead then Binary64.infinity negative
  else
    let (num, den) := (Decimal.Sci.mk sig exp).quotient
    Binary64.nearest negative num den

/-- Reads an exponent: nothing, or a mark, an optional sign and at least one digit. -/
def takeExponent? : List Char → Option Int
  | [] => some 0
  | c :: cs =>
    if c = 'e' ∨ c = 'E' then
      let (negative, rest) := takeSign cs
      match takeDigits false rest with
      | (d :: ds, []) =>
        let n : Int := digitsValue (d :: ds)
        some (if negative then -n else n)
      | _ => none
    else none

/-- Reads an unsigned decimal: digits on at least one side of an optional point, then an
    exponent. -/
def readDecimal? (negative : Bool) (cs : List Char) : Option Float :=
  let (whole, rest) := takeDigits false cs
  let (part, rest) := match rest with
    | '.' :: rest => takeDigits false rest
    | rest => ([], rest)
  if whole.isEmpty ∧ part.isEmpty then none
  else (takeExponent? rest).map fun exp =>
    scientific negative (digitsValue (whole ++ part)) (exp - part.length)

/-- Reads a decimal, an infinity or a not-a-number without padding. -/
def readBare? (cs : List Char) : Option Float :=
  let (negative, cs) := takeSign cs
  let word := String.ofList (cs.map Char.toLower)
  if word = "inf" ∨ word = "infinity" then
    some (Binary64.infinity negative)
  else if word = "nan" then some (0 / 0)
  else readDecimal? negative cs

/-- Reads a decimal, an infinity or a not-a-number. -/
def readFloat? (s : String) : Option Float := readBare? (trim s.toList)

end PathTriage.Text.Numeral
