import PathTriage.Payload.Checked
import PathTriage.Text.Numeral

/-!
Numbers that come as text in a payload.

A whole number is read as it stands, if it is spelled plainly: an optional minus and digits without
a zero in front. Any other spelling is cleaned first, of padding, a plus, zeros in front, a fraction
of zeros and single underscores. A decimal is spelled in ASCII; underscores are dropped only from a
text that cannot be read with them, and only if there is no padding.
-/

namespace PathTriage.Payload.Numeral

/-! ## Whole numbers -/

/-- Reads a plainly spelled whole number. A text that starts with more digits than are read, the
    sign included, is too large whatever follows. -/
def readPlain (cs : List Char) : Checked Int :=
  let (negative, digits) := match cs with
    | '-' :: rest => (true, rest)
    | cs => (false, cs)
  let front := match digits with
    | '0' :: _ => ['0']
    | _ => digits.takeWhile Char.isDigit
  let signed := front.length + if negative then 1 else 0
  if front.isEmpty then .fail .integerText
  else if Text.Numeral.maxDigits < signed then .fail .integerSize
  else if front.length < digits.length then .fail .integerText
  else
    let n : Int := Text.Numeral.digitsValue (front.map fun d => d.toNat - 48)
    .valid (if negative then -n else n)

/-- Goes on behind a zero in front: further zeros and underscores are skipped up to the digit or
    minus that starts the number. Before a point, and at the end, the last of them is kept. -/
def skipZeros (last : Char) : List Char → Option (List Char)
  | [] => some [last]
  | c :: rest =>
    if c == '0' || c == '_' then skipZeros c rest
    else if c.isDigit || c == '-' then some (c :: rest)
    else if c == '.' then some (last :: c :: rest)
    else none

/-- A text without the zeros in front. It has to start with a digit. -/
def dropZeros : List Char → Option (List Char)
  | '0' :: rest => skipZeros '0' rest
  | c :: rest => if c.isDigit then some (c :: rest) else none
  | [] => none

/-- Drops a decimal point that is followed by zeros only, at least one. -/
def dropZeroFraction (cs : List Char) : List Char :=
  match cs.dropWhile (· != '.') with
  | '.' :: zero :: rest =>
    if (zero :: rest).all (· == '0') then cs.takeWhile (· != '.') else cs
  | _ => cs

/-- Whether two underscores stand side by side. -/
def hasDoubleUnderscore : List Char → Bool
  | '_' :: '_' :: _ => true
  | _ :: rest => hasDoubleUnderscore rest
  | [] => false

/-- Drops underscores, if each of them stands alone between other characters. -/
def dropUnderscores? (cs : List Char) : Option (List Char) :=
  if cs.contains '_' && cs.head? != some '_' && cs.getLast? != some '_'
      && !hasDoubleUnderscore cs then
    some (cs.filter (· != '_'))
  else none

/-- A number without its sign in plain spelling. -/
def cleanUnsigned (cs : List Char) : Option (List Char) :=
  (dropZeros cs).map fun cs =>
    let cs := dropZeroFraction cs
    (dropUnderscores? cs).getD cs

/-- A number in plain spelling. -/
def clean (cs : List Char) : Option (List Char) :=
  match Text.trim cs with
  | '+' :: rest => cleanUnsigned rest
  | '-' :: rest => (cleanUnsigned rest).map ('-' :: ·)
  | cs => cleanUnsigned cs

/-- Reads a whole number. -/
def readInteger (s : String) : Checked Int :=
  match readPlain s.toList with
  | .invalid { problem := .integerText, .. } _ =>
    match clean s.toList with
    | some cs => readPlain cs
    | none => .fail .integerText
  | answer => answer

/-! ## Decimals -/

/-- Reads a decimal that is spelled in ASCII and without underscores. -/
def readAscii? (cs : List Char) : Option Float :=
  if cs.all fun c => c.toNat < 128 && c != '_' then Text.Numeral.readBare? cs else none

/-- Reads a decimal. -/
def readNumber? (s : String) : Option Float :=
  match readAscii? (Text.trim s.toList) with
  | some x => some x
  | none => (dropUnderscores? s.toList).bind readAscii?

end PathTriage.Payload.Numeral
