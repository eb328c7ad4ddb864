import PathTriage.Json.Value
import PathTriage.Text.Numeral

/-!
The lexemes of a JSON text, each with the position of its first character.

Scanning never fails as a whole. A string that cannot be read becomes a `broken` lexeme that carries
its fault and the fault's position, an integer with too many digits becomes `oversized`, and a
character that starts nothing becomes `junk`, so that the reader reports the first problem it meets
in reading order and no later one.
-/

namespace PathTriage.Json

/-- What can be wrong with a JSON text. -/
inductive Fault where
  | expectingValue
  | expectingName
  | expectingColon
  | expectingComma
  | extraData
  | unterminatedString
  | controlCharacter
  | badEscape
  | badUnicodeEscape
  | byteOrderMark
deriving Repr, DecidableEq

/-- One lexeme of a JSON text. -/
inductive Token where
  | openBrace
  | closeBrace
  | openBracket
  | closeBracket
  | colon
  | comma
  | literal (value : Json)
  | text (s : String)
  | oversized (digits : Nat)
  | broken (fault : Fault) (position : Nat)
  | junk

/-- A token and where it starts. -/
structure Lexeme where
  position : Nat
  token : Token

namespace Token

/-- The blank characters between lexemes. -/
def isSpace (c : Char) : Bool := c = ' ' || c = '\t' || c = '\n' || c = '\r'

/-- The value of a hexadecimal digit. -/
def hexValue? (c : Char) : Option Nat :=
  if '0' ≤ c ∧ c ≤ '9' then some (c.toNat - 48)
  else if 'a' ≤ c ∧ c ≤ 'f' then some (c.toNat - 87)
  else if 'A' ≤ c ∧ c ≤ 'F' then some (c.toNat - 55)
  else none

/-- The value of four hexadecimal digits. -/
def hex4? (a b c d : Char) : Option Nat := do
  let a ← hexValue? a
  let b ← hexValue? b
  let c ← hexValue? c
  let d ← hexValue? d
  pure (((a * 16 + b) * 16 + c) * 16 + d)

/-- Whether a code unit is the first half of a surrogate pair. -/
def isHighHalf (n : Nat) : Bool := 0xD800 ≤ n && n ≤ 0xDBFF

/-- Whether a code unit is the second half of a surrogate pair. -/
def isLowHalf (n : Nat) : Bool := 0xDC00 ≤ n && n ≤ 0xDFFF

/-- The character of a code unit. A text has no place for an unpaired half, so every one of them
    gives the replacement character, and texts that differ in their unpaired halves only are read as
    the same text. -/
def unitChar (n : Nat) : Char :=
  if 0xD800 ≤ n && n ≤ 0xDFFF then Char.ofNat 0xFFFD else Char.ofNat n

/-- The character of a surrogate pair. -/
def pairChar (high low : Nat) : Char :=
  Char.ofNat (0x10000 + (high - 0xD800) * 0x400 + (low - 0xDC00))

/-- The character that a one-letter escape stands for. -/
def simpleEscape? : Char → Option Char
  | '"' => some '"'
  | '\\' => some '\\'
  | '/' => some '/'
  | 'b' => some '\x08'
  | 'f' => some '\x0c'
  | 'n' => some '\n'
  | 'r' => some '\r'
  | 't' => some '\t'
  | _ => none

/-- Reads the characters of a string after its opening quote at `start`. Position `at_` is that of
    the next character. Gives the characters and the position after the closing quote, or a fault. A
    code-point escape needs one more character behind its four digits. -/
def scanString (start at_ : Nat) : List Char → Except (Fault × Nat) (List Char × Nat)
  | [] => .error (.unterminatedString, start)
  | '"' :: _ => .ok ([], at_ + 1)
  | '\\' :: 'u' :: a :: b :: c :: d :: '\\' :: 'u' :: e :: f :: g :: h :: next :: rest =>
    match hex4? a b c d with
    | none => .error (.badUnicodeEscape, at_ + 1)
    | some high =>
      if isHighHalf high then
        match hex4? e f g h with
        | none => .error (.badUnicodeEscape, at_ + 7)
        | some low =>
          if isLowHalf low then
            (scanString start (at_ + 12) (next :: rest)).map fun r =>
              (pairChar high low :: r.1, r.2)
          else
            (scanString start (at_ + 6) ('\\' :: 'u' :: e :: f :: g :: h :: next :: rest)).map
              fun r => (unitChar high :: r.1, r.2)
      else
        (scanString start (at_ + 6) ('\\' :: 'u' :: e :: f :: g :: h :: next :: rest)).map
          fun r => (unitChar high :: r.1, r.2)
  | '\\' :: 'u' :: a :: b :: c :: d :: next :: rest =>
    match hex4? a b c d with
    | none => .error (.badUnicodeEscape, at_ + 1)
    | some unit =>
      (scanString start (at_ + 6) (next :: rest)).map fun r => (unitChar unit :: r.1, r.2)
  | '\\' :: 'u' :: _ => .error (.badUnicodeEscape, at_ + 1)
  | '\\' :: [] => .error (.unterminatedString, start)
  | '\\' :: c :: rest =>
    match simpleEscape? c with
    | none => .error (.badEscape, at_)
    | some c => (scanString start (at_ + 2) rest).map fun r => (c :: r.1, r.2)
  | c :: rest =>
    if c.toNat < 32 then .error (.controlCharacter, at_)
    else (scanString start (at_ + 1) rest).map fun r => (c :: r.1, r.2)

/-- The longest front of ASCII digits, and the rest. -/
def takeAsciiDigits (cs : List Char) : List Char × List Char :=
  (cs.takeWhile Char.isDigit, cs.dropWhile Char.isDigit)

/-- The number that ASCII digits spell. -/
def asciiValue (ds : List Char) : Nat := ds.foldl (fun n d => 10 * n + (d.toNat - 48)) 0

/-- The fraction digits behind a point, when there are any. -/
def fraction (cs : List Char) : List Char :=
  match cs with
  | '.' :: rest => (takeAsciiDigits rest).1
  | _ => []

/-- The exponent behind a mark, as its value and the number of characters it takes. -/
def exponent? (cs : List Char) : Option (Int × Nat) :=
  match cs with
  | c :: rest =>
    if c = 'e' ∨ c = 'E' then
      let signed := match rest with
        | '-' :: ds => (true, 1, ds)
        | '+' :: ds => (false, 1, ds)
        | ds => (false, 0, ds)
      let ds := (takeAsciiDigits signed.2.2).1
      if ds.isEmpty then none
      else
        let n : Int := asciiValue ds
        some (if signed.1 then -n else n, 1 + signed.2.1 + ds.length)
    else none
  | [] => none

/-- Reads an unsigned number: a zero or digits that start with another one, then a fraction and an
    exponent where they are complete. Gives the number and its length. -/
def scanUnsigned? (negative : Bool) (cs : List Char) : Option (Number × Nat) :=
  let whole := match cs with
    | '0' :: _ => ['0']
    | _ => (takeAsciiDigits cs).1
  if whole.isEmpty then none
  else
    let rest := cs.drop whole.length
    let part := fraction rest
    let partLength := if part.isEmpty then 0 else part.length + 1
    let exponent := exponent? (rest.drop partLength)
    if part.isEmpty && exponent.isNone then
      let n : Int := asciiValue whole
      some (.int (if negative then -n else n), whole.length)
    else
      let (e, eLength) := exponent.getD (0, 0)
      let digits := asciiValue (whole ++ part)
      some (.float (Text.Numeral.scientific negative digits (e - part.length)),
        whole.length + partLength + eLength)

/-- Reads a number with an optional minus sign, as its value and its length. -/
def scanNumber? : List Char → Option (Number × Nat)
  | '-' :: rest => (scanUnsigned? true rest).map fun r => (r.1, r.2 + 1)
  | cs => scanUnsigned? false cs

/-- The token of a number that is spelled with the given characters. -/
def ofNumber (spelling : List Char) : Number → Token
  | .int n =>
    let digits := (spelling.filter Char.isDigit).length
    if Text.Numeral.maxDigits < digits then .oversized digits else .literal (.ofInt n)
  | .float x => .literal (.ofFloat x)

/-- The words that are values. -/
def words : List (String × Json) :=
  [("null", .null), ("true", .bool true), ("false", .bool false),
   ("NaN", .number (.float (0 / 0))), ("Infinity", .number (.float (Binary64.infinity false))),
   ("-Infinity", .number (.float (Binary64.infinity true)))]

/-- The token at the front of a text that does not start with a blank, and its length. -/
def scan (position : Nat) (cs : List Char) : Token × Nat :=
  match cs with
  | '{' :: _ => (.openBrace, 1)
  | '}' :: _ => (.closeBrace, 1)
  | '[' :: _ => (.openBracket, 1)
  | ']' :: _ => (.closeBracket, 1)
  | ':' :: _ => (.colon, 1)
  | ',' :: _ => (.comma, 1)
  | '"' :: rest =>
    match scanString position (position + 1) rest with
    | .ok (s, stop) => (.text (String.ofList s), stop - position)
    | .error (fault, place) => (.broken fault place, 1)
  | _ =>
    match words.find? fun w => w.1.toList.isPrefixOf cs with
    | some (word, value) => (.literal value, word.length)
    | none =>
      match scanNumber? cs with
      | some (n, length) => (ofNumber (cs.take length) n, length)
      | none => (.junk, 1)

end Token

/-- The lexemes of the characters from `position` on. -/
def lexemesFrom (position : Nat) : List Char → List Lexeme
  | [] => []
  | c :: cs =>
    if Token.isSpace c then lexemesFrom (position + 1) cs
    else
      let (token, length) := Token.scan position (c :: cs)
      ⟨position, token⟩ :: lexemesFrom (position + 1 + (length - 1)) (cs.drop (length - 1))
termination_by cs => cs.length
decreasing_by
  · simp
  · simp only [List.length_drop, List.length_cons]
    omega

end PathTriage.Json
