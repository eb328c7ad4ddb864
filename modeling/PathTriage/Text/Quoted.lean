import PathTriage.Decimal.Fixed
import PathTriage.Text.Visible

/-!
A text in quotes, as messages show it.

Single quotes are used unless the text has a single quote and no double quote. The quote itself and
the backslash are escaped by a backslash; characters without a visible form are written by their
code point.
-/

namespace PathTriage.Text.Quoted

/-- The lower-case hexadecimal digits of a number, filled up to a width. -/
def hex (n width : Nat) : List Char :=
  let ds := Nat.toDigits 16 n
  List.replicate (width - ds.length) '0' ++ ds

/-- A code point written as an escape of two, four or eight digits. -/
def escapeCode (n : Nat) : List Char :=
  if n < 0x100 then '\\' :: 'x' :: hex n 2
  else if n < 0x10000 then '\\' :: 'u' :: hex n 4
  else '\\' :: 'U' :: hex n 8

/-- A character as it stands between the given quotes. -/
def escape (quote c : Char) : List Char :=
  if c = quote ∨ c = '\\' then ['\\', c]
  else if c = '\n' then ['\\', 'n']
  else if c = '\r' then ['\\', 'r']
  else if c = '\t' then ['\\', 't']
  else if isVisible c then [c]
  else escapeCode c.toNat

/-- The quote that surrounds a text. -/
def quoteFor (cs : List Char) : Char :=
  if cs.contains '\'' && !cs.contains '"' then '"' else '\''

/-- A text in quotes. -/
def render (s : String) : String :=
  let cs := s.toList
  let quote := quoteFor cs
  String.ofList (quote :: cs.flatMap (escape quote) ++ [quote])

end PathTriage.Text.Quoted
