/-!
Lines of a text file.

`newlines` reads the three customary line ends as one. `split` cuts a text at every line boundary:
line feed, carriage return (alone or before a line feed), vertical tab, form feed, the information
separators, and the next-line, line-separator and paragraph-separator characters.
-/

namespace PathTriage.Text.Lines

/-- Turns a carriage return, alone or before a line feed, into a line feed. -/
def newlines : List Char → List Char
  | '\r' :: '\n' :: rest => '\n' :: newlines rest
  | '\r' :: rest => '\n' :: newlines rest
  | c :: rest => c :: newlines rest
  | [] => []

/-- The code points that end a line. -/
def boundaries : List Nat := [0x0A, 0x0B, 0x0C, 0x0D, 0x1C, 0x1D, 0x1E, 0x85, 0x2028, 0x2029]

/-- Cuts characters into lines; `line` holds the current line, last character first. -/
def splitFrom (line : List Char) : List Char → List String
  | [] => if line.isEmpty then [] else [String.ofList line.reverse]
  | '\r' :: '\n' :: rest => String.ofList line.reverse :: splitFrom [] rest
  | c :: rest =>
    if boundaries.contains c.toNat then String.ofList line.reverse :: splitFrom [] rest
    else splitFrom (c :: line) rest

/-- The lines of a text, without their ends; a text that ends with a boundary has no empty last
    line. -/
def split (s : String) : List String := splitFrom [] s.toList

end PathTriage.Text.Lines
