/-!
Blank characters of all scripts, and stripping them from the ends of a text. Around a numeral the
four information separators do not count as blank.
-/

namespace PathTriage.Text

/-- The code points that count as blank: ASCII controls and space, the information separators, the
    next-line control, and the spaces and separators of all scripts. -/
def blanks : List Nat :=
  [0x09, 0x0A, 0x0B, 0x0C, 0x0D, 0x1C, 0x1D, 0x1E, 0x1F, 0x20, 0x85, 0xA0, 0x1680,
   0x2000, 0x2001, 0x2002, 0x2003, 0x2004, 0x2005, 0x2006, 0x2007, 0x2008, 0x2009, 0x200A,
   0x2028, 0x2029, 0x202F, 0x205F, 0x3000]

/-- Whether a character is blank. -/
def isBlank (c : Char) : Bool := blanks.contains c.toNat

/-- Drops blank characters from both ends. -/
def stripBlanks (cs : List Char) : List Char :=
  ((cs.dropWhile isBlank).reverse.dropWhile isBlank).reverse

/-- A text without the blank characters at its ends. -/
def strip (s : String) : String := String.ofList (stripBlanks s.toList)

/-- Whether a character may stand around a numeral: it is blank and no information separator. -/
def isPadding (c : Char) : Bool := isBlank c && !(0x1C ≤ c.toNat && c.toNat ≤ 0x1F)

/-- Drops padding from both ends. -/
def trim (cs : List Char) : List Char :=
  ((cs.dropWhile isPadding).reverse.dropWhile isPadding).reverse

end PathTriage.Text
