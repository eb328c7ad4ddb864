import PathTriage.Text.Casing.Context
import PathTriage.Text.Casing.Mapping

/-!
Lower-casing of text. Every code point is replaced on its own, with two exceptions: the capital
dotted i becomes two code points, and the capital sigma becomes the final form at the end of a word.
-/

namespace PathTriage.Text

namespace Casing

/-- Whether the nearest character that is not skipped exists and has case. -/
def meetsLetter (cs : List Char) : Bool :=
  match cs.dropWhile (within ignorable) with
  | [] => false
  | c :: _ => within cased c

/-- The lower-case form of a character, given what stands before it, nearest first, and after it. -/
def lowerChar (before : List Char) (c : Char) (after : List Char) : List Char :=
  if c.toNat < 128 then [c.toLower]
  else if c = 'Σ' then [if meetsLetter before && !meetsLetter after then 'ς' else 'σ']
  else if c = 'İ' then ['i', Char.ofNat 0x307]
  else [Char.ofNat (partner c.toNat)]

/-- Lower-cases characters one after the other, keeping those already passed for context. -/
def lowerFrom (before : List Char) : List Char → List Char
  | [] => []
  | c :: after => lowerChar before c after ++ lowerFrom (c :: before) after

end Casing

/-- The lower-case form of a text. -/
def lower (s : String) : String := String.ofList (Casing.lowerFrom [] s.toList)

end PathTriage.Text
