/-!
Search inside text: does one text occur in another, and where a text is cut at a mark.
-/

namespace PathTriage.Text

/-- Whether `needle` stands somewhere in a list of characters. -/
def occursInChars (needle : List Char) : List Char → Bool
  | [] => needle.isEmpty
  | c :: cs => needle.isPrefixOf (c :: cs) || occursInChars needle cs

/-- Whether `needle` occurs in `text`. The empty text occurs everywhere. -/
def occursIn (needle text : String) : Bool := occursInChars needle.toList text.toList

/-- What stands before the first `mark`, or everything when there is none. -/
def beforeFirst (mark : Char) (s : String) : String :=
  String.ofList (s.toList.takeWhile (· != mark))

/-- What stands after the last `mark`, or everything when there is none. -/
def afterLast (mark : Char) (s : String) : String :=
  String.ofList (s.toList.reverse.takeWhile (· != mark)).reverse

end PathTriage.Text
