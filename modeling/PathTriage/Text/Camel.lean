import PathTriage.Text.Casing

/-!
Words inside a camel-case name. A name is cut in front of every ASCII capital letter; the pieces of
at least three characters, lower-cased, are its words.
-/

namespace PathTriage.Text.Camel

/-- Whether a character is an ASCII capital letter. -/
def isCapital (c : Char) : Bool := 'A' ≤ c && c ≤ 'Z'

/-- The pieces of a name, cut in front of every capital letter. The first piece is empty when the
    name starts with one. -/
def pieces : List Char → List (List Char)
  | [] => [[]]
  | c :: cs =>
    match pieces cs with
    | [] => [[c]]
    | piece :: rest => if isCapital c then [] :: (c :: piece) :: rest else (c :: piece) :: rest

/-- The least length of a piece that counts as a word. -/
def leastWord : Nat := 3

/-- The words of a name in order. -/
def split (name : String) : List String :=
  ((pieces name.toList).filter fun piece => leastWord ≤ piece.length).map fun piece =>
    lower (String.ofList piece)

end PathTriage.Text.Camel
