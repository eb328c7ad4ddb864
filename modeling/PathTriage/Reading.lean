import PathTriage.Json.Value
import PathTriage.Text.Numeral

/-!
How a text from outside, the value of a variable or of an option, is read as a value.
-/

namespace PathTriage

/-- How a text is read. -/
inductive Reading where
  | int
  | float
  | text
deriving Repr, DecidableEq

namespace Reading

/-- The name of what is read. -/
def name : Reading → String
  | .int => "int"
  | .float => "float"
  | .text => "str"

/-- The value that a text stands for. -/
def value? : Reading → String → Option Json
  | .int, s => (Text.Numeral.readInt? s).map .ofInt
  | .float, s => (Text.Numeral.readFloat? s).map .ofFloat
  | .text, s => some (.string s)

end Reading
end PathTriage
