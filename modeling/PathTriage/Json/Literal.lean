import PathTriage.Json.Value
import PathTriage.Text.Quoted

/-!
Values as messages show them: texts in quotes, the three constants as capitalised words, and
the elements of arrays and objects in brackets, divided by a comma and a space.
-/

namespace PathTriage.Json

/-- Parts in one line. -/
def listed (parts : List String) : String := ", ".intercalate parts

mutual

/-- A value as a message shows it. -/
def literal : Json → String
  | .null => "None"
  | .bool b => if b then "True" else "False"
  | .number n => n.text
  | .string s => Text.Quoted.render s
  | .array items => "[" ++ listed (literals items) ++ "]"
  | .object fields => "\x7b" ++ listed (entryLiterals fields) ++ "\x7d"

/-- The elements of an array as a message shows them. -/
def literals : List Json → List String
  | [] => []
  | v :: rest => literal v :: literals rest

/-- The fields of an object as a message shows them. -/
def entryLiterals : List (String × Json) → List String
  | [] => []
  | (key, v) :: rest => (Text.Quoted.render key ++ ": " ++ literal v) :: entryLiterals rest

end

/-- A value as it stands in running text: a text stands without quotes. -/
def plain : Json → String
  | .string s => s
  | v => v.literal

end PathTriage.Json
