import PathTriage.Json.Value
import PathTriage.Text.Quoted

/-!
Writing JSON in ASCII, on one line or indented.

Characters outside the printable ASCII range are written as escapes of UTF-16 code units. The three
numbers that are not finite are written as words.
-/

namespace PathTriage.Json

/-- One UTF-16 code unit as an escape. -/
def unitEscape (n : Nat) : List Char := '\\' :: 'u' :: Text.Quoted.hex n 4

/-- A character inside a JSON string. -/
def escapeChar (c : Char) : List Char :=
  match c with
  | '"' => ['\\', '"']
  | '\\' => ['\\', '\\']
  | '\n' => ['\\', 'n']
  | '\r' => ['\\', 'r']
  | '\t' => ['\\', 't']
  | '\x08' => ['\\', 'b']
  | '\x0c' => ['\\', 'f']
  | c =>
    let n := c.toNat
    if 32 ≤ n ∧ n ≤ 126 then [c]
    else if n < 0x10000 then unitEscape n
    else unitEscape (0xD800 + (n - 0x10000) / 0x400) ++ unitEscape (0xDC00 + (n - 0x10000) % 0x400)

/-- A JSON string with its quotes. -/
def quote (s : String) : String := "\"" ++ String.ofList (s.toList.flatMap escapeChar) ++ "\""

/-- A number as JSON text. -/
def numberText : Number → String
  | .int n => toString n
  | .float x =>
    match Binary64.ofFloat x with
    | .nan => "NaN"
    | .infinite negative => if negative then "-Infinity" else "Infinity"
    | .finite .. => (Number.float x).text

/-- Where line breaks go: none, or one per item with two blanks for each level of nesting. -/
inductive Layout where
  | oneLine
  | indented (level : Nat)

/-- The layout one level further in. -/
def Layout.inner : Layout → Layout
  | .oneLine => .oneLine
  | .indented level => .indented (level + 1)

/-- The line break in front of an item at this level. -/
def Layout.lineBreak : Layout → String
  | .oneLine => ""
  | .indented level => "\n" ++ String.ofList (List.replicate (2 * level) ' ')

/-- What stands between two items. -/
def Layout.separator : Layout → String
  | .oneLine => ", "
  | layout => "," ++ layout.lineBreak

/-- Items between brackets; nothing but the brackets when there are none. -/
def bracketed (layout : Layout) (left right : String) (items : List String) : String :=
  if items.isEmpty then left ++ right
  else left ++ layout.inner.lineBreak ++ layout.inner.separator.intercalate items
    ++ layout.lineBreak ++ right

mutual

/-- A value as JSON text. -/
def render (layout : Layout) : Json → String
  | .null => "null"
  | .bool b => if b then "true" else "false"
  | .number n => numberText n
  | .string s => quote s
  | .array items => bracketed layout "[" "]" (renderItems layout.inner items)
  | .object fields => bracketed layout "\x7b" "\x7d" (renderFields layout.inner fields)

/-- The texts of the items of an array. -/
def renderItems (layout : Layout) : List Json → List String
  | [] => []
  | item :: rest => render layout item :: renderItems layout rest

/-- The texts of the fields of an object. -/
def renderFields (layout : Layout) : List (String × Json) → List String
  | [] => []
  | (key, value) :: rest => (quote key ++ ": " ++ render layout value) :: renderFields layout rest

end

/-- A value on one line. -/
def line (v : Json) : String := render .oneLine v

/-- A value over several lines, two blanks per level. -/
def pretty (v : Json) : String := render (.indented 0) v

end PathTriage.Json
