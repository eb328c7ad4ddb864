import PathTriage.Json.Token

/-!
Reading a JSON text.

The reader runs over the lexemes once with a stack of the arrays and objects that are still open.
Its first complaint is the answer: a fault with the place where it was found, as line, column and
character position, or a limit that the text exceeds.
-/

namespace PathTriage.Json

/-- An array or object that is still open, with what it holds so far, last one first. -/
inductive Open where
  | array (items : List Json)
  | object (fields : List (String × Json)) (key : String)

/-- What the reader expects next. `fresh` is true right behind an opening bracket or brace, where
    the closing one may follow. -/
inductive Expect where
  | value (fresh : Bool)
  | name (fresh : Bool) (fields : List (String × Json))
  | colon
  | separator
  | nothing (result : Json)

/-- The limits of what is read. -/
inductive Limit where
  /-- An integer has this many digits. -/
  | digits (count : Nat)
  /-- Arrays and objects are nested too deeply. -/
  | depth
deriving Repr, DecidableEq

/-- The message about an exceeded limit. -/
def Limit.message : Limit → String
  | .digits count =>
    s!"Exceeds the limit ({Text.Numeral.maxDigits} digits) for integer string conversion: "
      ++ s!"value has {count} digits; use sys.set_int_max_str_digits() to increase the limit"
  | .depth => "arrays and objects are nested too deeply"

/-- What the reader complains about: a fault at a position, or an exceeded limit. -/
inductive Complaint where
  | fault (fault : Fault) (position : Nat)
  | limit (limit : Limit)
deriving Repr, DecidableEq

/-- The reader between two lexemes. -/
structure Reader where
  expect : Expect
  stack : List Open

namespace Reader

/-- The reader before the first lexeme. -/
def start : Reader := ⟨.value false, []⟩

/-- Takes in a complete value. -/
def complete (value : Json) : List Open → Reader
  | [] => ⟨.nothing value, []⟩
  | .array items :: stack => ⟨.separator, .array (value :: items) :: stack⟩
  | .object fields key :: stack => ⟨.separator, .object ((key, value) :: fields) key :: stack⟩

/-- The object of the fields read so far, last one first. Keys are compared as they were read: two
    keys that differ in unpaired surrogate halves only (`Token.unitChar`) are one key here. -/
def closeObject (fields : List (String × Json)) : Json := .object (Fields.ofPairs fields.reverse)

/-- The fault of meeting something else than expected. -/
def Expect.fault : Expect → Fault
  | .value _ => .expectingValue
  | .name _ _ => .expectingName
  | .colon => .expectingColon
  | .separator => .expectingComma
  | .nothing _ => .extraData

/-- How many arrays and objects may be open at once. -/
def maxDepth : Nat := 987

/-- The reader inside one more array or object, if there may be one. -/
def deeper (stack : List Open) (next : Reader) : Except Complaint Reader :=
  if stack.length < maxDepth then .ok next else .error (.limit .depth)

/-- Takes in one lexeme. -/
def step (r : Reader) (l : Lexeme) : Except Complaint Reader :=
  match r.expect, l.token, r.stack with
  | .value _, .literal v, stack => .ok (complete v stack)
  | .value _, .text s, stack => .ok (complete (.string s) stack)
  | .value _, .openBracket, stack => deeper stack ⟨.value true, .array [] :: stack⟩
  | .value _, .openBrace, stack => deeper stack ⟨.name true [], stack⟩
  | .value _, .oversized digits, _ => .error (.limit (.digits digits))
  | .value true, .closeBracket, .array items :: stack => .ok (complete (.array items.reverse) stack)
  | .value _, .broken fault place, _ => .error (.fault fault place)
  | .name _ fields, .text s, stack => .ok ⟨.colon, .object fields s :: stack⟩
  | .name true fields, .closeBrace, stack => .ok (complete (closeObject fields) stack)
  | .name _ _, .broken fault place, _ => .error (.fault fault place)
  | .colon, .colon, stack => .ok ⟨.value false, stack⟩
  | .separator, .comma, .array items :: stack => .ok ⟨.value false, .array items :: stack⟩
  | .separator, .closeBracket, .array items :: stack => .ok (complete (.array items.reverse) stack)
  | .separator, .comma, .object fields _ :: stack => .ok ⟨.name false fields, stack⟩
  | .separator, .closeBrace, .object fields _ :: stack => .ok (complete (closeObject fields) stack)
  | expect, _, _ => .error (.fault (Expect.fault expect) l.position)

/-- Takes in all lexemes of a text of the given length. -/
def run (length : Nat) : Reader → List Lexeme → Except Complaint Json
  | ⟨.nothing result, _⟩, [] => .ok result
  | r, [] => .error (.fault (Expect.fault r.expect) length)
  | r, l :: rest =>
    match step r l with
    | .ok r => run length r rest
    | .error e => .error e

end Reader

/-- A fault and its place: 1-based line and column, 0-based character position. -/
structure ReadError where
  fault : Fault
  line : Nat
  column : Nat
  position : Nat
deriving Repr, DecidableEq

/-- The name of a fault. -/
def Fault.label : Fault → String
  | .expectingValue => "Expecting value"
  | .expectingName => "Expecting property name enclosed in double quotes"
  | .expectingColon => "Expecting ':' delimiter"
  | .expectingComma => "Expecting ',' delimiter"
  | .extraData => "Extra data"
  | .unterminatedString => "Unterminated string starting at"
  | .controlCharacter => "Invalid control character at"
  | .badEscape => "Invalid \\escape"
  | .badUnicodeEscape => "Invalid \\uXXXX escape"
  | .byteOrderMark => "Unexpected UTF-8 BOM (decode using utf-8-sig)"

/-- The message of a read error. -/
def ReadError.message (e : ReadError) : String :=
  s!"{e.fault.label}: line {e.line} column {e.column} (char {e.position})"

/-- A fault at a position of a text. -/
def ReadError.locate (cs : List Char) (fault : Fault) (position : Nat) : ReadError :=
  let before := cs.take position
  { fault, position
    line := before.count '\n' + 1
    column := (before.reverse.takeWhile (· != '\n')).length + 1 }

/-- Why a text gives no value. -/
inductive ReadFailure where
  | fault (e : ReadError)
  | limit (l : Limit)
deriving Repr, DecidableEq

/-- The failure that a complaint about a text stands for. -/
def ReadFailure.ofComplaint (cs : List Char) : Complaint → ReadFailure
  | .fault found position => .fault (ReadError.locate cs found position)
  | .limit l => .limit l

/-- Reads a JSON text. -/
def read (cs : List Char) : Except ReadFailure Json :=
  let answer :=
    if cs.head? = some (Char.ofNat 0xFEFF) then .error (.fault .byteOrderMark 0)
    else Reader.run cs.length Reader.start (lexemesFrom 0 cs)
  answer.mapError (ReadFailure.ofComplaint cs)

end PathTriage.Json
