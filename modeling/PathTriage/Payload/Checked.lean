import PathTriage.Json.Value
import PathTriage.Model.Named

/-!
Checked payloads: a value, or at least one problem. Problems of different parts add up, in the
order of the parts.
-/

namespace PathTriage.Payload

/-- What can be wrong with a part of a payload. -/
inductive Problem where
  | missing
  | notText
  | emptyText
  | notInteger
  | integerText
  | integerSize
  | fractional
  | notFinite
  | notNumber
  | numberText
  | below (bound : Nat)
  | exceeds (bound : Nat)
  | notBoolean
  | booleanText
  | notMember (names : List String)
  | notList
  | notObject (model : String)
deriving Repr, DecidableEq

/-- The code of a problem. -/
def Problem.code : Problem → String
  | .missing => "missing"
  | .notText => "string_type"
  | .emptyText => "string_too_short"
  | .notInteger => "int_type"
  | .integerText => "int_parsing"
  | .integerSize => "int_parsing_size"
  | .fractional => "int_from_float"
  | .notFinite => "finite_number"
  | .notNumber => "float_type"
  | .numberText => "float_parsing"
  | .below _ => "greater_than_equal"
  | .exceeds _ => "less_than_equal"
  | .notBoolean => "bool_type"
  | .booleanText => "bool_parsing"
  | .notMember _ => "enum"
  | .notList => "list_type"
  | .notObject _ => "model_type"

/-- Names in quotes, separated by commas and an "or" before the last. -/
def alternatives : List String → String
  | [] => ""
  | [a] => "'" ++ a ++ "'"
  | [a, b] => "'" ++ a ++ "' or '" ++ b ++ "'"
  | a :: rest => "'" ++ a ++ "', " ++ alternatives rest

/-- The message of a problem. -/
def Problem.message : Problem → String
  | .missing => "Field required"
  | .notText => "Input should be a valid string"
  | .emptyText => "String should have at least 1 character"
  | .notInteger => "Input should be a valid integer"
  | .integerText => "Input should be a valid integer, unable to parse string as an integer"
  | .integerSize => "Unable to parse input string as an integer, exceeded maximum size"
  | .fractional => "Input should be a valid integer, got a number with a fractional part"
  | .notFinite => "Input should be a finite number"
  | .notNumber => "Input should be a valid number"
  | .numberText => "Input should be a valid number, unable to parse string as a number"
  | .below bound => "Input should be greater than or equal to " ++ toString bound
  | .exceeds bound => "Input should be less than or equal to " ++ toString bound
  | .notBoolean => "Input should be a valid boolean"
  | .booleanText => "Input should be a valid boolean, unable to interpret input"
  | .notMember names => "Input should be " ++ alternatives names
  | .notList => "Input should be a valid list"
  | .notObject model => "Input should be a valid dictionary or instance of " ++ model

/-- A step from a payload to one of its parts. -/
inductive Step where
  | field (name : String)
  | item (index : Nat)
deriving Repr, DecidableEq

/-- A problem and the way to the part that has it. -/
structure Located where
  problem : Problem
  place : List Step := []
deriving Repr, DecidableEq

/-- The same problem, seen from one step further out. -/
def Located.inside (step : Step) (l : Located) : Located := { l with place := step :: l.place }

/-- A value, or at least one problem. -/
inductive Checked (α : Type) where
  | valid (value : α)
  | invalid (first : Located) (rest : List Located)
deriving Repr

namespace Checked

variable {α β : Type}

/-- All problems. -/
def problems : Checked α → List Located
  | .valid _ => []
  | .invalid first rest => first :: rest

/-- The value, if there is no problem. -/
def value? : Checked α → Option α
  | .valid a => some a
  | .invalid _ _ => none

/-- A single problem of the whole. -/
def fail (problem : Problem) : Checked α := .invalid { problem } []

/-- Applies a function to the value. -/
def map (f : α → β) : Checked α → Checked β
  | .valid a => .valid (f a)
  | .invalid first rest => .invalid first rest

/-- Puts two parts together; the problems of both are kept. -/
def both (f : Checked (α → β)) (a : Checked α) : Checked β :=
  match f, a with
  | .valid f, .valid a => .valid (f a)
  | .valid _, .invalid first rest => .invalid first rest
  | .invalid first rest, a => .invalid first (rest ++ a.problems)

instance : Applicative Checked where
  pure := .valid
  map := map
  seq f a := both f (a ())

/-- Goes on with the value of a check that needs it. -/
def andThen (a : Checked α) (f : α → Checked β) : Checked β :=
  match a with
  | .valid a => f a
  | .invalid first rest => .invalid first rest

/-- The same check, seen from one step further out. -/
def inside (step : Step) : Checked α → Checked α
  | .valid a => .valid a
  | .invalid first rest => .invalid (first.inside step) (rest.map (Located.inside step))

/-- All values in order, or the problems of all. -/
def all : List (Checked α) → Checked (List α)
  | [] => .valid []
  | a :: rest => both (a.map List.cons) (all rest)

end Checked

/-- A check of a JSON value. -/
abbrev Check (α : Type) := Json → Checked α

end PathTriage.Payload
