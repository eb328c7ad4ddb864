/-!
Why a computation on given values fails.

Records keep many of their attributes as they were given, of whatever kind. Whether an attribute can
be computed with is found out only when it is: a number cannot be added to a text, an integer may
lie beyond all machine numbers, a time limit beyond the clock, and a logarithm needs a positive
argument. Every such cause is a `Failure`, with its wording in `Failure.message`.
-/

namespace PathTriage

/-- The kinds of given values. -/
inductive ValueKind where
  | null
  | flag
  | integer
  | decimal
  | text
  | list
  | table
deriving Repr, DecidableEq, Inhabited

/-- The name of a kind in messages. -/
def ValueKind.name : ValueKind → String
  | .null => "NoneType"
  | .flag => "bool"
  | .integer => "int"
  | .decimal => "float"
  | .text => "str"
  | .list => "list"
  | .table => "dict"

/-- How two values are held against each other. -/
inductive Relation where
  | below
  | atMost
  | above
  | atLeast
deriving Repr, DecidableEq, Inhabited

/-- The sign of a relation in messages. -/
def Relation.symbol : Relation → String
  | .below => "<"
  | .atMost => "<="
  | .above => ">"
  | .atLeast => ">="

/-- An operation on two values. -/
inductive Operation where
  | add
  | sub
  | mul
  | div
  | pow
  | compare (relation : Relation)
deriving Repr, DecidableEq, Inhabited

/-- A cause of failure. -/
inductive Failure where
  /-- The operation does not exist for values of these kinds. -/
  | operands (op : Operation) (left right : ValueKind)
  /-- A value of this kind has no length. -/
  | noLength (kind : ValueKind)
  /-- A value of this kind has no elements. -/
  | noElements (kind : ValueKind)
  /-- A value of this kind cannot be a member of a set. -/
  | noMember (kind : ValueKind)
  /-- A value of this kind stands where a whole number is needed. -/
  | notWhole (kind : ValueKind)
  /-- A value of this kind stands where a number is written with places. -/
  | notDecimal (kind : ValueKind)
  /-- A value of this kind stands where a number is written in a layout with this code. -/
  | noLayout (code : Char) (kind : ValueKind)
  /-- The argument of a logarithm is not positive. -/
  | logarithm
  /-- An integer is beyond all machine numbers. -/
  | integerRange
  /-- A quotient of integers is beyond all machine numbers. -/
  | quotientRange
  /-- A power of a machine number is beyond all machine numbers. -/
  | powerRange
  /-- A time limit, a number of this kind, is beyond the clock. -/
  | limitRange (kind : ValueKind)
  /-- A number is divided by zero. -/
  | divisionByZero
deriving Repr, DecidableEq

/-- What a failure is about: the kind of a value, the value itself, or the range of the machine. -/
inductive FailureClass where
  | kind
  | value
  | range
  | zero
deriving Repr, DecidableEq

namespace Failure

/-- The message about an operation that does not exist. -/
def operandsMessage (op : Operation) (left right : ValueKind) : String :=
  let unsupported := fun (symbol : String) =>
    "unsupported operand type(s) for " ++ symbol ++ ": '" ++ left.name ++ "' and '" ++ right.name
      ++ "'"
  let joined := fun (kind : ValueKind) =>
    "can only concatenate " ++ kind.name ++ " (not \"" ++ right.name ++ "\") to " ++ kind.name
  let repeated := fun (kind : ValueKind) =>
    "can't multiply sequence by non-int of type '" ++ kind.name ++ "'"
  match op, left, right with
  | .add, .text, _ => joined .text
  | .add, .list, _ => joined .list
  | .add, _, _ => unsupported "+"
  | .sub, _, _ => unsupported "-"
  | .mul, .text, kind | .mul, .list, kind => repeated kind
  | .mul, kind, .text | .mul, kind, .list => repeated kind
  | .mul, _, _ => unsupported "*"
  | .div, _, _ => unsupported "/"
  | .pow, _, _ => unsupported "** or pow()"
  | .compare relation, _, _ =>
    "'" ++ relation.symbol ++ "' not supported between instances of '" ++ left.name ++ "' and '"
      ++ right.name ++ "'"

/-- The message of a failure. -/
def message : Failure → String
  | .operands op left right => operandsMessage op left right
  | .noLength kind => "object of type '" ++ kind.name ++ "' has no len()"
  | .noElements kind => "'" ++ kind.name ++ "' object is not iterable"
  | .noMember kind => "unhashable type: '" ++ kind.name ++ "'"
  | .notWhole kind => "'" ++ kind.name ++ "' object cannot be interpreted as an integer"
  | .notDecimal kind => "must be real number, not " ++ kind.name
  | .noLayout code .text =>
    "Unknown format code '" ++ String.singleton code ++ "' for object of type 'str'"
  | .noLayout _ kind => "unsupported format string passed to " ++ kind.name ++ ".__format__"
  | .logarithm => "math domain error"
  | .integerRange => "int too large to convert to float"
  | .quotientRange => "integer division result too large for a float"
  | .powerRange => "(34, 'Numerical result out of range')"
  | .limitRange .decimal => "timestamp out of range for platform time_t"
  | .limitRange _ => "timestamp too large to convert to C _PyTime_t"
  | .divisionByZero => "division by zero"

/-- What a failure is about. -/
def about : Failure → FailureClass
  | .noLayout _ .text | .logarithm => .value
  | .integerRange | .quotientRange | .powerRange | .limitRange _ => .range
  | .divisionByZero => .zero
  | _ => .kind

end Failure
end PathTriage
