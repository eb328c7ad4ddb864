import PathTriage.Json.Value

/-!
Computing with values as they were given. Numbers and truth values compute as numbers; every other
operand makes an operation fail. Texts compare with texts only, by code points.
-/

namespace PathTriage.Json

/-- An operation on the numbers that two values stand for. -/
def operate (op : Operation) (f : Number → Number → Except Failure Number) (a b : Json) :
    Except Failure Json :=
  match a.number?, b.number? with
  | some x, some y => (f x y).map .number
  | _, _ => .error (.operands op a.kind b.kind)

/-- Sum. -/
def add : Json → Json → Except Failure Json := operate .add Number.add

/-- Difference. -/
def sub : Json → Json → Except Failure Json := operate .sub Number.sub

/-- Product. -/
def mul : Json → Json → Except Failure Json := operate .mul Number.mul

/-- Quotient. -/
def div : Json → Json → Except Failure Json := operate .div Number.div

/-- A power with a natural exponent. -/
def pow (a : Json) (n : Nat) : Except Failure Json :=
  match a.number? with
  | some x => (x.pow n).map .number
  | none => .error (.operands .pow a.kind .integer)

/-- How many decades a count spans. -/
def decades (a : Json) : Except Failure Json :=
  match a.number? with
  | some x => x.decades.map .number
  | none => .error (.operands .add a.kind .integer)

/-- Whether texts stand in a relation. -/
def textsHold : Relation → String → String → Bool
  | .below, a, b => decide (a < b)
  | .atMost, a, b => decide (a ≤ b)
  | .above, a, b => decide (b < a)
  | .atLeast, a, b => decide (b ≤ a)

/-- Whether two values stand in a relation. -/
def holds (r : Relation) (a b : Json) : Except Failure Bool :=
  match a.number?, b.number?, a, b with
  | some x, some y, _, _ => .ok (x.holds r y)
  | _, _, .string s, .string t => .ok (textsHold r s t)
  | _, _, a, b => .error (.operands (.compare r) a.kind b.kind)

/-- Whether one number is below another. Values that are no numbers are below nothing. -/
def lt (a b : Json) : Bool :=
  match a.number?, b.number? with
  | some x, some y => x.lt y
  | _, _ => false

/-- Whether a value is the number zero. -/
def isZero (a : Json) : Bool :=
  match a.number? with
  | some x => x.same (.int 0)
  | none => false

/-- The number of elements of a list or a table, or of characters of a text. -/
def size : Json → Nat
  | .array items => items.length
  | .object fields => fields.length
  | .string s => s.length
  | _ => 0

/-- Why a value has no length, if it has none. -/
def sizeFailure? : Json → Option Failure
  | .array _ | .object _ | .string _ => none
  | v => some (.noLength v.kind)

/-- The elements of a list, the keys of a table or the characters of a text, as a list. -/
def elements : Json → Except Failure Json
  | .array items => .ok (.array items)
  | .object fields => .ok (.ofStrings (Fields.keys fields))
  | .string s => .ok (.array (s.toList.map fun c => .string (String.singleton c)))
  | v => .error (.noElements v.kind)

/-- Whether two values count as the same member of a set. Numbers and truth values are compared by
    their number. -/
def sameMember (a b : Json) : Bool :=
  match a.number?, b.number?, a, b with
  | some x, some y, _, _ => x.same y
  | _, _, .string s, .string t => s == t
  | _, _, .null, .null => true
  | _, _, _, _ => false

/-- Why a value cannot be a member of a set, if it cannot. -/
def memberFailure? : Json → Option Failure
  | .array _ => some (.noMember .list)
  | .object _ => some (.noMember .table)
  | _ => none

/-- The machine number of a value, for a layout that fails with the given cause on other values. -/
def toFloat (cause : ValueKind → Failure) (a : Json) : Except Failure Float :=
  match a.number? with
  | some x => x.toFloat
  | none => .error (cause a.kind)

end PathTriage.Json
