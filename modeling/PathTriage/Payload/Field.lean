import PathTriage.Payload.Numeral

/-!
Checks of single values and of the fields of an object.

Numbers and truth values may also come as text, and whole machine numbers count as integers. A field
that is absent takes its usual value; a field that is null is checked like any other.
-/

namespace PathTriage.Payload

/-! ## Texts -/

/-- Any text. -/
def text : Check String
  | .string s => .valid s
  | _ => .fail .notText

/-- A text that is not empty. -/
def nonEmptyText : Check String := fun v =>
  (text v).andThen fun s => if s.isEmpty then .fail .emptyText else .valid s

/-- A text, or null. -/
def textOrNull : Check (Option String)
  | .null => .valid none
  | v => (text v).map some

/-! ## Integers -/

/-- The least number that does not fit a signed word of 64 bits. -/
def wordBound : Int := 9223372036854775808

/-- A machine number as an integer: it has to be finite, whole and of at most 64 bits. -/
def integerOfFloat (x : Float) : Checked Int :=
  match Binary64.ofFloat x with
  | .finite negative mant exp =>
    let (num, den) := Binary64.quotient mant exp
    let n : Int := ((num / den : Nat) : Int)
    if num % den ≠ 0 then .fail .fractional
    else if wordBound ≤ n then .fail .integerSize
    else .valid (if negative then -n else n)
  | _ => .fail .notFinite

/-- An integer. -/
def integer : Check Int
  | .bool b => .valid (if b then 1 else 0)
  | .number (.int n) => .valid n
  | .number (.float x) => integerOfFloat x
  | .string s => Numeral.readInteger s
  | _ => .fail .notInteger

/-- An integer that is at least a bound. -/
def integerFrom (bound : Nat) : Check Int := fun v =>
  (integer v).andThen fun n => if n < bound then .fail (.below bound) else .valid n

/-! ## Numbers -/

/-- A number as a machine number. -/
def number : Check Float
  | .bool b => .valid (if b then 1 else 0)
  | .number n =>
    match n.toFloat with
    | .ok x => .valid x
    | .error _ => .fail .notNumber
  | .string s =>
    match Numeral.readNumber? s with
    | some x => .valid x
    | none => .fail .numberText
  | _ => .fail .notNumber

/-- A number of the unit interval. What stands for no number is not at most one, and so refused. -/
def unitNumber : Check Float := fun v =>
  (number v).andThen fun x =>
    if x ≤ 1 then
      if 0 ≤ x then .valid x else .fail (.below 0)
    else .fail (.exceeds 1)

/-! ## Truth values -/

/-- The texts that stand for truth values, in lower case. -/
def booleanWords : List (String × Bool) :=
  [("0", false), ("off", false), ("f", false), ("false", false), ("n", false), ("no", false),
   ("1", true), ("on", true), ("t", true), ("true", true), ("y", true), ("yes", true)]

/-- The truth value of an integer. -/
def booleanOfInt (n : Int) : Checked Bool :=
  if n = 0 then .valid false else if n = 1 then .valid true else .fail .booleanText

/-- A truth value. -/
def boolean : Check Bool
  | .bool b => .valid b
  | .string s =>
    match booleanWords.find? fun w => w.1 == String.ofList (s.toList.map Char.toLower) with
    | some (_, b) => .valid b
    | none => .fail .booleanText
  | .number n =>
    match n with
    | .int n =>
      if -wordBound ≤ n ∧ n < wordBound then booleanOfInt n else .fail .notBoolean
    | .float x =>
      match integerOfFloat x with
      | .valid n => booleanOfInt n
      | .invalid _ _ => .fail .notBoolean
  | _ => .fail .notBoolean

/-! ## Vocabularies, lists and objects -/

/-- A member of a vocabulary, by its name. -/
def member (α : Type) [Named α] : Check α
  | .string s =>
    match Named.ofName? s with
    | some a => .valid a
    | none => .fail (.notMember (Named.names α))
  | _ => .fail (.notMember (Named.names α))

/-- A list whose items all pass a check. -/
def list {α : Type} (check : Check α) : Check (List α)
  | .array items => .all (items.mapIdx fun i v => (check v).inside (.item i))
  | _ => .fail .notList

/-- An object of a model, given to the check of its fields. -/
def object {α : Type} (model : String) (check : Fields Json → Checked α) : Check α
  | .object fields => check fields
  | _ => .fail (.notObject model)

/-- A field that has to be there. -/
def required {α : Type} (fields : Fields Json) (name : String) (check : Check α) : Checked α :=
  match fields.get? name with
  | some v => (check v).inside (.field name)
  | none => (Checked.fail .missing).inside (.field name)

/-- A field that takes its usual value when it is absent. -/
def optional {α : Type} (fields : Fields Json) (name : String) (usual : α) (check : Check α) :
    Checked α :=
  match fields.get? name with
  | some v => (check v).inside (.field name)
  | none => .valid usual

end PathTriage.Payload
