import PathTriage.Number

/-!
JSON values. An object is a list of fields in the order in which its keys first appeared; each key
stands once, with the value given last.
-/

namespace PathTriage

/-- A JSON value. -/
inductive Json where
  | null
  | bool (b : Bool)
  | number (n : Number)
  | string (s : String)
  | array (items : List Json)
  | object (fields : List (String × Json))
deriving Inhabited, Repr

/-- The fields of an object or of any other table that keeps the order of its keys. -/
abbrev Fields (β : Type) := List (String × β)

namespace Fields

variable {β : Type}

/-- The value of a key. -/
def get? (key : String) : Fields β → Option β
  | [] => none
  | (k, v) :: rest => if k = key then some v else get? key rest

/-- Gives a key a value, in its place if it is there and at the end otherwise. -/
def put (key : String) (value : β) : Fields β → Fields β
  | [] => [(key, value)]
  | (k, v) :: rest => if k = key then (k, value) :: rest else (k, v) :: put key value rest

/-- The table that results from giving values one after the other. -/
def ofPairs (pairs : List (String × β)) : Fields β :=
  pairs.foldl (fun table p => put p.1 p.2 table) []

/-- The keys in order. -/
def keys (table : Fields β) : List String := table.map (·.1)

@[simp] theorem get?_nil (key : String) : get? key ([] : Fields β) = none := rfl

/-- A key that was just given a value has that value; every other key keeps its own. -/
theorem get?_put (key k : String) (value : β) (table : Fields β) :
    get? k (put key value table) = if key = k then some value else get? k table := by
  induction table with
  | nil => simp [put, get?]
  | cons entry rest ih =>
    obtain ⟨k', v'⟩ := entry
    by_cases h : k' = key
    · subst h
      by_cases hk : k' = k <;> simp [put, get?, hk]
    · by_cases hk : k' = k
      · subst hk
        simp [put, get?, h, Ne.symm h]
      · simp [put, get?, h, hk, ih]

end Fields

namespace Json

/-- The value of a key of an object. -/
def get? (key : String) : Json → Option Json
  | .object fields => Fields.get? key fields
  | _ => none

/-- An integer value. -/
def ofInt (n : Int) : Json := .number (.int n)

/-- A machine-number value. -/
def ofFloat (x : Float) : Json := .number (.float x)

/-- A list of texts. -/
def ofStrings (texts : List String) : Json := .array (texts.map .string)

/-- A text, or null. -/
def ofString? : Option String → Json
  | some s => .string s
  | none => .null

/-- The number that a value stands for: a truth value counts as 0 or 1. -/
def number? : Json → Option Number
  | .bool b => some (.int (if b then 1 else 0))
  | .number n => some n
  | _ => none

/-- The kind of a value. -/
def kind : Json → ValueKind
  | .null => .null
  | .bool _ => .flag
  | .number (.int _) => .integer
  | .number (.float _) => .decimal
  | .string _ => .text
  | .array _ => .list
  | .object _ => .table

/-- Whether a value counts as true: it is neither null nor false, zero or empty. -/
def isTrue : Json → Bool
  | .null => false
  | .bool b => b
  | .number n => !n.same (.int 0)
  | .string s => !s.isEmpty
  | .array items => !items.isEmpty
  | .object fields => !fields.isEmpty

/-- Whether a value is the given text. -/
def isText (text : String) : Json → Bool
  | .string s => s == text
  | _ => false

end Json
end PathTriage
