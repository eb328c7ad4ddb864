import PathTriage.Json.Literal
import PathTriage.Model.Named

/-!
Fields of a document, read leniently: a field that is absent has its usual value. Where a text or a
list is asked for, a value of another kind counts as empty; every other value is taken as it is.
-/

namespace PathTriage

/-- A document names something that its vocabulary does not have. -/
structure UnknownName where
  vocabulary : String
  shown : String
deriving Repr, DecidableEq

/-- The message of an unknown name. -/
def UnknownName.message (e : UnknownName) : String := e.shown ++ " is not a valid " ++ e.vocabulary

namespace Json

/-- The value of a key, null where it is absent. -/
def field (key : String) (v : Json) : Json := (v.get? key).getD .null

/-- The value of a key as it was given, or the usual one where it is absent. -/
def valueOr (key : String) (v usual : Json) : Json := (v.get? key).getD usual

/-- The text that a value is. -/
def text : Json → String
  | .string s => s
  | _ => ""

/-- The elements of an array. -/
def items : Json → List Json
  | .array items => items
  | _ => []

/-- The fields of an object. -/
def members : Json → Fields Json
  | .object fields => fields
  | _ => []

/-- The texts of an array. -/
def texts (v : Json) : List String := v.items.map text

/-- The text of a key. -/
def textAt (key : String) (v : Json) : String := (v.field key).text

/-- The text of a key, if it is a text. -/
def text? (key : String) (v : Json) : Option String :=
  match v.field key with
  | .string s => some s
  | _ => none

/-- The texts of an array at a key. -/
def textsAt (key : String) (v : Json) : List String := (v.field key).texts

/-- The elements of an array at a key. -/
def itemsAt (key : String) (v : Json) : List Json := (v.field key).items

/-- Whether the value of a key counts as true; an absent one does not. -/
def flagAt (key : String) (v : Json) : Bool := (v.field key).isTrue

/-- The member of a vocabulary that a value names. -/
def member {α : Type} [Named α] (vocabulary : String) (v : Json) : Except UnknownName α :=
  match v with
  | .string s =>
    match Named.ofName? s with
    | some a => .ok a
    | none => .error ⟨vocabulary, v.literal⟩
  | v => .error ⟨vocabulary, v.literal⟩

/-- The member of a vocabulary that a key names, or the usual one where the key is absent. -/
def memberOr {α : Type} [Named α] (vocabulary key : String) (usual : α) (v : Json) :
    Except UnknownName α :=
  match v.get? key with
  | none => .ok usual
  | some named => named.member vocabulary

end Json
end PathTriage
