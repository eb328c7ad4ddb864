/-!
Closed vocabularies. A vocabulary is a finite type whose members have distinct names in data; the
order of `all` is the order in which messages list them.
-/

namespace PathTriage

/-- A finite type whose members have names in data. -/
class Named (α : Type) where
  all : List α
  name : α → String

namespace Named

variable {α : Type} [Named α]

/-- The member with a name. -/
def ofName? (s : String) : Option α := (all : List α).find? fun a => name a == s

/-- All names in order. -/
def names (α : Type) [Named α] : List String := (all : List α).map name

/-- A member that was found has the name that was asked for. -/
theorem name_of_ofName? {s : String} {a : α} (h : ofName? s = some a) : name a = s := by
  simpa using List.find?_some h

end Named
end PathTriage
