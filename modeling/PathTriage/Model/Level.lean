import PathTriage.Model.Named

/-!
Four grades, from low to critical. They grade the risk of a method or a path and the urgency of a
review.
-/

namespace PathTriage

/-- A grade. -/
inductive Level where
  | low
  | medium
  | high
  | critical
deriving Repr, DecidableEq, Inhabited

namespace Level

instance : Named Level where
  all := [.low, .medium, .high, .critical]
  name
    | .low => "low"
    | .medium => "medium"
    | .high => "high"
    | .critical => "critical"

/-- The place of a grade, counted from low. -/
def rank : Level → Nat
  | .low => 0
  | .medium => 1
  | .high => 2
  | .critical => 3

end Level
end PathTriage
