/-!
Conditions whose evaluation may have effects. They are evaluated from left to right and only as far
as needed.
-/

namespace PathTriage.Condition

variable {m : Type → Type} [Monad m]

/-- Both conditions; the second is not evaluated when the first fails. -/
def both (a b : m Bool) : m Bool := a >>= fun holds => if holds then b else pure false

/-- One of two conditions; the second is not evaluated when the first holds. -/
def either (a b : m Bool) : m Bool := a >>= fun holds => if holds then pure true else b

/-- The contrary of a condition. -/
def contrary (a : m Bool) : m Bool := a >>= fun holds => pure (!holds)

/-- Whether some element satisfies a condition; the elements after it are not looked at. -/
def anyOf {β : Type} (p : β → m Bool) : List β → m Bool
  | [] => pure false
  | x :: rest => either (p x) (anyOf p rest)

/-- The elements that satisfy a condition, in order. -/
def select {β : Type} (p : β → m Bool) : List β → m (List β)
  | [] => pure []
  | x :: rest => do
    let holds ← p x
    let more ← select p rest
    pure (if holds then x :: more else more)

/-- The number of elements that satisfy a condition. -/
def count {β : Type} (p : β → m Bool) (xs : List β) : m Nat := do
  let selected ← select p xs
  pure selected.length

end PathTriage.Condition
