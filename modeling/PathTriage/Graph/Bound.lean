import PathTriage.Graph.Traversal

/-!
Traversals with bounds as they were given. A bound is looked at only when the answer hangs on it, so
an unfit bound goes unnoticed where there is nothing to bound. A fraction of a hop counts as one
more; a number of nodes or routes has to be whole.
-/

namespace PathTriage.Graph

/-- The number of hops that a bound admits in a graph with some number of nodes. -/
def hopsOf (nodes : Nat) : Number → Int
  | .int n => n
  | .float x =>
    match Binary64.ofFloat x with
    | .nan => 0
    | .infinite negative => if negative then 0 else nodes
    | .finite negative mant exp =>
      let (num, den) := Binary64.quotient mant exp
      if negative then 0 else ((num + den - 1) / den : Nat)

/-- Whether a bound is positive. -/
def isPositive (bound : Json) : Except Failure Bool := Json.holds .above bound (.ofInt 0)

/-- The number of hops that a given bound admits; none when it is not positive. -/
def hopBound (g : Graph) (bound : Json) : Except Failure Int := do
  if ← isPositive bound then pure (hopsOf g.nodes.length (bound.number?.getD (.int 0))) else pure 0

/-- The whole number that a positive bound is. -/
def wholeOf (bound : Json) : Except Failure Int :=
  match bound.number? with
  | some (.int n) => .ok n
  | _ => .error (.notWhole bound.kind)

/-- The whole number that a given bound is; zero when it is not positive. -/
def countBound (bound : Json) : Except Failure Int := do
  if ← isPositive bound then wholeOf bound else pure 0

/-- An integer that counts only when it is positive. -/
theorem ifPositive_ofInt (n : Int) :
    (do if ← isPositive (.ofInt n) then pure n else pure 0 : Except Failure Int) =
      .ok (max 0 n) := by
  have hpositive : isPositive (.ofInt n) = .ok (decide (0 < n)) := rfl
  rw [hpositive]
  by_cases hn : 0 < n
  · rw [decide_eq_true hn, Int.max_eq_right (by omega)]
    rfl
  · rw [decide_eq_false hn, Int.max_eq_left (by omega)]
    rfl

theorem hopBound_ofInt (g : Graph) (n : Int) : g.hopBound (.ofInt n) = .ok (max 0 n) :=
  ifPositive_ofInt n

theorem countBound_ofInt (n : Int) : countBound (.ofInt n) = .ok (max 0 n) := ifPositive_ofInt n

/-- The whole number of routes that a positive bound admits. Any number that equals one will do. -/
def routeBound (bound : Json) : Except Failure Int :=
  match bound.number? with
  | some n => if n.same (.int 1) then .ok 1 else wholeOf bound
  | none => wholeOf bound

/-- The first simple routes within given bounds. -/
def routesWithin (g : Graph) (source target : String) (depth limit : Json) :
    Except Failure (List (List String)) :=
  if !g.nodes.contains source || !g.nodes.contains target then .ok []
  else do
    if ← Json.holds .atMost limit (.ofInt 0) then pure []
    else if source = target then pure [[source]]
    else if ← Json.holds .atMost depth (.ofInt 0) then pure []
    else
      let limit ← routeBound limit
      pure (g.routes source target (hopsOf g.nodes.length (depth.number?.getD (.int 0))) limit)

/-- The nodes within a given number of steps of a node. -/
def ballWithin (g : Graph) (origin : String) (depth : Json) : Except Failure (List String) :=
  if g.nodes.contains origin then do pure (g.ball origin (← g.hopBound depth)) else .ok []

/-- The decay of risk per hop. -/
def usualDecay : Json := .ofFloat 0.8

/-- The risk of a node spread over a given number of hops. -/
def propagateWithin (g : Graph) (origin : String) (risk depth decay : Json) :
    Except Failure (List (String × Json)) :=
  if g.nodes.contains origin then do g.propagate origin risk (← countBound depth) decay
  else .ok []

/-- A given number of first nodes by degree. -/
def hubsWithin (g : Graph) (limit : Json) : Except Failure (List String) := do
  pure (g.hubs (← countBound limit))

end PathTriage.Graph
