import PathTriage.Store.Query
import PathTriage.Telemetry.Event

/-!
Candidate paths of a change: every route from an entry point to a changed method.
-/

namespace PathTriage.Discovery

/-- The routes from some entry points to a method, within given bounds. -/
def routesFrom (s : Store) (target : String) (depth limit : Json) :
    List Method → Except Failure (List (List String))
  | [] => .ok []
  | entry :: rest => do
    let routes ← s.graph.routesWithin entry.id target depth limit
    let more ← routesFrom s target depth limit rest
    pure (routes ++ more)

/-- The routes to one method from all entry points; the method alone when there is none. -/
def routesTo (s : Store) (target : String) (depth limit : Json) :
    Except Failure (List (List String)) := do
  let found ← routesFrom s target depth limit s.entryPoints
  pure (if found.isEmpty then [[target]] else found)

/-- The known changed methods, by id. -/
def targets (s : Store) (changed : List String) : List String :=
  (Order.sortedSet changed).filter s.hasMethod

/-- Routes in order of discovery, and whether a limit on their number was reached. -/
structure Found where
  routes : List (List String) := []
  isFull : Bool := false

/-- Takes in routes up to a limit, without repetitions; one is taken even when the limit is below
    one. -/
def collect (limit : Json) : (found rest : List (List String)) → Except Failure Found
  | found, [] => .ok { routes := found }
  | found, route :: rest =>
    if found.contains route then collect limit found rest
    else do
      let found := found ++ [route]
      if ← Json.holds .atLeast (.ofInt found.length) limit then
        pure { routes := found, isFull := true }
      else collect limit found rest

/-- Goes on from what was found to the routes of further targets, until the limit is reached. -/
def collectTargets (s : Store) (depth limit : Json) (found : List (List String)) :
    List String → Except Failure Found
  | [] => .ok { routes := found }
  | target :: rest => do
    let routes ← routesTo s target depth limit
    let next ← collect limit found routes
    if next.isFull then pure next else collectTargets s depth limit next.routes rest

/-- The routes that a change asks to look at. -/
def candidateRoutes (s : Store) (changed : List String) (depth limit : Json) :
    Except Failure Found :=
  collectTargets s depth limit [] (targets s changed)

/-- The whole part of a number. -/
def wholePart (v : Json) : Int :=
  match v.number? with
  | some (.int n) => n
  | some (.float x) =>
    match Binary64.ofFloat x with
    | .finite negative mant exp =>
      let (num, den) := Binary64.quotient mant exp
      if negative then -((num / den : Nat) : Int) else (num / den : Nat)
    | _ => 0
  | none => 0

/-- The candidate paths, numbered in order of discovery, and what is reported about them. -/
def candidates (s : Store) (changed : List String) (depth limit : Json) :
    Except Failure (List CallPath × List Event) := do
  let found ← candidateRoutes s changed depth limit
  let paths := found.routes.mapIdx fun i ids => s.pathAlong (Store.pathName i) ids
  let event := if found.isFull then Event.candidateLimit (wholePart limit) paths.length
    else .candidates paths.length
  pure (paths, [event])

end PathTriage.Discovery
