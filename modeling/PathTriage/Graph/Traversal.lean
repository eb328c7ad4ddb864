import PathTriage.Graph.Basic
import PathTriage.Order
import PathTriage.Scalar

/-!
Traversals of a graph whose arrows point from caller to callee.

All of them go outward level by level. Routes come shorter first and, among equally long ones, by
their id sequence; the ball around a node comes by distance and id. Neighbours are taken by id, so
the order in which the graph was built is never seen.
-/

namespace PathTriage.Graph

/-! ## Routes -/

/-- Extends every trail by each callee that is not on it yet. A trail has its last node first. -/
def extend (g : Graph) (trails : List (List String)) : List (List String) :=
  trails.flatMap fun trail =>
    match trail with
    | [] => []
    | last :: _ =>
      ((Order.sorted (g.callees last)).filter fun id => !trail.contains id).map (· :: trail)

/-- Whether a trail has arrived at the target. -/
def arrivesAt (target : String) (trail : List String) : Bool := trail.head? == some target

/-- The trails that arrive at the target after at most `depth` more hops. -/
def arrivals (g : Graph) (target : String) : (depth : Nat) → List (List String) → List (List String)
  | 0, _ => []
  | depth + 1, trails =>
    let next := g.extend trails
    let pending := next.filter fun trail => !arrivesAt target trail
    next.filter (arrivesAt target) ++
      if pending.isEmpty then [] else arrivals g target depth pending

/-- The first `limit` simple routes of at most `depth` hops, shorter ones first, then by ids. -/
def routes (g : Graph) (source target : String) (depth limit : Int) : List (List String) :=
  if !g.nodes.contains source || !g.nodes.contains target || decide (limit ≤ 0) then []
  else if source = target then [[source]]
  else ((g.arrivals target depth.toNat [[source]]).map List.reverse).take limit.toNat

/-! ## Balls -/

/-- The ids next to a node in either direction. -/
def neighbours (g : Graph) (id : String) : List String := g.callers id ++ g.callees id

/-- The new nodes one step outside a level, by id. -/
def nextLevel (g : Graph) (seen level : List String) : List String :=
  Order.sortedSet ((level.flatMap g.neighbours).filter fun id => !seen.contains id)

/-- A level and those outside it, up to `depth` steps away. -/
def levels (g : Graph) : (depth : Nat) → (seen level : List String) → List String
  | 0, _, level => level
  | depth + 1, seen, level =>
    let next := g.nextLevel seen level
    if next.isEmpty then level else level ++ levels g depth (seen ++ next) next

/-- The nodes within `depth` steps of a node in either direction, by distance, then by id. -/
def ball (g : Graph) (origin : String) (depth : Int) : List String :=
  if g.nodes.contains origin then g.levels depth.toNat [origin] [origin] else []

/-! ## Propagation of risk -/

variable {m : Type → Type} [Monad m] {α : Type} [Scalar m α]

/-- Whether an id has an entry. -/
def hasEntry {β : Type} (entries : List (String × β)) (id : String) : Bool :=
  entries.any fun e => e.1 == id

/-- A risk after one more hop. -/
def decayed (risk decay : α) (hop : Nat) : m α := do Scalar.mul risk (← Scalar.pow decay hop)

/-- The entries of the callers of a level that have none yet, in the order of the level and, for one
    node of it, by id. -/
def callerEntries (g : Graph) (decay : α) (hop : Nat) (found : List (String × α)) :
    (next level : List (String × α)) → m (List (String × α))
  | next, [] => pure next
  | next, (id, risk) :: rest => do
    let callers := Order.sorted (g.callers id)
    let fresh := callers.filter fun c => !hasEntry found c && !hasEntry next c
    let entries ← fresh.mapM fun c => do pure (c, ← decayed risk decay hop)
    callerEntries g decay hop found (next ++ entries) rest

/-- Spreads risk from a level to its callers, over at most `depth` further hops. -/
def spread (g : Graph) (decay : α) :
    (depth hop : Nat) → (found level : List (String × α)) → m (List (String × α))
  | 0, _, found, _ => pure found
  | depth + 1, hop, found, level => do
    let next ← g.callerEntries decay hop found [] level
    if next.isEmpty then pure found else spread g decay depth (hop + 1) (found ++ next) next

/-- Spreads the risk of a node over its direct and indirect callers. A caller first reached at hop
    `h` from a node with risk `r` has the risk `r * decay ^ h`. -/
def propagate (g : Graph) (origin : String) (risk : α) (depth : Int) (decay : α) :
    m (List (String × α)) :=
  if g.nodes.contains origin then g.spread decay depth.toNat 1 [(origin, risk)] [(origin, risk)]
  else pure []

/-! ## Hubs -/

/-- Larger degree first, then by id. -/
def compareDegrees (a b : String × Nat) : Ordering := (compare b.2 a.2).then (compare a.1 b.1)

/-- The first `limit` nodes by degree. -/
def hubs (g : Graph) (limit : Int) : List String :=
  ((Order.sortBy compareDegrees (g.nodes.map fun id => (id, g.degree id))).map (·.1)).take
    limit.toNat

end PathTriage.Graph
