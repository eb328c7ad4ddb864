import PathTriage.Graph.Bound
import PathTriage.Score.Risk
import PathTriage.Store.Basic

/-!
Questions to a store: listings, neighbours, paths, impact and propagated risk, statistics.
Unknown ids give empty answers.
-/

namespace PathTriage

/-- Figures about a store. -/
structure Statistics where
  nodeCount : Nat
  linkCount : Nat
  methodCount : Nat
  classCount : Nat
  averageComplexity : Json
  hotspots : List String
  riskDistribution : List (Level × Nat)

namespace Store

/-- All methods by id. -/
def methodList (s : Store) : List Method := s.methods.values

/-- All classes by id. -/
def classList (s : Store) : List ClassEntry := s.classes.values

/-- The stored methods with the given ids. -/
def methodsWith (s : Store) (ids : List String) : List Method := ids.filterMap s.method?

/-- The callers of a method, by id. -/
def callersOf (s : Store) (id : String) : List Method :=
  if s.callNodes.contains id then s.methodsWith (s.graph.callers id) else []

/-- The callees of a method, by id. -/
def calleesOf (s : Store) (id : String) : List Method :=
  if s.callNodes.contains id then s.methodsWith (s.graph.callees id) else []

/-- The methods that a file owns, by id. -/
def methodsForFile (s : Store) (filePath : String) : List Method :=
  s.methodList.filter fun m => m.isIn filePath

/-- Where calls come in: controller methods, and methods that nobody calls. -/
def entryPoints (s : Store) : List Method :=
  s.methodList.filter fun m => m.layer == .controller || m.inDegree.isZero

/-- The path over stored methods with the calls between them that are stored. -/
def pathAlong (s : Store) (pathId : String) (ids : List String) : CallPath :=
  CallPath.along pathId (s.methodsWith ids) fun a b => s.call? a.id b.id

/-- The path over the given methods, if there are any and all are stored. -/
def buildPath? (s : Store) (pathId : String) (ids : List String) : Option CallPath :=
  if ids.isEmpty || !ids.all s.hasMethod then none else some (s.pathAlong pathId ids)

/-- The name of the path at a place in a list. -/
def pathName (n : Nat) : String := "path_" ++ toString n

/-- The paths from one method to another, within given bounds. -/
def findPaths (s : Store) (source target : String) (depth limit : Json) :
    Except Failure (List CallPath) :=
  if s.hasMethod source then do
    let routes ← s.graph.routesWithin source target depth limit
    pure (routes.mapIdx fun i ids => s.pathAlong (pathName i) ids)
  else .ok []

/-- The methods within some hops of a method in either direction. -/
def impactOf (s : Store) (id : String) (depth : Json) : Except Failure (List Method) :=
  if s.hasMethod id then do pure (s.methodsWith (← s.graph.ballWithin id depth)) else .ok []

/-- The risk of a method spread over its callers. -/
def propagateRisk (s : Store) (id : String) (depth : Json) :
    Except Failure (List (String × Json)) :=
  match s.method? id with
  | none => .ok []
  | some m => s.graph.propagateWithin id m.riskScore depth Graph.usualDecay

/-- The number of methods at each level of risk. -/
def riskDistribution (s : Store) : Except Failure (List (Level × Nat)) := do
  let levels ← s.methodList.mapM fun m => Risk.nodeLevel m.riskScore
  pure ((Named.all : List Level).map fun level => (level, levels.count level))

/-- The figures of a store with its first `top` hubs. -/
def statistics (s : Store) (top : Json) : Except Failure Statistics := do
  let riskDistribution ← s.riskDistribution
  let averageComplexity ← Scalar.mean (s.methodList.map fun m => pure m.complexity.toJson)
  let hotspots ← s.graph.hubsWithin top
  pure
    { nodeCount := s.nodeCount
      linkCount := s.linkCount
      methodCount := s.methods.size
      classCount := s.classes.size
      averageComplexity, hotspots, riskDistribution }

/-- The risk that a method has now. -/
def riskOf (history : Option ProjectHistory) (m : Method) : Except Failure Json := do
  pure (← Risk.weighMethod m history).total

/-- Gives methods their current risks, in order, up to the first that has none. -/
def refreshEach (history : Option ProjectHistory) (s : Store) (found : List (String × Json)) :
    List Method → Store × Except Failure (List (String × Json))
  | [] => (s, .ok found.reverse)
  | m :: rest =>
    match riskOf history m with
    | .error cause => (s, .error cause)
    | .ok risk => refreshEach history (s.setRisk m.id risk) ((m.id, risk) :: found) rest

/-- Gives every stored method its current risk, and lists the risks by id. -/
def refreshRisks (s : Store) (history : Option ProjectHistory) :
    Store × Except Failure (List (String × Json)) :=
  refreshEach history s [] s.methodList

end Store
end PathTriage
