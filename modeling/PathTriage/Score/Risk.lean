import PathTriage.Model.CallPath
import PathTriage.Model.Level
import PathTriage.Scalar

/-!
Risk: how dangerous a path or a method is to change.

Four scores in the unit interval are combined 0.35 / 0.30 / 0.25 / 0.10. Architectural risk looks at
layer violations, cycles, coupling and single points of failure. Blast radius and change complexity
look only at the changed methods on the path and are zero when there are none. Data-flow risk looks
at shared state, concurrency and guarded data access.
-/

namespace PathTriage

/-- The kind of risk that a method poses first of all. -/
inductive Concern where
  | entryPoint
  | complexity
  | dependency
  | quality
  | concurrency
  | data
  | general
deriving Repr, DecidableEq, Inhabited

instance : Named Concern where
  all := [.entryPoint, .complexity, .dependency, .quality, .concurrency, .data, .general]
  name
    | .entryPoint => "ENTRY_POINT_RISK"
    | .complexity => "COMPLEXITY_RISK"
    | .dependency => "DEPENDENCY_RISK"
    | .quality => "QUALITY_RISK"
    | .concurrency => "CONCURRENCY_RISK"
    | .data => "DATA_RISK"
    | .general => "GENERAL_RISK"

/-- What a risk is made of, for a reader. -/
structure RiskDetails where
  criticalMethods : List String := []
  factors : List String := []
  suggestions : List String := []
  impactedComponents : List String := []
deriving Repr, DecidableEq

/-- The four scores of a path's risk and their combination. -/
structure RiskScores (α : Type) where
  total : α
  architectural : α
  blastRadius : α
  changeComplexity : α
  dataFlow : α

/-- The risk of a path. -/
structure RiskWeight (α : Type) extends RiskScores α where
  level : Level
  confidence : α
  details : RiskDetails

/-- The risk of a single method. -/
structure MethodRisk (α : Type) where
  methodId : String
  total : α
  architectural : α
  complexity : α
  dependency : α
  changeHistory : α
  concern : Concern
  criticality : α

/-- What is known about the past of a project. -/
structure ProjectHistory where
  hotspotMethods : List String := []
  frequentFiles : List String := []
deriving Repr, DecidableEq

namespace Risk

open Condition Scalar

variable {m : Type → Type} [Monad m] {α : Type} [Scalar m α]

/-- The level of the first bound, in hundredths, that the score lies below, else critical. -/
def levelBelow (bounds : List (Nat × Level)) (score : α) : m Level :=
  match bounds with
  | [] => pure .critical
  | (bound, level) :: rest => do
    if ← test .below (pure score) (hundredths bound : m α) then pure level
    else levelBelow rest score

/-- The level of a path's risk. -/
def pathLevel (score : α) : m Level := levelBelow [(40, .low), (60, .medium), (80, .high)] score

/-- The level of a method's risk. -/
def nodeLevel (score : α) : m Level := levelBelow [(30, .low), (60, .medium), (80, .high)] score

/-! ## Architectural risk -/

/-- The violations of one hop: one for a call upwards, one for a call that is not to the same or a
    neighbouring layer. -/
def hopViolations (hop : Method × Method) : Nat :=
  let a := hop.1.layer.depth
  let b := hop.2.layer.depth
  (if b < a then 1 else 0) + (if 1 < (b - a).natAbs then 1 else 0)

/-- The layer violations on a path. -/
def violations (methods : List Method) : Nat :=
  totalCount ((methods.zip methods.tail).map hopViolations)

/-- Layer violations per hop. -/
def crossLayer (methods : List Method) : m α :=
  if methods.length ≤ 1 then zero
  else capped (quotient (violations methods) (methods.length - 1))

/-- The number of methods that repeat an earlier one. -/
def repetitions (methods : List Method) : Nat :=
  methods.length - (methods.map (·.id)).eraseDups.length

/-- The share of methods that repeat an earlier one. -/
def circular (methods : List Method) : m α :=
  if methods.isEmpty then zero else capped (quotient (repetitions methods) methods.length)

/-- Coupling: the mean number of callees and the density of resolved calls. -/
def coupling (known : String → String → Bool) (p : CallPath) : m α :=
  let n := p.methods.length
  if n ≤ 1 then zero
  else do
    let averageOut : α ← mean (p.methods.map fun m => measured m.outDegree)
    let density : α ← whole (p.resolvedCalls known).length / (whole (n * (n - 1) : Nat) / whole 2)
    (capped (pure averageOut / whole 10) + capped (pure density)) / whole 2

/-- The largest number of callers; zero for no methods. -/
def maxInDegree : List Method → m α
  | [] => whole 0
  | first :: rest => largest (given first.inDegree) (rest.map fun m => given m.inDegree)

/-- Whether more methods call a method than a number. -/
def calledOver (α : Type) [Scalar m α] (n : Int) (method : Method) : m Bool :=
  test .above (measured method.inDegree : m α) (whole n)

/-- Whether so many methods call a method that its failure would be felt widely. -/
def isHub (α : Type) [Scalar m α] (method : Method) : m Bool := calledOver α 5 method

/-- The share of hubs and the height of the highest one; zero without hubs. -/
def singlePoint (methods : List Method) : m α := do
  let hubs ← select (isHub α) methods
  if hubs.isEmpty then zero
  else do
    let ratio : α ← quotient hubs.length methods.length
    let highest : α ← maxInDegree methods
    (pure ratio + capped (pure highest / whole 20)) / whole 2

/-- Architectural risk. -/
def architectural (known : String → String → Bool) (p : CallPath) : m α :=
  unit (hundredths 30 * crossLayer p.methods
    + hundredths 25 * circular p.methods
    + hundredths 25 * coupling known p
    + hundredths 20 * singlePoint p.methods)

/-! ## Changed methods -/

/-- The first occurrence of each changed method on the path, in path order. -/
def changedOn (changed : List String) : (seen : List String) → List Method → List Method
  | _, [] => []
  | seen, m :: rest =>
    if changed.contains m.id && !seen.contains m.id then m :: changedOn changed (m.id :: seen) rest
    else changedOn changed seen rest

/-- The impact of a changed method: its reach among callers and half its structural weight. -/
def impact (method : Method) : m α := do
  let reach : α ← decadesOf method.inDegree
  let structural : α ← capped ((measured method.complexity.toJson / whole 10
    + measured method.outDegree / whole 5) / whole 2)
  capped (pure reach + hundredths 50 * pure structural)

/-- Blast radius: the mean impact of the changed methods. -/
def blastRadius (changed : List Method) : m α :=
  if changed.isEmpty then zero else capped (mean (changed.map impact))

/-- Change complexity: complexity, size and parameters of the changed methods, and path length. -/
def changeComplexity (changed : List Method) (pathLength : Nat) : m α :=
  if changed.isEmpty then zero
  else
    mean
      [capped (mean (changed.map fun m => measured m.complexity.toJson) / whole 20),
       capped (mean (changed.map fun m => measured m.linesOfCode) / whole 100),
       capped (mean (changed.map fun m => sizeOf m.paramTypes) / whole 10),
       capped (quotient pathLength 10)]

/-! ## Data flow -/

/-- Whether a method touches state shared by all. -/
def sharesState (m : Method) : Bool :=
  m.hasAnnotation ["singleton", "component", "bean"] || m.nameHas ["static"]

/-- Whether a method runs concurrently with others. -/
def isConcurrent (m : Method) : Bool :=
  m.hasAnnotation ["async", "synchronized", "thread", "concurrent"]

/-- The risk of data access that is not, or not everywhere, guarded by transactions. -/
def consistency (methods : List Method) : m α :=
  let access := methods.countP fun m => m.layer.accessesData
  let transactional := methods.countP Method.isTransactional
  if 0 < access ∧ transactional = 0 then hundredths 80
  else if transactional < access then hundredths 50
  else hundredths 20

/-- Data-flow risk. -/
def dataFlow (methods : List Method) : m α :=
  unit (hundredths 40 * meanWhere sharesState methods
    + hundredths 30 * meanWhere isConcurrent methods
    + hundredths 30 * consistency methods)

/-! ## Details and confidence -/

/-- Whether a method is so complex that it is a risk of its own. -/
def isComplex (α : Type) [Scalar m α] (method : Method) : m Bool :=
  test .above (measured method.complexity.toJson : m α) (whole 15)

/-- Whether a method has a high fan-in. -/
def hasHighFanIn (α : Type) [Scalar m α] (method : Method) : m Bool := calledOver α 10 method

/-- Whether a method deserves attention on any path. -/
def isCritical (α : Type) [Scalar m α] (method : Method) : m Bool :=
  either (isHub α method)
    (either (isComplex α method) (pure (method.layer == .controller || !method.isTested)))

/-- The texts that hold, in order. -/
def texts (clauses : List (Bool × String)) : List String :=
  (clauses.filter (·.1)).map (·.2)

/-- What makes a path with the given layer violations risky, and what could be done. -/
def details (violations : α) (methods changed : List Method) : m RiskDetails := do
  let critical ← select (isCritical α) methods
  let someComplex ← anyOf (isComplex α) methods
  let someFanIn ← anyOf (hasHighFanIn α) methods
  let crossed ← test .above (pure violations) (hundredths 30 : m α)
  let complex ← test .above
    (mean (methods.map fun m => measured m.complexity.toJson) : m α) (whole 10)
  let untested ← test .below (meanWhere Method.isTested methods : m α) (hundredths 70)
  pure
    { criticalMethods := (critical.map (·.id)).eraseDups
      factors := texts
        [(someComplex, "High cyclomatic complexity"),
         (methods.any fun m => !m.isTested, "Missing test coverage"),
         (someFanIn, "High fan-in dependency"),
         (crossed, "Cross-layer call violations")]
      suggestions := texts
        [(complex, "Split complex methods to reduce cyclomatic complexity"),
         (untested, "Add unit tests for untested methods on this path"),
         (crossed, "Route calls through the service layer to restore layering")]
      impactedComponents := (changed.map Method.classId).eraseDups }

/-- How far a risk can be trusted: by path length, number of changes, tests and annotations. -/
def confidence (methods : List Method) (changedCount : Nat) : m α :=
  mean [capped (quotient methods.length 10), capped (quotient changedCount 5),
    meanOf (fun m => m.isTested && !m.annotations.isEmpty) (hundredths 50) methods]

/-! ## Weights -/

/-- The scores of a path, given the changed methods on it. -/
def scores (known : String → String → Bool) (p : CallPath) (onPath : List Method) :
    m (RiskScores α) := do
  let architectural : α ← architectural known p
  let blastRadius : α ← blastRadius onPath
  let changeComplexity : α ← changeComplexity onPath p.methods.length
  let dataFlow : α ← dataFlow p.methods
  let total ← unit (hundredths 35 * pure architectural + hundredths 30 * pure blastRadius
    + hundredths 25 * pure changeComplexity + hundredths 10 * pure dataFlow)
  pure { total, architectural, blastRadius, changeComplexity, dataFlow }

/-- The risk of a path with the given scores, the changed methods on it and the number of all
    changed ids. -/
def complete (s : RiskScores α) (p : CallPath) (onPath : List Method) (changedCount : Nat) :
    m (RiskWeight α) := do
  let level ← pathLevel s.total
  let confidence ← confidence p.methods changedCount
  let violations : α ← crossLayer p.methods
  let details ← details violations p.methods onPath
  pure { s with level, confidence, details }

/-- The risk of a path under a set of changed ids. -/
def weigh (known : String → String → Bool) (p : CallPath) (changed : List String) :
    m (RiskWeight α) := do
  let onPath := changedOn changed [] p.methods
  let s ← scores known p onPath
  complete s p onPath changed.eraseDups.length

/-! ## Single methods -/

/-- The exposure of a layer. -/
def layerRisk : Layer → m α
  | .controller => hundredths 70
  | .service => hundredths 50
  | .repository => hundredths 60
  | _ => hundredths 30

/-- A risk raised by some hundredths under a condition. -/
def raised (n : Nat) (condition : Bool) (risk : m α) : m α :=
  if condition then risk + hundredths n else risk

/-- The risk that the past of a project shows for a method; one half when nothing is known. -/
def historyRisk (method : Method) : Option ProjectHistory → m α
  | none => hundredths 50
  | some history =>
    capped (raised 40 (history.frequentFiles.any method.isIn)
      (raised 40 (history.hotspotMethods.contains method.id) (hundredths 20)))

/-- The concern that a method raises first. -/
def concernOf (method : Method) (total : α) : m Concern := do
  let exceeds := fun (n : Nat) => test .above (pure total) (hundredths n : m α)
  if ← both (pure (method.layer == .controller)) (exceeds 60) then pure .entryPoint
  else if ← isComplex α method then pure .complexity
  else if ← hasHighFanIn α method then pure .dependency
  else if ← both (pure !method.isTested) (exceeds 50) then pure .quality
  else if isConcurrent method then pure .concurrency
  else if method.layer.accessesData && !method.isTransactional then pure .data
  else pure .general

/-- How critical a method is for the program. -/
def criticality (method : Method) : m α :=
  capped (mean
    [measured method.inDegree / whole 10,
     if method.layer = .controller then one else hundredths 50,
     measured method.complexity.toJson / whole 20,
     if method.isTested then hundredths 20 else hundredths 80])

/-- The architectural risk of a method. -/
def methodArchitectural (method : Method) : m α :=
  unit (layerRisk method.layer * hundredths 50
    + (if method.isTransactional then hundredths 30 else zero))

/-- The risk of a method's complexity and size. -/
def methodComplexity (method : Method) : m α :=
  mean
    [grade [(5, 10), (10, 30), (15, 60)] 90 (measured method.complexity.toJson),
     grade [(20, 10), (50, 30), (100, 60)] 90 (measured method.linesOfCode)]

/-- The risk of a method's callers and callees. -/
def methodDependency (method : Method) : m α :=
  (capped (measured method.inDegree / whole 10) + capped (measured method.outDegree / whole 8))
    / whole 2

/-- The risk of a single method. -/
def weighMethod (method : Method) (history : Option ProjectHistory) : m (MethodRisk α) := do
  let architectural : α ← methodArchitectural method
  let complexity : α ← methodComplexity method
  let dependency : α ← methodDependency method
  let changeHistory : α ← historyRisk method history
  let total ← unit (hundredths 30 * pure architectural + hundredths 25 * pure complexity
    + hundredths 25 * pure dependency + hundredths 20 * pure changeHistory)
  let concern ← concernOf method total
  let criticality ← criticality method
  pure
    { methodId := method.id
      total, architectural, complexity, dependency, changeHistory, concern, criticality }

end Risk
end PathTriage
