import PathTriage.Lexicon
import PathTriage.Model.CallPath
import PathTriage.Model.Level
import PathTriage.Scalar

/-!
Intent: how much lasting business value a path or a method carries.

Three scores in the unit interval are combined 0.4 / 0.35 / 0.25. Business value looks at words
shared with the commit history, business vocabulary, layer and popularity. Completeness looks at
exception handling, tests, validation, logging and resource management. Code quality looks at
complexity, duplication, naming and the calls that are evidence for the hops.
-/

namespace PathTriage

/-- The shares of methods that satisfy each sign of a complete implementation. -/
structure Completeness (α : Type) where
  exceptionHandling : α
  testCoverage : α
  parameterValidation : α
  logging : α
  resourceManagement : α

/-- The intent of a path. -/
structure IntentWeight (α : Type) where
  total : α
  business : α
  completeness : α
  quality : α
  confidence : α
  pathLength : Nat
  keywords : List String
  complexityGrade : Level
  coverageGrade : Level
  signs : Completeness α

/-- The intent of a single method. -/
structure MethodIntent (α : Type) where
  methodId : String
  weight : α
  business : α
  completeness : α
  quality : α
  purpose : Purpose
  confidence : α

namespace Intent

open Condition Scalar

variable {m : Type → Type} [Monad m] {α : Type} [Scalar m α]

/-! ## Business value -/

/-- The share of the path's keywords that commits mention; one half when there is no history. -/
def keywordOverlap (methods : List Method) (history : List Commit) : m α :=
  if history.isEmpty then hundredths 50
  else
    let keywords := Lexicon.keywordsOf methods
    let mentioned := Lexicon.keywordsOfCommits history
    quotient (keywords.filter mentioned.contains).length (max keywords.length 1)

/-- The share of methods whose names are business vocabulary. -/
def semanticMatch (methods : List Method) : m α := meanWhere Lexicon.mentionsBusiness methods

/-- The business importance of a layer. -/
def layerWeight : Layer → m α
  | .controller => hundredths 90
  | .service => hundredths 80
  | .component => hundredths 70
  | .repository => hundredths 60
  | .entity => hundredths 50
  | .config => hundredths 40
  | .dto => hundredths 40
  | .vo => hundredths 40
  | .util => hundredths 30
  | _ => hundredths 20

/-- The mean importance of the layers on the path. -/
def layerImportance (methods : List Method) : m α := mean (methods.map fun m => layerWeight m.layer)

/-- The mean popularity: the decades spanned by the number of callers, at most one each. -/
def activity (methods : List Method) : m α :=
  mean (methods.map fun m => capped (decadesOf m.inDegree))

/-- Business value. -/
def businessValue (methods : List Method) (history : List Commit) : m α :=
  unit (hundredths 30 * keywordOverlap methods history
    + hundredths 25 * semanticMatch methods
    + hundredths 25 * layerImportance methods
    + hundredths 20 * activity methods)

/-! ## Completeness -/

/-- Whether a method deals with exceptions. -/
def handlesExceptions (m : Method) : Bool :=
  m.hasAnnotation ["throws"] || m.nameHas ["try", "handle"]

/-- Whether a method checks its parameters. -/
def validatesParameters (m : Method) : Bool :=
  m.hasAnnotation ["valid", "notnull", "nullable"] || m.nameHas ["validate"]

/-- Whether a method has callees. -/
def callsOthers (α : Type) [Scalar m α] (method : Method) : m Bool :=
  test .above (measured method.outDegree : m α) (whole 0)

/-- Whether a method is taken to log: it calls something from a layer that logs. -/
def logs (α : Type) [Scalar m α] (method : Method) : m Bool :=
  both (callsOthers α method) (pure (method.layer == .service || method.layer == .controller))

/-- Whether a method manages resources. -/
def managesResources (m : Method) : Bool :=
  m.hasAnnotation ["transactional", "closeable", "autowired"]

/-- The share of methods with each sign of completeness. -/
def signs (methods : List Method) : m (Completeness α) := do
  let exceptionHandling ← meanWhere handlesExceptions methods
  let testCoverage ← meanWhere Method.isTested methods
  let parameterValidation ← meanWhere validatesParameters methods
  let logging ← meanIf (logs α) methods
  let resourceManagement ← meanWhere managesResources methods
  pure { exceptionHandling, testCoverage, parameterValidation, logging, resourceManagement }

/-- Completeness by the shares of its signs. -/
def completenessOf (s : Completeness α) : m α :=
  unit (total
    [hundredths 30 * pure s.exceptionHandling, hundredths 25 * pure s.testCoverage,
     hundredths 20 * pure s.parameterValidation, hundredths 15 * pure s.logging,
     hundredths 10 * pure s.resourceManagement])

/-- Completeness. -/
def completeness (methods : List Method) : m α := do completenessOf (← signs methods)

/-! ## Code quality -/

/-- The mean complexity. -/
def averageComplexity (methods : List Method) : m α :=
  mean (methods.map fun m => measured m.complexity.toJson)

/-- The penalty for a mean complexity. -/
def complexityPenalty (methods : List Method) : m α :=
  grade [(5, 0), (10, 20), (15, 50)] 80 (averageComplexity methods)

/-- What tells methods apart in the search for duplicates: the signature, or the id without one. -/
def identity (m : Method) : Json := if m.signature.isTrue then m.signature else .string m.id

/-- Half the share of methods that repeat an earlier one. -/
def duplicationPenalty (methods : List Method) : m α :=
  if methods.isEmpty then zero
  else do
    let identities := methods.map identity
    Scalar.guard (α := α) (identities.findSome? Json.memberFailure?)
    (one - quotient (identities.eraseDupsBy Json.sameMember).length methods.length)
      * hundredths 50

/-- The share of methods with a customary name. -/
def naming (methods : List Method) : m α :=
  meanWhere (fun m => Lexicon.isCustomaryName m.name) methods

/-- The share of hops with a call as evidence; one for a path without hops. -/
def connectivity (known : String → String → Bool) (p : CallPath) : m α :=
  if p.hops = 0 then one else quotient (p.resolvedCalls known).length p.hops

/-- Code quality. -/
def codeQuality (known : String → String → Bool) (p : CallPath) : m α :=
  unit (one
    - hundredths 30 * complexityPenalty p.methods
    - hundredths 25 * duplicationPenalty p.methods
    + hundredths 15 * (naming p.methods - hundredths 50)
    + hundredths 10 * (connectivity known p - hundredths 50))

/-! ## Grades and confidence -/

/-- The grade of a mean complexity. -/
def complexityGrade (average : α) : m Level := do
  if ← test .atMost (pure average) (whole 5 : m α) then pure .low
  else if ← test .atMost (pure average) (whole 10 : m α) then pure .medium
  else pure .high

/-- The grade of a test coverage. -/
def coverageGrade (coverage : α) : m Level := do
  if ← test .atLeast (pure coverage) (hundredths 80 : m α) then pure .high
  else if ← test .atLeast (pure coverage) (hundredths 50 : m α) then pure .medium
  else pure .low

/-- How far an intent can be trusted: by path length, size of the history and tests. -/
def confidence (methods : List Method) (historySize : Nat) : m α :=
  mean [capped (quotient methods.length 5), capped (quotient historySize 50),
    meanOf Method.isTested (hundredths 50) methods]

/-! ## Weights -/

/-- The combination of the three scores. -/
def combine (business completeness quality : α) : m α :=
  unit (hundredths 40 * pure business + hundredths 35 * pure completeness
    + hundredths 25 * pure quality)

/-- The intent of a path. -/
def weigh (known : String → String → Bool) (p : CallPath) (history : List Commit) :
    m (IntentWeight α) := do
  let business : α ← businessValue p.methods history
  let shares : Completeness α ← signs p.methods
  let complete : α ← completeness p.methods
  let quality : α ← codeQuality known p
  let total ← combine business complete quality
  let confidence ← confidence p.methods history.length
  let average : α ← averageComplexity p.methods
  let coverage : α ← meanWhere Method.isTested p.methods
  let complexityGrade ← complexityGrade average
  let coverageGrade ← coverageGrade coverage
  pure
    { total, business, quality, confidence, complexityGrade, coverageGrade
      completeness := complete
      pathLength := p.methods.length
      keywords := Lexicon.keywordsOf p.methods
      signs := shares }

/-- The quality of a single method by its complexity. -/
def methodQuality (method : Method) : m α :=
  grade [(5, 90), (10, 70), (15, 50)] 30 (measured method.complexity.toJson)

/-- A confidence raised by some hundredths under a condition. -/
def raised (n : Nat) (condition : m Bool) (c : m α) : m α := do
  let c ← c
  if ← condition then pure c + hundredths n else pure c

/-- The confidence in the intent of a single method: one half, and more for each good sign. -/
def methodConfidence (method : Method) : m α :=
  capped
    (raised 10 (test .above (measured method.inDegree : m α) (whole 0))
      (raised 10 (test .atMost (measured method.complexity.toJson : m α) (whole 10))
        (raised 10 (pure !method.annotations.isEmpty)
          (raised 20 (pure method.isTested) (hundredths 50)))))

/-- The intent of a single method. -/
def weighMethod (method : Method) (history : List Commit) : m (MethodIntent α) := do
  let business : α ← businessValue [method] history
  let complete : α ← completeness [method]
  let quality : α ← methodQuality method
  let confidence ← methodConfidence method
  let weight ← combine business complete quality
  pure
    { methodId := method.id
      weight, business, quality, confidence
      completeness := complete
      purpose := Lexicon.purposeOf method.name }

end Intent
end PathTriage
