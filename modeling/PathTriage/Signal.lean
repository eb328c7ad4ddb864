import PathTriage.Lexicon
import PathTriage.Model.CallPath
import PathTriage.Scalar

/-!
Structural signals that can be read off a call path.
-/

namespace PathTriage.Signal

variable {m : Type → Type} [Monad m] {α : Type} [Scalar m α]

/-- A controller method on the path is mapped to a route. -/
def hasNewEndpoint (p : CallPath) : Bool :=
  p.methods.any fun m => m.layer == .controller && m.hasAnnotation ["mapping"]

/-- A method on the path serves a REST request. -/
def isRestful (p : CallPath) : Bool :=
  p.methods.any fun m => m.hasAnnotation
    ["restcontroller", "getmapping", "postmapping", "putmapping", "deletemapping", "patchmapping"]

/-- A method on the path belongs to a data model. -/
def changesDataModel (p : CallPath) : Bool := p.methods.any fun m => m.layer.modelsData

/-- An entity on the path is at the core of the business. -/
def touchesCoreEntity (p : CallPath) : Bool :=
  p.methods.any fun m =>
    m.layer == .entity && Lexicon.coreEntities.any fun name => Text.occursIn name m.id

/-- A method on the path reaches stored data. -/
def accessesData (p : CallPath) : Bool := p.methods.any fun m => m.layer.accessesData

/-- A method on the path runs in a transaction. -/
def isTransactional (p : CallPath) : Bool := p.methods.any Method.isTransactional

/-- A method on the path calls another service. -/
def callsOutside (p : CallPath) : Bool :=
  p.methods.any fun m => m.hasAnnotation ["feignclient", "resttemplate"]

/-- A method on the path is marked as sensitive. -/
def isSensitive (p : CallPath) : Bool :=
  p.methods.any fun m => m.hasAnnotation
    ["secured", "preauthorize", "rolesallowed", "encrypted", "sensitive"]

/-- The last method with an id. -/
def methodWith? (methods : List Method) (id : String) : Option Method :=
  methods.reverse.find? fun m => m.id == id

/-- The forbidden pair of layers that a call on the path connects. -/
def forbiddenPair? (methods : List Method) (c : Call) : Option (Layer × Layer) := do
  let caller ← methodWith? methods c.caller
  let callee ← methodWith? methods c.callee
  if caller.layer.forbidsCall callee.layer then some (caller.layer, callee.layer) else none

/-- The first forbidden pair of layers that a call on the path connects. -/
def layerViolation? (p : CallPath) : Option (Layer × Layer) :=
  p.presentCalls.findSome? (forbiddenPair? p.methods)

/-- The label of a pair of layers. -/
def pairLabel (pair : Layer × Layer) : String := Named.name pair.1 ++ "->" ++ Named.name pair.2

/-- A call on the path connects a forbidden pair of layers. -/
def hasLayerViolation (p : CallPath) : Bool := (layerViolation? p).isSome

/-- A method stands on the path twice. -/
def isCircular (p : CallPath) : Bool := p.methodIds.length != p.methodIds.eraseDups.length

/-- The share of methods on the path that have tests. -/
def testCoverage (p : CallPath) : m α :=
  Scalar.share (p.methods.countP Method.isTested) p.methods.length

/-- The mean complexity on the path. -/
def averageComplexity (p : CallPath) : m α :=
  Scalar.mean (p.methods.map fun m => Scalar.measured m.complexity.toJson)

/-- The mean number of lines of a method on the path. -/
def averageLength (p : CallPath) : m α :=
  Scalar.mean (p.methods.map fun m => Scalar.measured m.linesOfCode)

/-- The business terms in the names on the path, in the order of the vocabulary. -/
def businessTerms (p : CallPath) : List String := Lexicon.termsOf p.methods

end PathTriage.Signal
