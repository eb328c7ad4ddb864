import PathTriage.Json.Value
import PathTriage.Model.Layer
import PathTriage.Text.Casing
import PathTriage.Text.Occurrence

/-!
Methods and classes, the nodes of a call graph.

A method's id has the form `pkg.Class#method(ParamA,ParamB)`; the class is read off the id. The two
degrees of a method are kept by the store that holds it. Attributes that identify or classify a node
have types of their own. All others are kept as they were given, of whatever kind; those that enter
a score are looked into only when the score is computed.
-/

namespace PathTriage

/-- Cyclomatic complexity: one, or a number above it. -/
abbrev Complexity := { n : Number // n = .int 1 ∨ (Number.int 1).lt n = true }

namespace Complexity

/-- The least complexity. -/
def least : Complexity := ⟨.int 1, .inl rfl⟩

/-- The complexity of a measured number, raised to one where it is not above it. -/
def ofNumber (n : Number) : Complexity :=
  if h : (Number.int 1).lt n = true then ⟨n, .inr h⟩ else least

/-- The number that a complexity is given by. -/
def number (v : Json) : Except Failure Number :=
  match v.number? with
  | some n => .ok n
  | none => .error (.operands (.compare .above) v.kind .integer)

/-- The complexity of a given value, which has to be a number. -/
def ofGiven (v : Json) : Except Failure Complexity := (number v).map ofNumber

/-- A measured complexity of at least one is kept as it is. -/
theorem val_ofNumber_int {n : Int} (h : 1 ≤ n) : (ofNumber (.int n)).val = .int n := by
  unfold ofNumber
  split
  · rfl
  · next hn =>
    have : n = 1 := by
      simp only [Number.lt, decide_eq_true_eq] at hn
      omega
    rw [this]
    rfl

/-- The complexity as a value. -/
def toJson (c : Complexity) : Json := .number c.val

end Complexity

/-- A method of the analysed program. -/
structure Method where
  id : String
  name : String
  layer : Layer := .other
  signature : Json := .string ""
  returnType : Json := .string "void"
  paramTypes : Json := .array []
  filePath : Json := .string ""
  line : Json := .ofInt 0
  startLine : Json := .ofInt 0
  endLine : Json := .ofInt 0
  isInterface : Json := .bool false
  annotations : List String := []
  complexity : Complexity := .least
  linesOfCode : Json := .ofInt 0
  hasTests : Json := .bool false
  inDegree : Json := .ofInt 0
  outDegree : Json := .ofInt 0
  riskScore : Json := .ofFloat 0

namespace Method

/-- The id of a method of a class with parameters of the given types. -/
def idOf (className methodName : String) (paramTypes : List String) : String :=
  className ++ "#" ++ methodName ++ "(" ++ ",".intercalate paramTypes ++ ")"

/-- The qualified name of the class that declares the method: its id up to the first `#`. -/
def classId (m : Method) : String := Text.beforeFirst '#' m.id

/-- The simple name of the class that declares the method: its qualified name after the last dot. -/
def className (m : Method) : String := Text.afterLast '.' m.classId

/-- Whether some annotation contains one of the fragments, whatever the case of either. -/
def hasAnnotation (m : Method) (fragments : List String) : Bool :=
  m.annotations.any fun a =>
    let a := Text.lower a
    fragments.any fun f => Text.occursIn (Text.lower f) a

/-- Whether the lower-cased name of the method contains one of the hints. -/
def nameHas (m : Method) (hints : List String) : Bool :=
  let name := Text.lower m.name
  hints.any fun h => Text.occursIn h name

/-- Whether the method runs in a transaction. -/
def isTransactional (m : Method) : Bool := m.hasAnnotation ["transactional"]

/-- Whether the method has tests. -/
def isTested (m : Method) : Bool := m.hasTests.isTrue

/-- Whether a file owns the method. -/
def isIn (m : Method) (filePath : String) : Bool := m.filePath.isText filePath

end Method

/-- A class of the analysed program. -/
structure ClassEntry where
  id : String
  name : Json
  packageName : Json := .string ""
  layer : Layer := .other
  filePath : Json := .string ""
  isInterface : Json := .bool false
  isAbstract : Json := .bool false
  interfaces : Json := .array []
  superClass : Json := .null
  annotations : Json := .array []
  methodCount : Json := .ofInt 0
  fieldCount : Json := .ofInt 0
  cohesion : Json := .ofFloat 0
  coupling : Json := .ofFloat 0
  designPatterns : Json := .array []

/-- Whether a file owns the class. -/
def ClassEntry.isIn (c : ClassEntry) (filePath : String) : Bool := c.filePath.isText filePath

/-- The qualified name of a class in a package; the empty package adds nothing. -/
def ClassEntry.idOf (packageName className : String) : String :=
  if packageName.isEmpty then className else packageName ++ "." ++ className

end PathTriage
