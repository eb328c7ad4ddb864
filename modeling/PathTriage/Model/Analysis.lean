import PathTriage.Model.CallPath

/-!
What a source analysis reports about one file: its classes, its methods and the calls it makes.
-/

namespace PathTriage

/-- A method as found in a source file. An empty file path stands for the file of the analysis. -/
structure MethodFinding where
  id : String
  name : String
  signature : Json := .string ""
  returnType : Json := .string "void"
  paramTypes : Json := .array []
  layer : Layer := .other
  isInterface : Json := .bool false
  annotations : List String := []
  filePath : Json := .string ""
  line : Json := .ofInt 0
  startLine : Json := .ofInt 0
  endLine : Json := .ofInt 0
  complexity : Number := .int 1
  linesOfCode : Json := .ofInt 0
  hasTests : Json := .bool false

/-- A class as found in a source file. -/
structure ClassFinding where
  name : Json
  qualifiedName : String
  packageName : Json := .string ""
  layer : Layer := .other
  isInterface : Json := .bool false
  isAbstract : Json := .bool false
  annotations : Json := .array []
  interfaces : Json := .array []
  superClass : Json := .null
  methodCount : Json := .ofInt 0
  fieldCount : Json := .ofInt 0
  cohesion : Json := .ofFloat 0
  coupling : Json := .ofFloat 0
  designPatterns : Json := .array []

/-- A call as found in a source file. -/
structure CallFinding where
  caller : String
  callee : String
  kind : CallKind := .direct
  line : Json := .ofInt 0
  isConditional : Json := .bool false
  context : Json := .null

/-- The analysis of one file. -/
structure FileAnalysis where
  filePath : String
  classes : List ClassFinding := []
  methods : List MethodFinding := []
  calls : List CallFinding := []

/-- The method that a finding describes, with each annotation once and no degrees or risk yet. -/
def MethodFinding.toMethod (f : MethodFinding) : Method where
  id := f.id
  name := f.name
  layer := f.layer
  signature := f.signature
  returnType := f.returnType
  paramTypes := f.paramTypes
  filePath := f.filePath
  line := f.line
  startLine := f.startLine
  endLine := f.endLine
  isInterface := f.isInterface
  annotations := f.annotations.eraseDups
  complexity := .ofNumber f.complexity
  linesOfCode := f.linesOfCode
  hasTests := f.hasTests

/-- The class that a finding in a file describes. -/
def ClassFinding.toEntry (f : ClassFinding) (filePath : String) : ClassEntry where
  id := f.qualifiedName
  name := f.name
  packageName := f.packageName
  layer := f.layer
  filePath := .string filePath
  isInterface := f.isInterface
  isAbstract := f.isAbstract
  interfaces := f.interfaces
  superClass := f.superClass
  annotations := f.annotations
  methodCount := f.methodCount
  fieldCount := f.fieldCount
  cohesion := f.cohesion
  coupling := f.coupling
  designPatterns := f.designPatterns

/-- The call that a finding describes. -/
def CallFinding.toCall (f : CallFinding) : Call where
  caller := f.caller
  callee := f.callee
  kind := f.kind
  line := f.line
  isConditional := f.isConditional
  context := f.context

/-- The methods of a file, each placed in the file unless it names another one. -/
def FileAnalysis.methodNodes (a : FileAnalysis) : List Method :=
  a.methods.map fun f =>
    let m := f.toMethod
    if m.filePath.isTrue then m else { m with filePath := .string a.filePath }

/-- The classes of a file. -/
def FileAnalysis.classNodes (a : FileAnalysis) : List ClassEntry :=
  a.classes.map fun f => f.toEntry a.filePath

/-- The calls of a file. -/
def FileAnalysis.callLinks (a : FileAnalysis) : List Call := a.calls.map (·.toCall)

end PathTriage
