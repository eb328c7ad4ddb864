import PathTriage.Model.Analysis
import PathTriage.Payload.Field

/-!
Payloads of source analyses: methods, classes, calls, files and whole projects.
-/

namespace PathTriage.Payload

/-! ## Attributes as values -/

/-- A text, kept as a value. -/
def textValue : Check Json := fun v => (text v).map .string

/-- A text or null, kept as a value. -/
def textOrNullValue : Check Json := fun v => (textOrNull v).map .ofString?

/-- A list of texts, kept as a value. -/
def textsValue : Check Json := fun v => (list text v).map .ofStrings

/-- A truth value, kept as a value. -/
def flagValue : Check Json := fun v => (boolean v).map .bool

/-- A count, kept as a value. -/
def countValue : Check Json := fun v => (integerFrom 0 v).map .ofInt

/-- A share of the unit interval, kept as a value. -/
def shareValue : Check Json := fun v => (unitNumber v).map .ofFloat

/-- A complexity as it was measured. -/
def complexity : Check Number := fun v => (integerFrom 1 v).map .int

/-! ## Findings -/

/-- A method of an analysed file. -/
def methodFinding : Check MethodFinding :=
  object "MethodAnalysisBody" fun f =>
    MethodFinding.mk
      <$> required f "method_id" nonEmptyText
      <*> required f "method_name" nonEmptyText
      <*> optional f "signature" (.string "") textValue
      <*> optional f "return_type" (.string "void") textValue
      <*> optional f "param_types" (.array []) textsValue
      <*> optional f "block_type" .other (member Layer)
      <*> optional f "is_interface" (.bool false) flagValue
      <*> optional f "annotations" [] (list text)
      <*> optional f "file_path" (.string "") textValue
      <*> optional f "line_number" (.ofInt 0) countValue
      <*> optional f "start_line" (.ofInt 0) countValue
      <*> optional f "end_line" (.ofInt 0) countValue
      <*> optional f "cyclomatic_complexity" (.int 1) complexity
      <*> optional f "lines_of_code" (.ofInt 0) countValue
      <*> optional f "has_tests" (.bool false) flagValue

/-- A class of an analysed file. -/
def classFinding : Check ClassFinding :=
  object "ClassAnalysisBody" fun f =>
    ClassFinding.mk
      <$> (Json.string <$> required f "class_name" nonEmptyText)
      <*> required f "qualified_name" nonEmptyText
      <*> optional f "package_name" (.string "") textValue
      <*> optional f "block_type" .other (member Layer)
      <*> optional f "is_interface" (.bool false) flagValue
      <*> optional f "is_abstract" (.bool false) flagValue
      <*> optional f "annotations" (.array []) textsValue
      <*> optional f "implemented_interfaces" (.array []) textsValue
      <*> optional f "super_class" .null textOrNullValue
      <*> optional f "method_count" (.ofInt 0) countValue
      <*> optional f "field_count" (.ofInt 0) countValue
      <*> optional f "cohesion" (.ofFloat 0) shareValue
      <*> optional f "coupling" (.ofFloat 0) shareValue
      <*> optional f "design_patterns" (.array []) textsValue

/-- A call of an analysed file. -/
def callFinding : Check CallFinding :=
  object "CallRelationshipBody" fun f =>
    CallFinding.mk
      <$> required f "caller_id" nonEmptyText
      <*> required f "callee_id" nonEmptyText
      <*> optional f "call_type" .direct (member CallKind)
      <*> optional f "line_number" (.ofInt 0) countValue
      <*> optional f "is_conditional" (.bool false) flagValue
      <*> optional f "context" .null textOrNullValue

/-- An analysed file. -/
def fileAnalysis : Check FileAnalysis :=
  object "FileAnalysisBody" fun f =>
    FileAnalysis.mk
      <$> required f "file_path" nonEmptyText
      <*> optional f "classes" [] (list classFinding)
      <*> optional f "methods" [] (list methodFinding)
      <*> optional f "call_relationships" [] (list callFinding)

/-- The analyses of a whole project. -/
def bundle : Check (List FileAnalysis) :=
  object "AnalysisBundleBody" fun f => optional f "files" [] (list fileAnalysis)

end PathTriage.Payload
