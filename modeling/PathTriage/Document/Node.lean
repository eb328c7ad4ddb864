import PathTriage.Json.Value
import PathTriage.Model.Analysis
import PathTriage.Model.Change
import PathTriage.Model.Commit

/-!
Methods, classes, links, paths and findings as JSON documents.
-/

namespace PathTriage

/-- A name from a vocabulary as a JSON text. -/
def Json.ofName {α : Type} [Named α] (a : α) : Json := .string (Named.name a)

/-- A method as a document. -/
def Method.toJson (m : Method) : Json := .object
  [("id", .string m.id),
   ("method_name", .string m.name),
   ("block_type", .ofName m.layer),
   ("signature", m.signature),
   ("return_type", m.returnType),
   ("param_types", m.paramTypes),
   ("file_path", m.filePath),
   ("line_number", m.line),
   ("start_line", m.startLine),
   ("end_line", m.endLine),
   ("is_interface", m.isInterface),
   ("annotations", .ofStrings m.annotations),
   ("cyclomatic_complexity", m.complexity.toJson),
   ("lines_of_code", m.linesOfCode),
   ("has_tests", m.hasTests),
   ("in_degree", m.inDegree),
   ("out_degree", m.outDegree),
   ("risk_score", m.riskScore)]

/-- A class as a document. -/
def ClassEntry.toJson (c : ClassEntry) : Json := .object
  [("id", .string c.id),
   ("class_name", c.name),
   ("package_name", c.packageName),
   ("block_type", .ofName c.layer),
   ("file_path", c.filePath),
   ("is_interface", c.isInterface),
   ("is_abstract", c.isAbstract),
   ("implemented_interfaces", c.interfaces),
   ("super_class", c.superClass),
   ("annotations", c.annotations),
   ("method_count", c.methodCount),
   ("field_count", c.fieldCount),
   ("cohesion", c.cohesion),
   ("coupling", c.coupling),
   ("design_patterns", c.designPatterns)]

/-- A call as a document. -/
def Call.toJson (c : Call) : Json := .object
  [("id", .string c.label),
   ("caller_id", .string c.caller),
   ("callee_id", .string c.callee),
   ("call_type", .ofName c.kind),
   ("line_number", c.line),
   ("frequency", c.frequency),
   ("is_conditional", c.isConditional),
   ("context", c.context),
   ("intent_weight", c.intentWeight),
   ("risk_weight", c.riskWeight),
   ("is_new_in_change", c.isNew),
   ("is_modified_in_change", c.isModified)]

/-- An implementation as a document. -/
def Implementation.toJson (i : Implementation) : Json := .object
  [("id", .string i.label),
   ("interface_method_id", .string i.interfaceMethod),
   ("implementation_method_id", .string i.method),
   ("is_override", i.isOverride),
   ("implementation_quality", i.quality),
   ("follows_contract", i.followsContract)]

/-- A data flow as a document. -/
def DataFlow.toJson (f : DataFlow) : Json := .object
  [("id", .string f.label),
   ("source_id", .string f.source),
   ("target_id", .string f.target),
   ("data_type", f.dataType),
   ("flow_type", .ofName f.kind),
   ("is_sensitive", f.isSensitive)]

/-- A path as a document. -/
def CallPath.toJson (p : CallPath) : Json := .object
  [("id", .string p.id),
   ("path_type", .ofName p.pathClass),
   ("total_weight", p.totalWeight),
   ("hops", .ofInt p.hops),
   ("methods", .ofStrings p.methodIds),
   ("edges", .array (p.slots.map fun slot => .ofString? (slot.map Call.label)))]

/-- A method finding as a document. -/
def MethodFinding.toJson (m : MethodFinding) : Json := .object
  [("method_id", .string m.id),
   ("method_name", .string m.name),
   ("signature", m.signature),
   ("return_type", m.returnType),
   ("param_types", m.paramTypes),
   ("block_type", .ofName m.layer),
   ("is_interface", m.isInterface),
   ("annotations", .ofStrings m.annotations),
   ("file_path", m.filePath),
   ("line_number", m.line),
   ("start_line", m.startLine),
   ("end_line", m.endLine),
   ("cyclomatic_complexity", .number m.complexity),
   ("lines_of_code", m.linesOfCode),
   ("has_tests", m.hasTests)]

/-- A class finding as a document. -/
def ClassFinding.toJson (c : ClassFinding) : Json := .object
  [("class_name", c.name),
   ("qualified_name", .string c.qualifiedName),
   ("package_name", c.packageName),
   ("block_type", .ofName c.layer),
   ("is_interface", c.isInterface),
   ("is_abstract", c.isAbstract),
   ("annotations", c.annotations),
   ("implemented_interfaces", c.interfaces),
   ("super_class", c.superClass),
   ("method_count", c.methodCount),
   ("field_count", c.fieldCount),
   ("cohesion", c.cohesion),
   ("coupling", c.coupling),
   ("design_patterns", c.designPatterns)]

/-- A call finding as a document. -/
def CallFinding.toJson (c : CallFinding) : Json := .object
  [("caller_id", .string c.caller),
   ("callee_id", .string c.callee),
   ("call_type", .ofName c.kind),
   ("line_number", c.line),
   ("is_conditional", c.isConditional),
   ("context", c.context)]

/-- A file analysis as a document. -/
def FileAnalysis.toJson (a : FileAnalysis) : Json := .object
  [("file_path", .string a.filePath),
   ("classes", .array (a.classes.map (·.toJson))),
   ("methods", .array (a.methods.map (·.toJson))),
   ("call_relationships", .array (a.calls.map (·.toJson)))]

/-- A file change as a document. -/
def FileChange.toJson (c : FileChange) : Json := .object
  [("file_path", .string c.filePath),
   ("change_type", .ofName c.kind),
   ("modified_methods", .ofStrings c.modifiedMethods),
   ("added_methods", .ofStrings c.addedMethods),
   ("deleted_methods", .ofStrings c.deletedMethods),
   ("old_path", .ofString? c.oldPath)]

/-- The rating of a commit as a document. -/
def CommitIntent.toJson (i : CommitIntent) : Json := .object
  [("business_value", .ofFloat i.businessValue),
   ("risk_level", .ofFloat i.riskLevel),
   ("urgency", .ofFloat i.urgency)]

/-- A commit as a document, given the time that a missing timestamp stands for. -/
def Commit.toJson (now : String) (c : Commit) : Json := .object
  [("hash", .string c.hash),
   ("message", .string c.message),
   ("author", .string c.author),
   ("keywords", .ofStrings (c.keywords.mergeSort fun a b => decide (a ≤ b))),
   ("commit_type", .ofName c.kind),
   ("intent", c.intent.toJson),
   ("files_changed", .ofStrings c.filesChanged),
   ("lines_added", .ofInt c.linesAdded),
   ("lines_deleted", .ofInt c.linesDeleted),
   ("timestamp", .string (c.timestamp.getD now))]

end PathTriage
