import PathTriage.Batch
import PathTriage.Document.Field
import PathTriage.Model.Analysis
import PathTriage.Model.Change
import PathTriage.Store.Update

/-!
Records read from JSON documents: the nodes and links of a call graph, paths, findings, changes,
commits, and scores that were computed before. An absent field has its usual value and an unknown
field is ignored. Refused are a name outside its vocabulary, a path with too many calls, and an
attribute that the record has to look into and that is of the wrong kind.
-/

namespace PathTriage

/-- Why a document is no record. -/
inductive RecordError where
  | unknownName (e : UnknownName)
  | overfull (e : CallPath.Overfull)
  | failed (cause : Failure)
  | notText
deriving Repr, DecidableEq

/-- The message of a document that is no record. -/
def RecordError.message : RecordError → String
  | .unknownName e => e.message
  | .overfull e => e.message
  | .failed cause => cause.message
  | .notText => "an annotation is not a text"

/-- Reads a record of some kind. -/
abbrev Recorded := Except RecordError

namespace Record

/-- The layer of a node. -/
def layer (v : Json) : Recorded Layer :=
  (v.memberOr "BlockType" "block_type" Layer.other).mapError .unknownName

/-- The kind of a call. -/
def callKind (v : Json) : Recorded CallKind :=
  (v.memberOr "CallType" "call_type" CallKind.direct).mapError .unknownName

/-- The class of a path. -/
def pathClass (v : Json) : Recorded PathClass :=
  (v.memberOr "PathType" "path_type" PathClass.neutral).mapError .unknownName

/-- One annotation, which has to be a text. -/
def annotation : Json → Recorded String
  | .string s => .ok s
  | v =>
    match v.memberFailure? with
    | some cause => .error (.failed cause)
    | none => .error .notText

/-- The annotations of a node, as they stand. -/
def annotations (v : Json) : Recorded (List String) := do
  let given ← ((v.valueOr "annotations" (.array [])).elements).mapError .failed
  given.items.mapM annotation

/-- The elements of an attribute that is a list. -/
def elementsAt (key : String) (v : Json) : Recorded Json :=
  ((v.valueOr key (.array [])).elements).mapError .failed

/-! ## Nodes and links -/

/-- A method. -/
def method (v : Json) : Recorded Method := do
  let layer ← layer v
  let annotations ← annotations v
  let complexity ←
    (Complexity.ofGiven (v.valueOr "cyclomatic_complexity" (.ofInt 1))).mapError .failed
  pure
    { id := v.textAt "id"
      name := v.textAt "method_name"
      layer
      signature := v.valueOr "signature" (.string "")
      returnType := v.valueOr "return_type" (.string "void")
      paramTypes := v.valueOr "param_types" (.array [])
      filePath := v.valueOr "file_path" (.string "")
      line := v.valueOr "line_number" (.ofInt 0)
      startLine := v.valueOr "start_line" (.ofInt 0)
      endLine := v.valueOr "end_line" (.ofInt 0)
      isInterface := v.valueOr "is_interface" (.bool false)
      annotations := annotations.eraseDups
      complexity
      linesOfCode := v.valueOr "lines_of_code" (.ofInt 0)
      hasTests := v.valueOr "has_tests" (.bool false)
      inDegree := v.valueOr "in_degree" (.ofInt 0)
      outDegree := v.valueOr "out_degree" (.ofInt 0)
      riskScore := v.valueOr "risk_score" (.ofFloat 0) }

/-- A class. -/
def classEntry (v : Json) : Recorded ClassEntry := do
  let layer ← layer v
  pure
    { id := v.textAt "id"
      name := v.field "class_name"
      packageName := v.valueOr "package_name" (.string "")
      layer
      filePath := v.valueOr "file_path" (.string "")
      isInterface := v.valueOr "is_interface" (.bool false)
      isAbstract := v.valueOr "is_abstract" (.bool false)
      interfaces := v.valueOr "implemented_interfaces" (.array [])
      superClass := v.field "super_class"
      annotations := v.valueOr "annotations" (.array [])
      methodCount := v.valueOr "method_count" (.ofInt 0)
      fieldCount := v.valueOr "field_count" (.ofInt 0)
      cohesion := v.valueOr "cohesion" (.ofFloat 0)
      coupling := v.valueOr "coupling" (.ofFloat 0)
      designPatterns := v.valueOr "design_patterns" (.array []) }

/-- A call. -/
def call (v : Json) : Recorded Call := do
  let kind ← callKind v
  pure
    { caller := v.textAt "caller_id"
      callee := v.textAt "callee_id"
      kind
      line := v.valueOr "line_number" (.ofInt 0)
      frequency := v.valueOr "frequency" (.ofInt 1)
      isConditional := v.valueOr "is_conditional" (.bool false)
      context := v.field "context"
      intentWeight := v.valueOr "intent_weight" (.ofFloat 0.5)
      riskWeight := v.valueOr "risk_weight" (.ofFloat 0.5)
      isNew := v.valueOr "is_new_in_change" (.bool false)
      isModified := v.valueOr "is_modified_in_change" (.bool false) }

/-- An implementation of an interface method. -/
def implementation (v : Json) : Implementation where
  interfaceMethod := v.textAt "interface_method_id"
  method := v.textAt "implementation_method_id"
  isOverride := v.valueOr "is_override" (.bool true)
  quality := v.valueOr "implementation_quality" (.ofFloat 1)
  followsContract := v.valueOr "follows_contract" (.bool true)

/-- A flow of data. -/
def dataFlow (v : Json) : Recorded DataFlow := do
  let kind ← (v.memberOr "DataFlowType" "flow_type" FlowKind.parameter).mapError .unknownName
  pure
    { source := v.textAt "source_id"
      target := v.textAt "target_id"
      dataType := v.valueOr "data_type" (.string "")
      kind
      isSensitive := v.valueOr "is_sensitive" (.bool false) }

/-! ## Paths -/

/-- The slot of a hop: null where no call is known. -/
def slot : Json → Recorded (Option Call)
  | .null => .ok none
  | v => (call v).map some

/-- The calls of a path. A linked path has a plain call for every hop. -/
def slots (v : Json) (methods : List Method) : Recorded (List (Option Call)) :=
  if v.flagAt "linked" then
    .ok ((methods.zip methods.tail).map fun hop =>
      some { caller := hop.1.id, callee := hop.2.id })
  else (v.itemsAt "edges").mapM slot

/-- A path. -/
def path (v : Json) : Recorded CallPath := do
  let methods ← (v.itemsAt "methods").mapM method
  let calls ← slots v methods
  let pathClass ← pathClass v
  let p ← (CallPath.build (v.textAt "id") methods calls).mapError .overfull
  pure { p with pathClass, totalWeight := v.valueOr "total_weight" (.ofFloat 0) }

/-! ## Findings, changes and history -/

/-- A method found in a file. -/
def methodFinding (v : Json) : Recorded MethodFinding := do
  let layer ← layer v
  let paramTypes ← elementsAt "param_types" v
  let annotations ← annotations v
  let complexity ←
    (Complexity.number (v.valueOr "cyclomatic_complexity" (.ofInt 1))).mapError .failed
  pure
    { id := v.textAt "method_id"
      name := v.textAt "method_name"
      signature := v.valueOr "signature" (.string "")
      returnType := v.valueOr "return_type" (.string "void")
      paramTypes
      layer
      isInterface := v.valueOr "is_interface" (.bool false)
      annotations
      filePath := v.valueOr "file_path" (.string "")
      line := v.valueOr "line_number" (.ofInt 0)
      startLine := v.valueOr "start_line" (.ofInt 0)
      endLine := v.valueOr "end_line" (.ofInt 0)
      complexity
      linesOfCode := v.valueOr "lines_of_code" (.ofInt 0)
      hasTests := v.valueOr "has_tests" (.bool false) }

/-- A class found in a file. -/
def classFinding (v : Json) : Recorded ClassFinding := do
  let layer ← layer v
  let interfaces ← elementsAt "implemented_interfaces" v
  let annotations ← elementsAt "annotations" v
  let designPatterns ← elementsAt "design_patterns" v
  pure
    { name := v.field "class_name"
      qualifiedName := v.textAt "qualified_name"
      packageName := v.valueOr "package_name" (.string "")
      layer
      isInterface := v.valueOr "is_interface" (.bool false)
      isAbstract := v.valueOr "is_abstract" (.bool false)
      annotations
      interfaces
      superClass := v.field "super_class"
      methodCount := v.valueOr "method_count" (.ofInt 0)
      fieldCount := v.valueOr "field_count" (.ofInt 0)
      cohesion := v.valueOr "cohesion" (.ofFloat 0)
      coupling := v.valueOr "coupling" (.ofFloat 0)
      designPatterns }

/-- A call found in a file. -/
def callFinding (v : Json) : Recorded CallFinding := do
  let kind ← callKind v
  pure
    { caller := v.textAt "caller_id"
      callee := v.textAt "callee_id"
      kind
      line := v.valueOr "line_number" (.ofInt 0)
      isConditional := v.valueOr "is_conditional" (.bool false)
      context := v.field "context" }

/-- The analysis of a file. -/
def fileAnalysis (v : Json) : Recorded FileAnalysis := do
  let classes ← (v.itemsAt "classes").mapM classFinding
  let methods ← (v.itemsAt "methods").mapM methodFinding
  let calls ← (v.itemsAt "call_relationships").mapM callFinding
  pure { filePath := v.textAt "file_path", classes, methods, calls }

/-- A change of a file. -/
def fileChange (v : Json) : Recorded FileChange := do
  let kind ← (v.memberOr "ChangeType" "change_type" ChangeKind.modified).mapError .unknownName
  pure
    { filePath := v.textAt "file_path"
      kind
      modifiedMethods := v.textsAt "modified_methods"
      addedMethods := v.textsAt "added_methods"
      deletedMethods := v.textsAt "deleted_methods"
      oldPath := v.text? "old_path" }

/-- A commit, of which only the keywords matter. -/
def commit (v : Json) : Commit where
  hash := v.textAt "hash"
  keywords := (v.textsAt "keywords").eraseDups

/-- The commits of a history. -/
def commits (v : Json) : List Commit := (v.itemsAt "commits").map commit

/-- What is known of the project's past, if anything is. -/
def history (v : Json) : Option ProjectHistory :=
  match v.field "history" with
  | .object fields => some
      { hotspotMethods := (Json.object fields).textsAt "hotspot_methods"
        frequentFiles := (Json.object fields).textsAt "frequently_changed_files" }
  | _ => none

/-- The analyzer that answers from prepared analyses and prepared failures. -/
def analyzer (v : Json) : Recorded Analyzer := do
  let files ← (v.field "files").members.mapM fun f => do pure (f.1, ← fileAnalysis f.2)
  pure fun path =>
    match (v.field "fail").get? path with
    | some reason => .error reason.text
    | none =>
      match Fields.get? path files with
      | some found => .ok found
      | none => .error ("no analysis for " ++ path)

/-! ## Scores -/

/-- The intent of a path. -/
def intent (v : Json) : IntentWeight Json where
  total := v.valueOr "total" (.ofFloat 0.5)
  business := v.valueOr "business" (.ofFloat 0.5)
  completeness := v.valueOr "completeness" (.ofFloat 0.5)
  quality := v.valueOr "quality" (.ofFloat 0.5)
  confidence := v.valueOr "confidence" (.ofFloat 0.5)
  pathLength := 0
  keywords := v.textsAt "keywords"
  complexityGrade := .low
  coverageGrade := .low
  signs := ⟨.ofFloat 0, .ofFloat 0, .ofFloat 0, .ofFloat 0, .ofFloat 0⟩

/-- The risk of a path. -/
def risk (v : Json) : Recorded (RiskWeight Json) := do
  let level ← (v.memberOr "RiskLevel" "level" Level.low).mapError .unknownName
  pure
    { total := v.valueOr "total" (.ofFloat 0.2)
      architectural := v.valueOr "architectural" (.ofFloat 0.1)
      blastRadius := v.valueOr "blast" (.ofFloat 0)
      changeComplexity := v.valueOr "change" (.ofFloat 0)
      dataFlow := v.valueOr "data_flow" (.ofFloat 0.1)
      confidence := v.valueOr "confidence" (.ofFloat 0.5)
      level
      details := { factors := v.textsAt "factors" } }

/-- A classified path. -/
def analyzed (v : Json) : Recorded (Analyzed Json) := do
  let path ← path (v.field "path")
  let risk ← risk (v.field "risk")
  let pathClass ← pathClass v
  let priority ← (v.memberOr "PathPriority" "priority" Level.medium).mapError .unknownName
  pure
    { path, intent := intent (v.field "intent"), risk, pathClass, priority
      confidence := v.valueOr "confidence" (.ofFloat 0.5) }

/-! ## Requests for an analysis -/

/-- The thresholds of a request, if it has any. -/
def thresholds (v : Json) : Option (Thresholds Json) :=
  match v.field "thresholds" with
  | .object fields => some (Thresholds.ofFields fields)
  | _ => none

/-- The plan of a request, and what is reported while its settings are read. -/
def plan (v : Json) : Plan × List Event :=
  let (settings, events) := match v.field "config" with
    | .object fields => Settings.initial.applyFields fields
    | _ => (Settings.initial, [])
  match thresholds v with
  | some thresholds => ({ settings.plan with thresholds }, events)
  | none => (settings.plan, events)

/-- The change that a request asks about. -/
def context (v : Json) : ChangeContext where
  changed := v.textsAt "changed"
  commits := commits v

/-- Which scorings of a request fail, and which never finish. Of several failures of one scoring the
    last counts. -/
def interruption (v : Json) : TaskKind → String → Option Interruption :=
  let failing := ((v.itemsAt "fail").map Json.texts).reverse
  let stalling := (v.itemsAt "stall").map Json.texts
  fun kind id =>
    match failing.find? fun e => e.take 2 == [kind.name, id] with
    | some e => some (.failure ((e.drop 2).headD ""))
    | none => if stalling.contains [kind.name, id] then some .stall else none

/-- How the scorings of a request go. Some of them are still going on when the wait for them
    begins. -/
def course (v : Json) : Batch.Course where
  interrupt := interruption v
  awaited := true

end Record
end PathTriage
