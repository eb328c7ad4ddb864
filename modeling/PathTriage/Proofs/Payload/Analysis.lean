import PathTriage.Payload.Analysis
import PathTriage.Proofs.Payload

/-!
What payloads of analyses are accepted, and what is then read off them.

For each record there are two statements about its fields: `Mirrors` says which key each of them is
read from, as what, and what it is without the key; `InBounds` says what its bounds are. The check
of the record accepts an object exactly when there is a record that mirrors it and is in bounds, and
gives that record. `accepts_bundle` puts this together for the analyses of a whole project.
-/

namespace PathTriage

open Payload

/-! ## Records and the objects that they mirror -/

/-- A key that is not listed here has no meaning for a method, and likewise below. -/
structure MethodFinding.Mirrors (fields : Fields Json) (f : MethodFinding) : Prop where
  id : Given fields "method_id" .text f.id
  name : Given fields "method_name" .text f.name
  signature : GivenOr (.string "") fields "signature" (.as .text .string) f.signature
  returnType : GivenOr (.string "void") fields "return_type" (.as .text .string) f.returnType
  paramTypes : GivenOr (.array []) fields "param_types" (.as (.list .text) .ofStrings) f.paramTypes
  layer : GivenOr .other fields "block_type" .member f.layer
  isInterface : GivenOr (.bool false) fields "is_interface" (.as .flag .bool) f.isInterface
  annotations : GivenOr [] fields "annotations" (.list .text) f.annotations
  filePath : GivenOr (.string "") fields "file_path" (.as .text .string) f.filePath
  line : GivenOr (.ofInt 0) fields "line_number" (.as .integer .ofInt) f.line
  startLine : GivenOr (.ofInt 0) fields "start_line" (.as .integer .ofInt) f.startLine
  endLine : GivenOr (.ofInt 0) fields "end_line" (.as .integer .ofInt) f.endLine
  complexity : GivenOr (.int 1) fields "cyclomatic_complexity" (.as .integer .int) f.complexity
  linesOfCode : GivenOr (.ofInt 0) fields "lines_of_code" (.as .integer .ofInt) f.linesOfCode
  hasTests : GivenOr (.bool false) fields "has_tests" (.as .flag .bool) f.hasTests

/-- A class is asked for its simple and its qualified name; its superclass may be `null`. -/
structure ClassFinding.Mirrors (fields : Fields Json) (f : ClassFinding) : Prop where
  name : Given fields "class_name" (.as .text .string) f.name
  qualifiedName : Given fields "qualified_name" .text f.qualifiedName
  packageName : GivenOr (.string "") fields "package_name" (.as .text .string) f.packageName
  layer : GivenOr .other fields "block_type" .member f.layer
  isInterface : GivenOr (.bool false) fields "is_interface" (.as .flag .bool) f.isInterface
  isAbstract : GivenOr (.bool false) fields "is_abstract" (.as .flag .bool) f.isAbstract
  annotations : GivenOr (.array []) fields "annotations" (.as (.list .text) .ofStrings)
    f.annotations
  interfaces : GivenOr (.array []) fields "implemented_interfaces" (.as (.list .text) .ofStrings)
    f.interfaces
  superClass : GivenOr .null fields "super_class" (.as .textOrNull .ofString?) f.superClass
  methodCount : GivenOr (.ofInt 0) fields "method_count" (.as .integer .ofInt) f.methodCount
  fieldCount : GivenOr (.ofInt 0) fields "field_count" (.as .integer .ofInt) f.fieldCount
  cohesion : GivenOr (.ofFloat 0) fields "cohesion" (.as .number .ofFloat) f.cohesion
  coupling : GivenOr (.ofFloat 0) fields "coupling" (.as .number .ofFloat) f.coupling
  designPatterns : GivenOr (.array []) fields "design_patterns" (.as (.list .text) .ofStrings)
    f.designPatterns

/-- A call without a type counts as direct. -/
structure CallFinding.Mirrors (fields : Fields Json) (f : CallFinding) : Prop where
  caller : Given fields "caller_id" .text f.caller
  callee : Given fields "callee_id" .text f.callee
  kind : GivenOr .direct fields "call_type" .member f.kind
  line : GivenOr (.ofInt 0) fields "line_number" (.as .integer .ofInt) f.line
  isConditional : GivenOr (.bool false) fields "is_conditional" (.as .flag .bool) f.isConditional
  context : GivenOr .null fields "context" (.as .textOrNull .ofString?) f.context

/-- The findings of a file are those of its lists, in order and one for one. -/
structure FileAnalysis.Mirrors (fields : Fields Json) (a : FileAnalysis) : Prop where
  filePath : Given fields "file_path" .text a.filePath
  classes : GivenOr [] fields "classes" (.list (.object ClassFinding.Mirrors)) a.classes
  methods : GivenOr [] fields "methods" (.list (.object MethodFinding.Mirrors)) a.methods
  calls : GivenOr [] fields "call_relationships" (.list (.object CallFinding.Mirrors)) a.calls

/-! ## Bounds of records -/

/-- A method has an id and a name, its lines are counted from zero and its complexity from one. Its
    texts and flags may be anything. -/
structure MethodFinding.InBounds (f : MethodFinding) : Prop where
  id : IsNonEmpty f.id
  name : IsNonEmpty f.name
  line : IsCount f.line
  startLine : IsCount f.startLine
  endLine : IsCount f.endLine
  complexity : IsComplexity f.complexity
  linesOfCode : IsCount f.linesOfCode

/-- Cohesion and coupling are shares, from zero to one and never no number at all. -/
structure ClassFinding.InBounds (f : ClassFinding) : Prop where
  name : IsName f.name
  qualifiedName : IsNonEmpty f.qualifiedName
  methodCount : IsCount f.methodCount
  fieldCount : IsCount f.fieldCount
  cohesion : IsShare f.cohesion
  coupling : IsShare f.coupling

/-- A call has both of its ends. That they are stored methods is not asked for here. -/
structure CallFinding.InBounds (f : CallFinding) : Prop where
  caller : IsNonEmpty f.caller
  callee : IsNonEmpty f.callee
  line : IsCount f.line

/-- One finding out of bounds puts the whole file out of bounds. -/
structure FileAnalysis.InBounds (a : FileAnalysis) : Prop where
  filePath : IsNonEmpty a.filePath
  classes : ∀ f ∈ a.classes, f.InBounds
  methods : ∀ f ∈ a.methods, f.InBounds
  calls : ∀ f ∈ a.calls, f.InBounds

/-- The measures of a method are integers, and its complexity is at least one. -/
structure MethodFinding.IsCounted (f : MethodFinding) : Prop where
  complexity : ∃ n : Int, 1 ≤ n ∧ f.complexity = .int n
  linesOfCode : ∃ n : Int, f.linesOfCode = .ofInt n

/-- What the bounds ensure about the measures that scores are computed from. -/
theorem MethodFinding.InBounds.isCounted {f : MethodFinding} (h : f.InBounds) : f.IsCounted := by
  obtain ⟨n, -, hn⟩ := h.linesOfCode
  exact ⟨h.complexity, n, hn⟩

namespace Payload

/-! ## Attributes as values -/

theorem accepts_texts : Accepts (list text) (.list .text) Unbounded := by
  intro v xs
  simp [accepts_text.list v xs, Unbounded]

theorem accepts_textValue : Accepts textValue (.as .text .string) Unbounded :=
  accepts_text.as fun _ => Iff.rfl

/-- A name that is kept as a value, and still must not be empty. -/
theorem accepts_nameValue :
    Accepts (fun v => (nonEmptyText v).map Json.string) (.as .text .string) IsName :=
  accepts_nonEmptyText.as fun s => by simp [IsName]

theorem accepts_textOrNullValue : Accepts textOrNullValue (.as .textOrNull .ofString?) Unbounded :=
  accepts_textOrNull.as fun _ => Iff.rfl

/-- A list of texts, kept as one value. -/
theorem accepts_textsValue : Accepts textsValue (.as (.list .text) .ofStrings) Unbounded :=
  accepts_texts.as fun _ => Iff.rfl

theorem accepts_flagValue : Accepts flagValue (.as .flag .bool) Unbounded :=
  accepts_boolean.as fun _ => Iff.rfl

/-- A count, from zero up, in any form that an integer may come in. -/
theorem accepts_countValue : Accepts countValue (.as .integer .ofInt) IsCount :=
  (accepts_integerFrom 0).as fun n => by simp [IsCount, Json.ofInt]

/-- A complexity, from one up. -/
theorem accepts_complexity : Accepts complexity (.as .integer .int) IsComplexity :=
  (accepts_integerFrom 1).as fun n => by simp [IsComplexity]

/-- A share, from zero to one with both ends. -/
theorem accepts_shareValue : Accepts shareValue (.as .number .ofFloat) IsShare :=
  accepts_unitNumber.as fun x => by simp [IsShare, Json.ofFloat, ← and_assoc]

/-- A count that is left out is zero, which is within its bounds. So are the two other numbers that
    are left out. -/
theorem isCount_zero : IsCount (.ofInt 0) := ⟨0, Int.le_refl 0, rfl⟩

theorem isComplexity_one : IsComplexity (.int 1) := ⟨1, Int.le_refl 1, rfl⟩

theorem isShare_zero : IsShare (.ofFloat 0) := ⟨0, by decide, by decide, rfl⟩

theorem accepts_layer : Accepts (member Layer) .member Unbounded :=
  accepts_member fun l => by cases l <;> rfl

theorem accepts_callKind : Accepts (member CallKind) .member Unbounded :=
  accepts_member fun k => by cases k <;> rfl

/-! ## Findings -/

/-- **The check of a method** accepts an object exactly when some method in bounds mirrors it. -/
theorem accepts_methodFinding :
    Accepts methodFinding (.object MethodFinding.Mirrors) MethodFinding.InBounds := by
  refine accepts_object fun fields f => ?_
  simp only [Checked.seq_eq_valid, Checked.map_eq_valid, accepts_nonEmptyText.required,
    accepts_textValue.optional trivial, accepts_textsValue.optional trivial,
    accepts_layer.optional trivial, accepts_flagValue.optional trivial,
    accepts_texts.optional trivial, accepts_countValue.optional isCount_zero,
    accepts_complexity.optional isComplexity_one]
  constructor
  · intro h
    -- the fields come off from the last to the first, each with its meaning and its bound
    iterate 14 obtain ⟨_, _, h, ⟨_, _⟩, rfl⟩ := h
    obtain ⟨_, ⟨_, _⟩, rfl⟩ := h
    exact ⟨by constructor <;> assumption, by constructor <;> assumption⟩
  · obtain ⟨⟩ := f
    rintro ⟨⟨⟩, ⟨⟩⟩
    iterate 14 refine ⟨_, _, ?_, ⟨by trivial, by trivial⟩, rfl⟩
    exact ⟨_, ⟨by trivial, by trivial⟩, rfl⟩

/-- **The check of a class**, likewise. -/
theorem accepts_classFinding :
    Accepts classFinding (.object ClassFinding.Mirrors) ClassFinding.InBounds := by
  refine accepts_object fun fields f => ?_
  simp only [map_required Json.string, Checked.seq_eq_valid, Checked.map_eq_valid,
    accepts_nameValue.required, accepts_nonEmptyText.required,
    accepts_textValue.optional trivial, accepts_textsValue.optional trivial,
    accepts_layer.optional trivial, accepts_flagValue.optional trivial,
    accepts_textOrNullValue.optional trivial, accepts_countValue.optional isCount_zero,
    accepts_shareValue.optional isShare_zero]
  constructor
  · intro h
    iterate 13 obtain ⟨_, _, h, ⟨_, _⟩, rfl⟩ := h
    obtain ⟨_, ⟨_, _⟩, rfl⟩ := h
    exact ⟨by constructor <;> assumption, by constructor <;> assumption⟩
  · obtain ⟨⟩ := f
    rintro ⟨⟨⟩, ⟨⟩⟩
    iterate 13 refine ⟨_, _, ?_, ⟨by trivial, by trivial⟩, rfl⟩
    exact ⟨_, ⟨by trivial, by trivial⟩, rfl⟩

/-- **The check of a call**, likewise. -/
theorem accepts_callFinding :
    Accepts callFinding (.object CallFinding.Mirrors) CallFinding.InBounds := by
  refine accepts_object fun fields f => ?_
  simp only [Checked.seq_eq_valid, Checked.map_eq_valid, accepts_nonEmptyText.required,
    accepts_callKind.optional trivial, accepts_flagValue.optional trivial,
    accepts_textOrNullValue.optional trivial, accepts_countValue.optional isCount_zero]
  constructor
  · intro h
    iterate 5 obtain ⟨_, _, h, ⟨_, _⟩, rfl⟩ := h
    obtain ⟨_, ⟨_, _⟩, rfl⟩ := h
    exact ⟨by constructor <;> assumption, by constructor <;> assumption⟩
  · obtain ⟨⟩ := f
    rintro ⟨⟨⟩, ⟨⟩⟩
    iterate 5 refine ⟨_, _, ?_, ⟨by trivial, by trivial⟩, rfl⟩
    exact ⟨_, ⟨by trivial, by trivial⟩, rfl⟩

/-- **The check of a file** rests on those of its findings, list by list. -/
theorem accepts_fileAnalysis :
    Accepts fileAnalysis (.object FileAnalysis.Mirrors) FileAnalysis.InBounds := by
  refine accepts_object fun fields a => ?_
  simp only [Checked.seq_eq_valid, Checked.map_eq_valid, accepts_nonEmptyText.required,
    accepts_classFinding.list.optional (List.forall_mem_nil _),
    accepts_methodFinding.list.optional (List.forall_mem_nil _),
    accepts_callFinding.list.optional (List.forall_mem_nil _)]
  constructor
  · intro h
    iterate 3 obtain ⟨_, _, h, ⟨_, _⟩, rfl⟩ := h
    obtain ⟨_, ⟨_, _⟩, rfl⟩ := h
    exact ⟨by constructor <;> assumption, by constructor <;> assumption⟩
  · obtain ⟨⟩ := a
    rintro ⟨⟨⟩, ⟨⟩⟩
    iterate 3 refine ⟨_, _, ?_, ⟨by trivial, by trivial⟩, rfl⟩
    exact ⟨_, ⟨by trivial, by trivial⟩, rfl⟩

/-- What the analyses of a project mirror: the files of its list, in order and one for one. -/
def MirrorsFiles (fields : Fields Json) (files : List FileAnalysis) : Prop :=
  GivenOr [] fields "files" (.list (.object FileAnalysis.Mirrors)) files

/-- **The check of a project**: a payload is accepted exactly when every file in its list is, and a
    payload without the list has no files. -/
theorem accepts_bundle :
    Accepts bundle (.object MirrorsFiles) fun files => ∀ a ∈ files, a.InBounds :=
  accepts_object fun _ _ => accepts_fileAnalysis.list.optional (List.forall_mem_nil _)

/-- The measures of all methods in a payload of analyses are integers. -/
theorem isCounted_of_bundle {v : Json} {files : List FileAnalysis} (h : bundle v = .valid files) :
    ∀ a ∈ files, ∀ f ∈ a.methods, f.IsCounted := by
  obtain ⟨-, hbounds⟩ := (accepts_bundle v files).1 h
  exact fun a ha f hf => ((hbounds a ha).methods f hf).isCounted

end Payload
end PathTriage
