import PathTriage.Proofs.Store.Findings

/-!
Accepted projects and the stores that they are applied to.

A store keeps a complexity of at least one as it was found and raises any other to one. The bounds
of a payload leave only the first case, so what an accepted project says about complexities is what
a store says after it has taken the project in (`complexity?_foldl`).
-/

namespace PathTriage

namespace FileAnalysis

/-- The complexity that some analyses found last for an id. -/
def complexityIn (files : List FileAnalysis) (id : String) : Option Json :=
  (Table.lastWith MethodFinding.id id (files.flatMap (·.methods))).map fun f => .number f.complexity

theorem complexityIn_cons (a : FileAnalysis) (files : List FileAnalysis) (id : String) :
    complexityIn (a :: files) id = (complexityIn files id).or (complexityIn [a] id) := by
  simp only [complexityIn, List.flatMap_singleton]
  rw [List.flatMap_cons, Table.lastWith_append, Option.map_or]

end FileAnalysis

namespace Store

open FileAnalysis

/-- The complexity of a stored method. -/
def complexity? (s : Store) (id : String) : Option Json :=
  (s.bare? id).map fun m => m.complexity.toJson

/-- Taking analyses in one after the other, in whatever way each of them is taken in. -/
theorem complexity?_foldl {step : Store → FileAnalysis → Store}
    (hstep : ∀ s a id, (step s a).bare? id = (a.method? id).or (s.bare? id))
    {files : List FileAnalysis} (hfiles : ∀ a ∈ files, ∀ f ∈ a.methods, f.IsCounted) (id : String) :
    ∀ s : Store, (files.foldl step s).complexity? id =
      (complexityIn files id).or (s.complexity? id) := by
  induction files with
  | nil => intro s; simp [complexityIn]
  | cons a files ih =>
    intro s
    obtain ⟨ha, hrest⟩ := List.forall_mem_cons.1 hfiles
    have hone : (step s a).complexity? id =
        (complexityIn [a] id).or (s.complexity? id) := by
      rw [complexity?, hstep, Option.map_or, FileAnalysis.method?_eq, Option.map_map, complexityIn,
        List.flatMap_singleton]
      refine congrArg (Option.or · _) (Option.map_congr fun f hf => ?_)
      have hof : (f.placedIn a.filePath).IsOf f := ⟨rfl, rfl, rfl⟩
      exact hof.toJson_complexity (ha f (Table.mem_of_lastWith hf).1)
    -- a later file has the last word about an id, and then this one has it against the store
    rw [List.foldl_cons, ih hrest, hone, complexityIn_cons a files, Option.or_assoc]

end Store

namespace Payload

open Store

/-- **Accepted payloads become records within bounds, field for field.** A payload of analyses
    gives records or problems, never both. It gives the records that mirror it, and it gives them
    exactly when they are within bounds. Applied to a store, or loaded as a project, they bring
    every complexity as it was given. -/
theorem bundle_exact (v : Json) :
    ((∃ files, (bundle v).value? = some files) ∧ (bundle v).problems = [] ∨
      (bundle v).value? = none ∧ (bundle v).problems ≠ []) ∧
    (∀ files, (bundle v).value? = some files ↔
      Meaning.object MirrorsFiles v files ∧ ∀ a ∈ files, a.InBounds) ∧
    ∀ files, (bundle v).value? = some files → ∀ id,
      (∀ s : Store, (files.foldl applyAnalysis s).complexity? id =
        (FileAnalysis.complexityIn files id).or (s.complexity? id)) ∧
      (ofFiles files).complexity? id = FileAnalysis.complexityIn files id := by
  refine ⟨(bundle v).value?_or_problems, ?_, ?_⟩
  · intro files
    rw [Checked.value?_eq_some]
    exact accepts_bundle v files
  · intro files h id
    have hcounted := isCounted_of_bundle (Checked.value?_eq_some.1 h)
    refine ⟨complexity?_foldl bare?_applyAnalysis hcounted id, ?_⟩
    -- a project is loaded in two passes, and the second one brings calls only
    have hnodes := complexity?_foldl bare?_putNodes hcounted id empty
    have hempty : (empty : Store).complexity? id = none := by
      simp [complexity?, bare?, method?, empty]
    rw [hempty, Option.or_none] at hnodes
    rw [complexity?, ofFiles, bare?_addCalls]
    exact hnodes

/-- A file with one method. Its complexity comes as text, its other measures are absent, and one key
    has no meaning here. -/
def oneMethod : Json :=
  .object [("files", .array [.object [("file_path", .string "f"), ("owner", .string "me"),
    ("methods", .array [.object [("method_id", .string "m"), ("method_name", .string "run"),
      ("cyclomatic_complexity", .string "+7")]])]])]

theorem bundle_exact_oneMethod :
    ∃ files, (bundle oneMethod).value? = some files ∧ files.length = 1 ∧
      (∀ a ∈ files, a.InBounds) ∧ (ofFiles files).complexity? "m" = some (.ofInt 7) := by
  obtain ⟨-, hiff, hstore⟩ := bundle_exact oneMethod
  have hvalue : (bundle oneMethod).value? =
      some [{ filePath := "f",
              methods := [{ id := "m", name := "run", complexity := .int 7 }] }] := by
    with_unfolding_all rfl
  refine ⟨_, hvalue, rfl, ((hiff _).1 hvalue).2, ?_⟩
  rw [(hstore _ hvalue "m").2]
  rfl

end Payload
end PathTriage
