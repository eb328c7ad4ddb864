import PathTriage.Proofs.Store.Degrees
import PathTriage.Proofs.Store.Project

/-!
The store of any list of analyses.

Nothing is asked of the list here: files may come twice, and an id may be given by several files or
several times by one. What depends on the order of the files is which of several records for one key
is stored. Which keys there are does not: an id is stored when some file gives it, and a call when
some file lists it and its two ends are stored, since all nodes come before the first call. The
degrees count calls by their ends, so they do not depend on the order either.
-/

namespace PathTriage

/-- The two degrees that a method carries. -/
def Method.degrees (m : Method) : Json × Json := (m.inDegree, m.outDegree)

namespace Store

variable {files : List FileAnalysis}

/-! ## What is stored -/

/-- A method is stored when some file gives it. -/
theorem hasMethod_load {id : String} :
    (ofFiles files).hasMethod id = true ↔ ∃ a ∈ files, id ∈ a.methodIds := by
  rw [hasMethod_eq, bare?_ofFiles_eq, Option.isSome_map, Option.isSome_iff_exists,
    Table.exists_lastWith_flatMap]
  simp only [FileAnalysis.map_id_methodNodes]

/-- A class is stored when some file gives it. -/
theorem exists_class?_load {id : String} :
    (∃ c, (ofFiles files).class? id = some c) ↔ ∃ a ∈ files, id ∈ a.classIds := by
  rw [class?_ofFiles_eq, Table.exists_lastWith_flatMap]
  simp only [FileAnalysis.map_id_classNodes]

/-- A call is stored when some file lists it and each of its ends is given by some file: the second
    pass looks for the ends among the nodes of all files. -/
theorem hasCall_load {caller callee : String} :
    (ofFiles files).hasCall caller callee = true ↔
      (∃ a ∈ files, ∃ k ∈ a.calls, k.caller = caller ∧ k.callee = callee) ∧
        (∃ a ∈ files, caller ∈ a.methodIds) ∧ ∃ a ∈ files, callee ∈ a.methodIds := by
  have hlisted : (∃ c, Table.lastWith Call.ends ⟨caller, callee⟩ (files.flatMap (·.callLinks)) =
      some c) ↔ ∃ a ∈ files, ∃ k ∈ a.calls, k.caller = caller ∧ k.callee = callee := by
    rw [Table.exists_lastWith_flatMap]
    simp [FileAnalysis.callLinks, Call.ends, CallFinding.toCall]
  have hends := knows_iff (ofFiles files) ⟨caller, callee⟩
  simp only [hasMethod_load] at hends
  rw [hasCall, Std.ExtTreeMap.contains_eq_isSome_getElem?, calls_ofFiles_eq, ← hlisted, ← hends,
    Option.isSome_iff_exists]
  by_cases hknows : (ofFiles files).knows ⟨caller, callee⟩ = true
  · rw [if_pos hknows, and_iff_left hknows]
  · -- an end is missing, so the call was listed in vain
    simp [hknows]

/-! ## The order of the files -/

/-- In a valid store the degrees of a method follow from the ends of the stored calls. -/
theorem Valid.degrees_eq {s t : Store} (hs : s.Valid) (ht : t.Valid)
    (hmethods : ∀ id, s.hasMethod id = true ↔ t.hasMethod id = true)
    (hcalls : ∀ e : Arrow, e ∈ s.calls ↔ e ∈ t.calls) (id : String) :
    (s.method? id).map Method.degrees = (t.method? id).map Method.degrees := by
  cases hm : s.method? id with
  | none =>
    have hnone : ¬∃ n, t.method? id = some n := by
      rw [← hasMethod_iff, ← hmethods, hasMethod_iff, hm]
      simp
    rw [Option.map_none, Option.eq_none_iff_forall_ne_some.2 fun n hn => hnone ⟨n, hn⟩,
      Option.map_none]
  | some m =>
    obtain ⟨n, hn⟩ := (t.hasMethod_iff id).1 ((hmethods id).1 ((s.hasMethod_iff id).2 ⟨m, hm⟩))
    have hids : m.id = n.id :=
      (hs.integral.method_id id m hm).trans (ht.integral.method_id id n hn).symm
    have hdegrees : m.degrees = n.degrees := by
      calc m.degrees = (s.counted m).degrees := by rw [hs.counted id m hm]
        _ = (t.counted m).degrees := by rw [counted_congr fun e _ => hcalls e]
        _ = (t.counted n).degrees := by simp only [Method.degrees, Store.counted, hids]
        _ = n.degrees := by rw [ht.counted id n hn]
    rw [hn, Option.map_some, Option.map_some, hdegrees]

/-- **Two passes resolve every call that can be resolved.** Whatever the analyses say, and however
    often a file, an id or a call comes in them: the store of a project has a method or a class for
    each id that some file gives, and a call for each pair of ends that some file lists and whose
    two methods some file gives, and no others. So the ids, the ends of the calls and the degrees
    are the same for every order of the files. -/
theorem ofFiles_resolves (files : List FileAnalysis) :
    (∀ id, (ofFiles files).hasMethod id = true ↔ ∃ a ∈ files, id ∈ a.methodIds) ∧
    (∀ id, (∃ c, (ofFiles files).class? id = some c) ↔ ∃ a ∈ files, id ∈ a.classIds) ∧
    (∀ caller callee, (ofFiles files).hasCall caller callee = true ↔
      (∃ a ∈ files, ∃ k ∈ a.calls, k.caller = caller ∧ k.callee = callee) ∧
        (∃ a ∈ files, caller ∈ a.methodIds) ∧ ∃ a ∈ files, callee ∈ a.methodIds) ∧
    ∀ files' : List FileAnalysis, files'.Perm files →
      (∀ id, (ofFiles files').hasMethod id = (ofFiles files).hasMethod id) ∧
      (∀ id, ((ofFiles files').class? id).isSome = ((ofFiles files).class? id).isSome) ∧
      (∀ caller callee,
        (ofFiles files').hasCall caller callee = (ofFiles files).hasCall caller callee) ∧
      ∀ id, ((ofFiles files').method? id).map Method.degrees =
        ((ofFiles files).method? id).map Method.degrees := by
  refine ⟨fun _ => hasMethod_load, fun _ => exists_class?_load, fun _ _ => hasCall_load, ?_⟩
  intro files' hperm
  have hmethods : ∀ id,
      (ofFiles files').hasMethod id = true ↔ (ofFiles files).hasMethod id = true := by
    intro id
    simp only [hasMethod_load, hperm.mem_iff]
  have hcalls : ∀ caller callee, (ofFiles files').hasCall caller callee = true ↔
      (ofFiles files).hasCall caller callee = true := by
    intro caller callee
    simp only [hasCall_load, hperm.mem_iff]
  refine ⟨fun id => Bool.eq_iff_iff.2 (hmethods id), fun id => Bool.eq_iff_iff.2 ?_,
    fun caller callee => Bool.eq_iff_iff.2 (hcalls caller callee), ?_⟩
  · simp only [Option.isSome_iff_exists, exists_class?_load, hperm.mem_iff]
  · have hvalid : ∀ l, (ofFiles l).Valid := valid_stable.ofFiles valid_empty
    exact (hvalid files').degrees_eq (hvalid files) hmethods fun e => hcalls e.source e.target

/-- Two files that call each other. The first of them comes again, and the second also calls a
    method that no file gives. -/
def crossing : List FileAnalysis :=
  [{ filePath := "left", methods := [{ id := "f", name := "f" }],
     calls := [{ caller := "f", callee := "g" }] },
   { filePath := "right", methods := [{ id := "g", name := "g" }],
     calls := [{ caller := "g", callee := "f" }, { caller := "g", callee := "lost" }] },
   { filePath := "left", methods := [{ id := "f", name := "again" }],
     calls := [{ caller := "f", callee := "g", line := .ofInt 7 }] }]

theorem ofFiles_resolves_crossing :
    crossing.reverse.Perm crossing ∧
      (ofFiles crossing).hasCall "f" "g" = true ∧ (ofFiles crossing).hasCall "g" "lost" = false ∧
      ((ofFiles crossing.reverse).method? "f").map Method.degrees =
        ((ofFiles crossing).method? "f").map Method.degrees := by
  have hperm : crossing.reverse.Perm crossing := List.reverse_perm crossing
  obtain ⟨-, -, hcall, horder⟩ := ofFiles_resolves crossing
  refine ⟨hperm, (hcall "f" "g").2 (by decide), ?_, (horder _ hperm).2.2.2 "f"⟩
  exact Bool.eq_false_iff.2 fun h => absurd ((hcall "g" "lost").1 h) (by decide)

end Store
end PathTriage
