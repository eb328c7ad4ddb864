import PathTriage.Proofs.Store.Files
import Mathlib.Data.List.Nodup
import Mathlib.Tactic.MkIffOfInductiveProp

/-!
What the store of a project holds.

In a list of analyses that is `PerFile`, an id belongs to one file at most, and a call to the file
of its caller. So the store that is built from the list holds what some file of it has, without a
word about the order of the files: `bare?_ofFiles`, `class?_ofFiles` and `calls_ofFiles`. A call is
held when the project has both of its ends.
-/

namespace PathTriage

theorem Json.isText_iff {text : String} {v : Json} : v.isText text = true ↔ v = .string text := by
  cases v <;> simp [Json.isText]

namespace FileAnalysis

/-- The ids of the methods of a file. -/
def methodIds (a : FileAnalysis) : List String := a.methods.map (·.id)

/-- The ids of the classes of a file. -/
def classIds (a : FileAnalysis) : List String := a.classes.map (·.qualifiedName)

theorem map_id_methodNodes (a : FileAnalysis) : a.methodNodes.map Method.id = a.methodIds := by
  rw [methodNodes, methodIds, List.map_map]
  refine List.map_congr_left fun f _ => ?_
  dsimp only [Function.comp_apply]
  split <;> rfl

theorem map_id_classNodes (a : FileAnalysis) : a.classNodes.map ClassEntry.id = a.classIds := by
  rw [classNodes, classIds, List.map_map]
  rfl

/-- An analysis gives a method under an id exactly when it lists the id. -/
theorem exists_method? {a : FileAnalysis} {id : String} :
    (∃ m, a.method? id = some m) ↔ id ∈ a.methodIds := by
  rw [← map_id_methodNodes, List.mem_map, ← Table.exists_lastWith]
  simp [method?]

/-- The same for classes. -/
theorem exists_class? {a : FileAnalysis} {id : String} :
    (∃ c, a.class? id = some c) ↔ id ∈ a.classIds := by
  rw [← map_id_classNodes, List.mem_map, ← Table.exists_lastWith, class?]

theorem mem_methodIds {a : FileAnalysis} {id : String} {m : Method} (h : a.method? id = some m) :
    id ∈ a.methodIds :=
  exists_method?.1 ⟨m, h⟩

theorem mem_classIds {a : FileAnalysis} {id : String} {c : ClassEntry} (h : a.class? id = some c) :
    id ∈ a.classIds :=
  exists_class?.1 ⟨c, h⟩

/-- The classes of a file are in the file. -/
theorem isIn_of_class? {a : FileAnalysis} {id : String} {c : ClassEntry}
    (h : a.class? id = some c) (filePath : String) :
    c.isIn filePath = true ↔ a.filePath = filePath := by
  obtain ⟨hc, -⟩ := Table.mem_of_lastWith h
  obtain ⟨f, -, rfl⟩ := List.mem_map.1 hc
  simp [ClassEntry.isIn, ClassFinding.toEntry, Json.isText]

/-- Every method of a file is placed in it: it names this file or none. -/
def Placed (a : FileAnalysis) : Prop :=
  ∀ f ∈ a.methods, f.filePath.isTrue = false ∨ f.filePath.isText a.filePath = true

instance (a : FileAnalysis) : Decidable a.Placed :=
  inferInstanceAs (Decidable (∀ f ∈ a.methods, _))

/-- The methods of a file that are placed in it are in it, and in no other. -/
theorem Placed.isIn_of_method? {a : FileAnalysis} (h : a.Placed) {id : String} {m : Method}
    (hm : a.method? id = some m) (filePath : String) :
    m.isIn filePath = true ↔ a.filePath = filePath := by
  obtain ⟨n, hn, rfl⟩ := Option.map_eq_some_iff.1 hm
  obtain ⟨hn, -⟩ := Table.mem_of_lastWith hn
  obtain ⟨f, hf, rfl⟩ := List.mem_map.1 hn
  simp only [Method.isIn, Method.bare]
  split
  · next htrue =>
    -- a path that is given is the path of the file
    have hpath : f.filePath.isText a.filePath = true := by
      rcases h f hf with hfalse | hpath
      · exact absurd htrue (by simp [MethodFinding.toMethod, hfalse])
      · exact hpath
    rw [Json.isText_iff] at hpath
    simp [MethodFinding.toMethod, hpath, Json.isText]
  · simp [Json.isText]

end FileAnalysis

/-- Analyses of distinct files in which every method and class belongs to one file, and every call
    to the file of its caller. -/
@[mk_iff] structure PerFile (files : List FileAnalysis) : Prop where
  paths : (files.map (·.filePath)).Nodup
  methods : ∀ a ∈ files, ∀ b ∈ files, a.filePath ≠ b.filePath →
    ∀ id ∈ a.methodIds, id ∉ b.methodIds
  classes : ∀ a ∈ files, ∀ b ∈ files, a.filePath ≠ b.filePath → ∀ id ∈ a.classIds, id ∉ b.classIds
  placed : ∀ a ∈ files, ∀ f ∈ a.methods,
    f.filePath.isTrue = false ∨ f.filePath.isText a.filePath = true
  callers : ∀ a ∈ files, ∀ c ∈ a.calls, c.caller ∈ a.methodIds

instance (files : List FileAnalysis) : Decidable (PerFile files) :=
  decidable_of_iff' _ (perFile_iff files)

namespace PerFile

variable {files : List FileAnalysis} (h : PerFile files) {a b : FileAnalysis}

include h

/-- There is one analysis of a file. -/
theorem eq_of_path (ha : a ∈ files) (hb : b ∈ files) (hpath : a.filePath = b.filePath) : a = b :=
  List.inj_on_of_nodup_map h.paths ha hb hpath

/-- Whether each file has its own analysis does not depend on their order. -/
theorem of_perm {files' : List FileAnalysis} (hperm : files.Perm files') : PerFile files' where
  paths := (hperm.map (·.filePath)).nodup_iff.1 h.paths
  methods a ha b hb := h.methods a (hperm.mem_iff.2 ha) b (hperm.mem_iff.2 hb)
  classes a ha b hb := h.classes a (hperm.mem_iff.2 ha) b (hperm.mem_iff.2 hb)
  placed a ha := h.placed a (hperm.mem_iff.2 ha)
  callers a ha := h.callers a (hperm.mem_iff.2 ha)

omit h in
theorem tail (h : PerFile (a :: files)) : PerFile files where
  paths := (List.nodup_cons.1 h.paths).2
  methods b hb d hd := h.methods b (List.mem_cons_of_mem a hb) d (List.mem_cons_of_mem a hd)
  classes b hb d hd := h.classes b (List.mem_cons_of_mem a hb) d (List.mem_cons_of_mem a hd)
  placed b hb := h.placed b (List.mem_cons_of_mem a hb)
  callers b hb := h.callers b (List.mem_cons_of_mem a hb)

/-- An id is a method of one file at most. -/
theorem eq_of_method (ha : a ∈ files) (hb : b ∈ files) {id : String} (hia : id ∈ a.methodIds)
    (hib : id ∈ b.methodIds) : a = b := by
  by_contra hne
  have hpath : a.filePath ≠ b.filePath := fun hp => hne (h.eq_of_path ha hb hp)
  exact h.methods a ha b hb hpath id hia hib

/-- An id is a class of one file at most. -/
theorem eq_of_class (ha : a ∈ files) (hb : b ∈ files) {id : String} (hia : id ∈ a.classIds)
    (hib : id ∈ b.classIds) : a = b := by
  by_contra hne
  have hpath : a.filePath ≠ b.filePath := fun hp => hne (h.eq_of_path ha hb hp)
  exact h.classes a ha b hb hpath id hia hib

/-- The methods of a file are in the file. -/
theorem isIn_of_method? (ha : a ∈ files) {id : String} {m : Method} (hm : a.method? id = some m)
    (filePath : String) : m.isIn filePath = true ↔ a.filePath = filePath :=
  FileAnalysis.Placed.isIn_of_method? (h.placed a ha) hm filePath

theorem source_of_call? (ha : a ∈ files) {e : Arrow} {c : Call} (hc : a.call? e = some c) :
    e.source ∈ a.methodIds := by
  obtain ⟨hmem, rfl⟩ := Table.mem_of_lastWith hc
  obtain ⟨f, hf, rfl⟩ := List.mem_map.1 hmem
  exact h.callers a ha f hf

/-- A call belongs to one file at most. -/
theorem eq_of_call? (ha : a ∈ files) (hb : b ∈ files) {e : Arrow} {c d : Call}
    (hc : a.call? e = some c) (hd : b.call? e = some d) : a = b :=
  h.eq_of_method ha hb (h.source_of_call? ha hc) (h.source_of_call? hb hd)

end PerFile

namespace Store

/-! ## Without conditions -/

theorem bare?_putFiles (files : List FileAnalysis) (id : String) :
    ∀ s : Store, (files.foldl putNodes s).bare? id =
      ((Table.lastWith Method.id id (files.flatMap (·.methodNodes))).map Method.bare).or
        (s.bare? id) := by
  induction files with
  | nil => intro s; simp
  | cons a files ih =>
    intro s
    rw [List.foldl_cons, ih, bare?_putNodes, List.flatMap_cons, Table.lastWith_append,
      Option.map_or, Option.or_assoc, FileAnalysis.method?]

theorem class?_putFiles (files : List FileAnalysis) (id : String) :
    ∀ s : Store, (files.foldl putNodes s).class? id =
      (Table.lastWith ClassEntry.id id (files.flatMap (·.classNodes))).or (s.class? id) := by
  induction files with
  | nil => intro s; simp
  | cons a files ih =>
    intro s
    rw [List.foldl_cons, ih, class?_putNodes, List.flatMap_cons, Table.lastWith_append,
      Option.or_assoc, FileAnalysis.class?]

section Any

variable (files : List FileAnalysis)

/-- The method of a project is the one that its files give last. -/
theorem bare?_ofFiles_eq (id : String) :
    (ofFiles files).bare? id =
      (Table.lastWith Method.id id (files.flatMap (·.methodNodes))).map Method.bare := by
  have hempty : (empty : Store).bare? id = none := by simp [bare?, method?, empty]
  rw [ofFiles, bare?_addCalls, ofNodes, bare?_putFiles, hempty, Option.or_none]

theorem class?_ofFiles_eq (id : String) :
    (ofFiles files).class? id =
      Table.lastWith ClassEntry.id id (files.flatMap (·.classNodes)) := by
  have hcalls : (ofFiles files).class? id = (ofNodes files).class? id := by
    rw [class?, ofFiles, classes_addCalls, class?]
  have hempty : (empty : Store).class? id = none := by simp [class?, empty]
  rw [hcalls, ofNodes, class?_putFiles, hempty, Option.or_none]

/-- A call of a project is the one that its files list last, if the project has its two ends. -/
theorem calls_ofFiles_eq (e : Arrow) :
    (ofFiles files).calls[e]? =
      if (ofFiles files).knows e = true then
        Table.lastWith Call.ends e (files.flatMap (·.callLinks))
      else none := by
  have hknows : (ofFiles files).knows e = (ofNodes files).knows e :=
    knows_congr (fun id => bare?_addCalls _ _ id) e
  have hnone : (ofNodes files).calls = ∅ := foldl_unchanged calls calls_putNodes files empty
  rw [hknows, ofFiles, calls_addCalls, hnone, Std.ExtTreeMap.getElem?_empty, Option.or_none]

end Any

/-! ## Per file -/

section PerFile

variable {files : List FileAnalysis} (h : PerFile files)

include h

theorem bare?_ofFiles {id : String} {m : Method} :
    (ofFiles files).bare? id = some m ↔ ∃ a ∈ files, a.method? id = some m := by
  have hone : ∀ a ∈ files, ∀ b ∈ files, ∀ x y,
      Table.lastWith Method.id id a.methodNodes = some x →
      Table.lastWith Method.id id b.methodNodes = some y → a = b := by
    intro a ha b hb x y hx hy
    exact h.eq_of_method ha hb (FileAnalysis.mem_methodIds (congrArg (Option.map _) hx))
      (FileAnalysis.mem_methodIds (congrArg (Option.map _) hy))
  rw [bare?_ofFiles_eq, Option.map_eq_some_iff]
  simp only [Table.lastWith_flatMap hone, FileAnalysis.method?, Option.map_eq_some_iff]
  constructor
  · rintro ⟨n, ⟨a, ha, hn⟩, rfl⟩
    exact ⟨a, ha, n, hn, rfl⟩
  · rintro ⟨a, ha, n, hn, rfl⟩
    exact ⟨n, ⟨a, ha, hn⟩, rfl⟩

theorem class?_ofFiles {id : String} {c : ClassEntry} :
    (ofFiles files).class? id = some c ↔ ∃ a ∈ files, a.class? id = some c := by
  have hone : ∀ a ∈ files, ∀ b ∈ files, ∀ x y,
      Table.lastWith ClassEntry.id id a.classNodes = some x →
      Table.lastWith ClassEntry.id id b.classNodes = some y → a = b := by
    intro a ha b hb x y hx hy
    exact h.eq_of_class ha hb (FileAnalysis.mem_classIds hx) (FileAnalysis.mem_classIds hy)
  rw [class?_ofFiles_eq, Table.lastWith_flatMap hone]
  rfl

theorem hasMethod_ofFiles {id : String} :
    (ofFiles files).hasMethod id = true ↔ ∃ a ∈ files, id ∈ a.methodIds := by
  rw [hasMethod_eq, Option.isSome_iff_exists]
  simp only [bare?_ofFiles h, ← FileAnalysis.exists_method?]
  constructor
  · rintro ⟨m, a, ha, hm⟩
    exact ⟨a, ha, m, hm⟩
  · rintro ⟨a, ha, m, hm⟩
    exact ⟨m, a, ha, hm⟩

theorem knows_ofFiles {e : Arrow} :
    (ofFiles files).knows e = true ↔
      (∃ a ∈ files, e.source ∈ a.methodIds) ∧ ∃ a ∈ files, e.target ∈ a.methodIds := by
  rw [knows_iff, hasMethod_ofFiles h, hasMethod_ofFiles h]

theorem calls_ofFiles {e : Arrow} {c : Call} :
    (ofFiles files).calls[e]? = some c ↔
      (ofFiles files).knows e = true ∧ ∃ a ∈ files, a.call? e = some c := by
  have hone : ∀ a ∈ files, ∀ b ∈ files, ∀ x y, Table.lastWith Call.ends e a.callLinks = some x →
      Table.lastWith Call.ends e b.callLinks = some y → a = b :=
    fun a ha b hb _ _ hx hy => h.eq_of_call? ha hb hx hy
  rw [calls_ofFiles_eq]
  by_cases hk : (ofFiles files).knows e = true
  · rw [if_pos hk, Table.lastWith_flatMap hone]
    simp only [hk, true_and]
    rfl
  · simp [hk]

/-- A file owns the methods that its analysis gives. -/
theorem owns_ofFiles {filePath id : String} :
    (ofFiles files).owns filePath id = true ↔
      ∃ a ∈ files, a.filePath = filePath ∧ id ∈ a.methodIds := by
  rw [owns, Option.any_eq_true]
  constructor
  · rintro ⟨m, hm, hin⟩
    obtain ⟨a, ha, hm⟩ := (bare?_ofFiles h).1 hm
    exact ⟨a, ha, (h.isIn_of_method? ha hm filePath).1 hin, FileAnalysis.mem_methodIds hm⟩
  · rintro ⟨a, ha, hpath, hid⟩
    obtain ⟨m, hm⟩ := FileAnalysis.exists_method?.2 hid
    exact ⟨m, (bare?_ofFiles h).2 ⟨a, ha, hm⟩, (h.isIn_of_method? ha hm filePath).2 hpath⟩

end PerFile

end Store
end PathTriage
