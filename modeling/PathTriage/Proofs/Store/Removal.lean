import PathTriage.Proofs.Store.Changes
import PathTriage.Proofs.Store.Degrees
import PathTriage.Proofs.Store.Files

/-!
Taking files and methods out of a store.

`Remnant s t` says that `t` is what a removal can leave of `s`: some of its methods and classes as
they were, their degrees apart, and of its links exactly those between methods that are left. Every
removal leaves a remnant, and a remnant of a remnant is one. Removals count as they go, a method as
one node with the links that go with it, a class as one node, and what they count is what is missing
from the remnant, however many steps it took (`Remnant.missing_add`, `Progress.tally_removeFile`).

`Without s files ids t` says in addition which methods and classes are left. Together this says all
there is to say about `t` (`Without.unique`), so the order in which files are deleted does not
matter.
-/

namespace PathTriage
namespace Store

/-- The methods, classes and links of a store that another one does not have, where a link goes with
    either of its ends. -/
def missing (s t : Store) : Tally where
  nodes := s.methods.keys.countP (fun id => !t.hasMethod id) +
    s.classes.keys.countP fun id => !t.classes.contains id
  links := s.calls.keys.countP (fun e => !t.knows e) +
    s.implementations.keys.countP (fun e => !t.knows e) +
    s.dataFlows.keys.countP fun e => !t.knows e

/-- What a removal can leave of a store. -/
structure Remnant (s t : Store) : Prop where
  valid : t.Valid
  /-- A method that is left is as it was, its degrees apart. -/
  methods : ∀ id m, t.bare? id = some m → s.bare? id = some m
  classes : ∀ id c, t.class? id = some c → s.class? id = some c
  /-- The links that are left are those with two ends that are left, as they were. -/
  calls : ∀ e : Arrow, t.calls[e]? = if t.knows e = true then s.calls[e]? else none
  implementations : ∀ e : Arrow,
    t.implementations[e]? = if t.knows e = true then s.implementations[e]? else none
  dataFlows : ∀ e : Arrow, t.dataFlows[e]? = if t.knows e = true then s.dataFlows[e]? else none

/-- What is left of a store without what some files own and without some methods. -/
structure Without (s : Store) (files ids : List String) (t : Store) : Prop extends Remnant s t where
  method_iff : ∀ id m, t.bare? id = some m ↔
    s.bare? id = some m ∧ id ∉ ids ∧ ∀ path ∈ files, m.isIn path = false
  class_iff : ∀ id c, t.class? id = some c ↔
    s.class? id = some c ∧ ∀ path ∈ files, c.isIn path = false

/-! ## Links under removal -/

namespace LinkTable

variable {β : Type} (l : LinkTable β)

/-- Of the links of one store, another one has exactly those between methods that it knows. -/
def Inherits (s t : Store) : Prop :=
  ∀ e : Arrow, (l.view t)[e]? = if t.knows e = true then (l.view s)[e]? else none

variable {l} {s t u : Store}

theorem Inherits.refl (hs : s.Integral) : l.Inherits s s := by
  intro e
  by_cases hk : s.knows e = true
  · rw [if_pos hk]
  · rw [if_neg hk]
    exact l.getElem?_of_not_knows hs hk

theorem Inherits.trans (h : l.Inherits s t) (h' : l.Inherits t u)
    (hknows : ∀ e, u.knows e = true → t.knows e = true) : l.Inherits s u := by
  intro e
  by_cases hk : u.knows e = true
  · rw [h' e, if_pos hk, h e, if_pos (hknows e hk), if_pos hk]
  · rw [h' e, if_neg hk, if_neg hk]

theorem Inherits.mem_iff (h : l.Inherits s t) (e : Arrow) :
    e ∈ l.view t ↔ e ∈ l.view s ∧ (!t.knows e) = false := by
  rw [Std.ExtTreeMap.mem_iff_isSome_getElem?, Std.ExtTreeMap.mem_iff_isSome_getElem?, h e]
  by_cases hk : t.knows e = true
  · simp [hk]
  · simp [hk]

theorem Inherits.size_add (h : l.Inherits s t) :
    (l.view t).size + (l.view s).keys.countP (fun e => !t.knows e) = (l.view s).size :=
  Table.size_add_countP h.mem_iff

theorem inherits_removeMethods (hs : s.Integral) (xs : List String) :
    l.Inherits s (xs.foldl removeMethod s) := by
  intro e
  by_cases hk : (xs.foldl removeMethod s).knows e = true
  · -- the ends of a link between methods that are left are not among those removed
    have hleft : ∀ id, (xs.foldl removeMethod s).hasMethod id = true → id ∉ xs := by
      intro id hid hmem
      rw [hasMethod_eq, bare?_removeMethods, if_pos hmem] at hid
      cases hid
    obtain ⟨hsrc, htgt⟩ := (knows_iff _ e).1 hk
    have hends : ¬(e.source ∈ xs ∨ e.target ∈ xs) :=
      not_or.2 ⟨hleft e.source hsrc, hleft e.target htgt⟩
    rw [l.getElem?_removeMethods hs, if_neg hends, if_pos hk]
  · rw [if_neg hk]
    exact l.getElem?_of_not_knows (integral_stable.removeMethods hs xs) hk

theorem inherits_removeFile (hs : s.Integral) (filePath : String) :
    l.Inherits s (s.removeFile filePath) := by
  intro e
  rw [removeFile, l.view_removeClassesOf]
  exact inherits_removeMethods hs (s.methodsOf filePath) e

end LinkTable

/-! ## Remnants -/

theorem hasMethod_of_bare? {s : Store} {id : String} {m : Method} (h : s.bare? id = some m) :
    s.hasMethod id = true := by
  rw [hasMethod_eq, h]
  rfl

namespace Remnant

variable {s t u : Store}

theorem refl (hs : s.Valid) : Remnant s s where
  valid := hs
  methods _ _ h := h
  classes _ _ h := h
  calls := LinkTable.Inherits.refl (l := .ofCalls) hs.integral
  implementations := LinkTable.Inherits.refl (l := .ofImplementations) hs.integral
  dataFlows := LinkTable.Inherits.refl (l := .ofDataFlows) hs.integral

theorem removeMethods (hs : s.Valid) (xs : List String) : Remnant s (xs.foldl removeMethod s) where
  valid := valid_stable.removeMethods hs xs
  methods := by
    intro id m hm
    rw [bare?_removeMethods] at hm
    split at hm
    · cases hm
    · exact hm
  classes := by
    intro id c hc
    rw [class?, classes_removeMethods] at hc
    exact hc
  calls := LinkTable.inherits_removeMethods (l := .ofCalls) hs.integral xs
  implementations := LinkTable.inherits_removeMethods (l := .ofImplementations) hs.integral xs
  dataFlows := LinkTable.inherits_removeMethods (l := .ofDataFlows) hs.integral xs

theorem removeClassesOf (hs : s.Valid) (filePath : String) :
    Remnant s (s.removeClassesOf filePath) where
  valid := valid_stable.removeClassesOf filePath hs
  methods _ _ h := h
  classes := by
    intro id c hc
    rw [class?, Store.removeClassesOf, Std.ExtTreeMap.getElem?_filter',
      Option.filter_eq_some_iff] at hc
    exact hc.1
  calls := LinkTable.Inherits.refl (l := .ofCalls) hs.integral
  implementations := LinkTable.Inherits.refl (l := .ofImplementations) hs.integral
  dataFlows := LinkTable.Inherits.refl (l := .ofDataFlows) hs.integral

theorem removeFile (hs : s.Valid) (filePath : String) : Remnant s (s.removeFile filePath) where
  valid := valid_stable.removeFile hs filePath
  methods := by
    intro id m hm
    rw [bare?_removeFile, Option.filter_eq_some_iff] at hm
    exact hm.1
  classes := by
    intro id c hc
    rw [class?_removeFile, Option.filter_eq_some_iff] at hc
    exact hc.1
  calls := LinkTable.inherits_removeFile (l := .ofCalls) hs.integral filePath
  implementations := LinkTable.inherits_removeFile (l := .ofImplementations) hs.integral filePath
  dataFlows := LinkTable.inherits_removeFile (l := .ofDataFlows) hs.integral filePath

section One

variable (h : Remnant s t)

include h

theorem hasMethod {id : String} (hid : t.hasMethod id = true) : s.hasMethod id = true := by
  rw [hasMethod_eq, Option.isSome_iff_exists] at hid
  obtain ⟨m, hm⟩ := hid
  exact hasMethod_of_bare? (h.methods id m hm)

theorem knows {e : Arrow} (he : t.knows e = true) : s.knows e = true := by
  obtain ⟨hsrc, htgt⟩ := (t.knows_iff e).1 he
  exact (s.knows_iff e).2 ⟨h.hasMethod hsrc, h.hasMethod htgt⟩

/-- A remnant of a remnant is one. -/
theorem trans (h' : Remnant t u) : Remnant s u where
  valid := h'.valid
  methods id m hm := h.methods id m (h'.methods id m hm)
  classes id c hc := h.classes id c (h'.classes id c hc)
  calls := LinkTable.Inherits.trans (l := .ofCalls) h.calls h'.calls fun _ => h'.knows
  implementations :=
    LinkTable.Inherits.trans (l := .ofImplementations) h.implementations h'.implementations
      fun _ => h'.knows
  dataFlows :=
    LinkTable.Inherits.trans (l := .ofDataFlows) h.dataFlows h'.dataFlows fun _ => h'.knows

/-- A remnant is known by the methods and classes that are left. -/
theorem unique (h' : Remnant s u) (hbare : ∀ id, t.bare? id = u.bare? id)
    (hclass : ∀ id, t.class? id = u.class? id) : t = u := by
  refine eq_of_content h.valid h'.valid hbare hclass ?_ ?_ ?_
  · intro e
    rw [h.calls, h'.calls, knows_congr hbare]
  · refine Std.ExtTreeMap.ext_getElem? fun e => ?_
    rw [h.implementations, h'.implementations, knows_congr hbare]
  · refine Std.ExtTreeMap.ext_getElem? fun e => ?_
    rw [h.dataFlows, h'.dataFlows, knows_congr hbare]

/-! ## Counting -/

theorem nodeCount_add : t.nodeCount + (missing s t).nodes = s.nodeCount := by
  have hmethods : t.methods.size + s.methods.keys.countP (fun id => !t.hasMethod id) =
      s.methods.size := by
    refine Table.size_add_countP fun id => ?_
    rw [Bool.not_eq_false', ← Std.ExtTreeMap.contains_iff_mem, ← Std.ExtTreeMap.contains_iff_mem]
    exact ⟨fun hid => ⟨h.hasMethod hid, hid⟩, fun hid => hid.2⟩
  have hclasses : t.classes.size + s.classes.keys.countP (fun id => !t.classes.contains id) =
      s.classes.size := by
    refine Table.size_add_countP fun id => ?_
    rw [Bool.not_eq_false', Std.ExtTreeMap.contains_iff_mem]
    refine ⟨fun hid => ⟨?_, hid⟩, fun hid => hid.2⟩
    rw [Std.ExtTreeMap.mem_iff_isSome_getElem?, Option.isSome_iff_exists] at hid ⊢
    obtain ⟨c, hc⟩ := hid
    exact ⟨c, h.classes id c hc⟩
  simp only [nodeCount, missing]
  omega

theorem linkCount_add : t.linkCount + (missing s t).links = s.linkCount := by
  have hcalls := LinkTable.Inherits.size_add (l := .ofCalls) h.calls
  have himpls := LinkTable.Inherits.size_add (l := .ofImplementations) h.implementations
  have hflows := LinkTable.Inherits.size_add (l := .ofDataFlows) h.dataFlows
  change t.calls.size + s.calls.keys.countP _ = s.calls.size at hcalls
  change t.implementations.size + s.implementations.keys.countP _ = s.implementations.size at himpls
  change t.dataFlows.size + s.dataFlows.keys.countP _ = s.dataFlows.size at hflows
  simp only [linkCount, missing]
  omega

/-- A remnant from which no method and no class is missing is the whole store. -/
theorem eq_of_missing (hs : s.Valid) (hnone : missing s t = {}) : t = s := by
  have hnodes : (missing s t).nodes = 0 := by
    rw [hnone]
  obtain ⟨hmethods, hclasses⟩ := Nat.add_eq_zero_iff.1 hnodes
  simp only [List.countP_eq_zero, Std.ExtTreeMap.mem_keys, Bool.not_eq_true, Bool.not_eq_false']
    at hmethods hclasses
  refine h.unique (.refl hs) ?_ ?_
  · intro id
    cases hm : t.bare? id with
    | some m => exact (h.methods id m hm).symm
    | none =>
      -- a stored method would be left
      by_contra hstored
      have hid : s.hasMethod id = true := by
        rw [hasMethod_eq]
        exact Option.isSome_iff_ne_none.2 (Ne.symm hstored)
      have hleft := hmethods id (Std.ExtTreeMap.contains_iff_mem.1 hid)
      rw [hasMethod_eq, hm] at hleft
      cases hleft
  · intro id
    cases hc : t.class? id with
    | some c => exact (h.classes id c hc).symm
    | none =>
      by_contra hstored
      have hleft := hclasses id (Std.ExtTreeMap.mem_iff_isSome_getElem?.2
        (Option.isSome_iff_ne_none.2 (Ne.symm hstored)))
      rw [Std.ExtTreeMap.contains_eq_isSome_getElem?] at hleft
      rw [class?] at hc
      rw [hc] at hleft
      cases hleft

/-- What is missing is known by the sizes of the two stores. -/
theorem missing_eq (spent : Tally) (hnodes : t.nodeCount + spent.nodes = s.nodeCount)
    (hlinks : t.linkCount + spent.links = s.linkCount) : missing s t = spent := by
  have hnodes' := h.nodeCount_add
  have hlinks' := h.linkCount_add
  show Tally.mk (missing s t).nodes (missing s t).links = Tally.mk spent.nodes spent.links
  rw [Tally.mk.injEq]
  omega

/-- Nothing goes missing twice. -/
theorem missing_add (h' : Remnant t u) : (missing s t).add (missing t u) = missing s u := by
  have hnodes := h.nodeCount_add
  have hnodes' := h'.nodeCount_add
  have hlinks := h.linkCount_add
  have hlinks' := h'.linkCount_add
  refine ((h.trans h').missing_eq _ ?_ ?_).symm
  · show u.nodeCount + ((missing s t).nodes + (missing t u).nodes) = s.nodeCount
    omega
  · show u.linkCount + ((missing s t).links + (missing t u).links) = s.linkCount
    omega

end One

end Remnant

/-! ## What is left -/

namespace Without

variable {s t u : Store} {files ids : List String}

theorem refl (hs : s.Valid) : Without s [] [] s where
  toRemnant := .refl hs
  method_iff := by simp
  class_iff := by simp

section Step

variable (h : Without s files ids t)

include h

theorem removeMethods (xs : List String) :
    Without s files (ids ++ xs) (xs.foldl removeMethod t) where
  toRemnant := h.toRemnant.trans (.removeMethods h.valid xs)
  method_iff := by
    intro id m
    rw [bare?_removeMethods]
    by_cases hid : id ∈ xs
    · simp [hid]
    · simp [hid, h.method_iff]
  class_iff := by
    intro id c
    rw [class?, classes_removeMethods]
    exact h.class_iff id c

theorem removeFile (filePath : String) :
    Without s (files ++ [filePath]) ids (t.removeFile filePath) where
  toRemnant := h.toRemnant.trans (.removeFile h.valid filePath)
  method_iff := by
    intro id m
    rw [bare?_removeFile, Option.filter_eq_some_iff, h.method_iff, Bool.not_eq_true',
      List.forall_mem_append, List.forall_mem_singleton, and_assoc, and_assoc]
  class_iff := by
    intro id c
    rw [class?_removeFile, Option.filter_eq_some_iff, h.class_iff, Bool.not_eq_true',
      List.forall_mem_append, List.forall_mem_singleton, and_assoc]

/-- What is left is known by what has been taken out, whatever the order. -/
theorem unique {files' ids' : List String} (h' : Without s files' ids' u)
    (hfiles : ∀ path, path ∈ files ↔ path ∈ files') (hids : ∀ id, id ∈ ids ↔ id ∈ ids') :
    t = u := by
  have hbare : ∀ id, t.bare? id = u.bare? id := by
    intro id
    refine Option.ext fun m => ?_
    rw [h.method_iff, h'.method_iff, hids]
    simp only [hfiles]
  have hclass : ∀ id, t.class? id = u.class? id := by
    intro id
    refine Option.ext fun c => ?_
    rw [h.class_iff, h'.class_iff]
    simp only [hfiles]
  exact h.toRemnant.unique h'.toRemnant hbare hclass

end Step

end Without

/-! ## What removals count -/

section Counters

variable {s : Store} {id filePath : String}

theorem missing_self (hs : s.Valid) : missing s s = {} :=
  (Remnant.refl hs).missing_eq {} rfl rfl

/-- A stored method is one node, whatever its links. -/
theorem nodeCount_removeMethod (hid : s.hasMethod id = true) :
    (s.removeMethod id).nodeCount + 1 = s.nodeCount := by
  have hleft : ∀ k, k ∈ (s.removeMethod id).methods ↔ k ∈ s.methods ∧ (k == id) = false := by
    intro k
    rw [← Std.ExtTreeMap.contains_iff_mem, ← Std.ExtTreeMap.contains_iff_mem]
    show (([id].foldl removeMethod s).hasMethod k = true) ↔ s.hasMethod k = true ∧ _
    rw [hasMethod_eq, bare?_removeMethods, hasMethod_eq]
    by_cases hk : k = id
    · simp [hk]
    · simp [hk]
  have hone : s.methods.keys.countP (· == id) = 1 := by
    have hmem : id ∈ s.methods.keys :=
      Std.ExtTreeMap.mem_keys.2 (Std.ExtTreeMap.contains_iff_mem.1 hid)
    exact List.count_eq_one_of_mem s.methods.nodup_keys hmem
  have hsize := Table.size_add_countP hleft
  have hclasses : (s.removeMethod id).classes = s.classes := classes_removeMethods s [id]
  rw [nodeCount, nodeCount, hclasses]
  omega

/-- The classes of a file are as many nodes as there are ids of them. -/
theorem nodeCount_removeClassesOf (s : Store) (filePath : String) :
    (s.removeClassesOf filePath).nodeCount + (s.classesOf filePath).length = s.nodeCount := by
  have hgone : s.classes.keys.countP (fun id => !(s.removeClassesOf filePath).classes.contains id) =
      (s.classesOf filePath).length := by
    rw [classesOf, List.length_map, ← List.countP_eq_length_filter,
      ← Std.ExtTreeMap.map_fst_toList_eq_keys, List.countP_map]
    refine List.countP_congr fun e he => ?_
    rw [Std.ExtTreeMap.mem_toList_iff_getElem?_eq_some] at he
    show (!(s.classes.filter fun _ c => !c.isIn filePath).contains e.1) = true ↔ _
    rw [Std.ExtTreeMap.contains_eq_isSome_getElem?, Std.ExtTreeMap.getElem?_filter', he]
    cases hin : e.2.isIn filePath <;> simp [Option.filter, hin]
  have hleft : ∀ id, id ∈ (s.removeClassesOf filePath).classes ↔
      id ∈ s.classes ∧ (!(s.removeClassesOf filePath).classes.contains id) = false := by
    intro id
    rw [Bool.not_eq_false', Std.ExtTreeMap.contains_iff_mem]
    exact ⟨fun hid => ⟨Std.ExtTreeMap.mem_of_mem_filter hid, hid⟩, fun hid => hid.2⟩
  have hsize := Table.size_add_countP hleft
  rw [hgone] at hsize
  show s.methods.size + (s.removeClassesOf filePath).classes.size + _ = s.methods.size + _
  omega

namespace Progress

variable {p : Progress}

/-- The removal of a method counts what is missing after it. -/
theorem tally_removeMethod (hp : p.store.Valid) (id : String) :
    (p.removeMethod id).tally = p.tally.add (missing p.store (p.store.removeMethod id)) := by
  have hrest : Remnant p.store (p.store.removeMethod id) := .removeMethods hp [id]
  unfold Progress.removeMethod
  split
  · next hid =>
    have hlinks := hrest.linkCount_add
    rw [hrest.missing_eq ⟨1, p.store.linkCount - (p.store.removeMethod id).linkCount⟩
      (nodeCount_removeMethod hid) (by show _ + (_ - _) = _; omega)]
  · next hid =>
    have hself : p.store.removeMethod id = p.store := by
      rw [Store.removeMethod, if_neg hid]
    rw [hself, missing_self hp]
    rfl

/-- Methods that are removed one after the other count as they do together. -/
theorem tally_removeMethods (ids : List String) : ∀ {p : Progress}, p.store.Valid →
    (ids.foldl removeMethod p).tally =
      p.tally.add (missing p.store (ids.foldl Store.removeMethod p.store)) := by
  induction ids with
  | nil =>
    intro p hp
    rw [List.foldl_nil, List.foldl_nil, missing_self hp]
    rfl
  | cons id ids ih =>
    intro p hp
    have hone : Remnant p.store (p.store.removeMethod id) := .removeMethods hp [id]
    have hrest : Remnant (p.store.removeMethod id)
        (ids.foldl Store.removeMethod (p.store.removeMethod id)) := .removeMethods hone.valid ids
    have hnext : (p.removeMethod id).store.Valid := by
      rw [store_removeMethod]
      exact hone.valid
    rw [List.foldl_cons, ih hnext, store_removeMethod, tally_removeMethod hp, Tally.add_assoc,
      hone.missing_add hrest, List.foldl_cons]

/-- The removal of a file counts what is missing after it, each method, class and link once. -/
theorem tally_removeFile (hp : p.store.Valid) (filePath : String) :
    (p.removeFile filePath).tally =
      p.tally.add (missing p.store (p.store.removeFile filePath)) := by
  have hmethods : Remnant p.store ((p.store.methodsOf filePath).foldl Store.removeMethod p.store) :=
    .removeMethods hp _
  have hclasses := Remnant.removeClassesOf hmethods.valid filePath
  have hcounted := hclasses.missing_eq ⟨_, 0⟩ (nodeCount_removeClassesOf _ filePath) rfl
  rw [Store.removeFile, ← hmethods.missing_add hclasses, hcounted, ← Tally.add_assoc,
    ← tally_removeMethods _ hp, ← store_removeMethods]
  rfl

end Progress

theorem tally_removal (hs : s.Valid) (filePath : String) :
    (s.removal filePath).tally = missing s (s.removeFile filePath) := by
  rw [removal, Progress.tally_removeFile (p := { store := s }) hs, Tally.zero_add]

end Counters

/-! ## Deleted files -/

/-- The methods that a change lists count what is missing after it. -/
theorem dropListed_tally (c : FileChange) {p : Progress} (hp : p.store.Valid) :
    (p.dropListed c).tally = p.tally.add (missing p.store (p.dropListed c).store) := by
  rw [dropListed_store]
  exact Progress.tally_removeMethods c.deletedMethods hp

section Deleted

variable {s t : Store} (analyzer : Option Analyzer) {files ids : List String}

/-- One deleted file: what it owns goes, and the methods that its change lists. -/
theorem Without.deleted (h : Without s files ids t) {c : FileChange} (hkind : c.kind = .deleted) :
    Without s (files ++ [c.filePath]) (ids ++ c.deletedMethods)
      (t.applyChange analyzer c).1.store := by
  rw [applyChange_deleted analyzer hkind]
  exact (h.removeFile c.filePath).removeMethods c.deletedMethods

/-- What a deleted file counts is what is missing after it. -/
theorem tally_deleted (hs : s.Valid) {c : FileChange} (hkind : c.kind = .deleted) :
    (s.applyChange analyzer c).1.tally = missing s (s.applyChange analyzer c).1.store := by
  have hfile : Remnant s (s.removeFile c.filePath) := .removeFile hs c.filePath
  have hlisted : Remnant (s.removeFile c.filePath)
      (c.deletedMethods.foldl removeMethod (s.removeFile c.filePath)) :=
    .removeMethods hfile.valid c.deletedMethods
  -- the file goes first, and then the methods that are listed
  have hstore : (s.removal c.filePath).store = s.removeFile c.filePath := by
    rw [removal, Progress.store_removeFile]
  have hcounted :=
    dropListed_tally c (p := s.removal c.filePath) (by rw [hstore]; exact hfile.valid)
  rw [dropListed_store, hstore, tally_removal hs, hfile.missing_add hlisted] at hcounted
  rw [applyChange_deleted analyzer hkind, applyChange, hkind]
  exact hcounted

/-- Deleting a file cannot fail. -/
theorem failure?_deleted {c : FileChange} (hkind : c.kind = .deleted) :
    c.failure? analyzer = none := by
  unfold FileChange.failure?
  rw [hkind]

theorem Without.deletedAll (cs : List FileChange) (hkind : ∀ c ∈ cs, c.kind = .deleted) :
    ∀ {files ids : List String} {t : Store}, Without s files ids t →
      Without s (files ++ cs.map (·.filePath)) (ids ++ cs.flatMap (·.deletedMethods))
        (cs.foldl (fun s c => (s.applyChange analyzer c).1.store) t) := by
  induction cs with
  | nil =>
    intro files ids t h
    simpa using h
  | cons c cs ih =>
    intro files ids t h
    obtain ⟨hc, hcs⟩ := List.forall_mem_cons.1 hkind
    simpa using ih hcs (h.deleted analyzer hc)

/-- Deleted files count together what is missing after them. -/
theorem total_deleted (cs : List FileChange) (hkind : ∀ c ∈ cs, c.kind = .deleted) :
    ∀ {s : Store}, s.Valid → Tally.total
        (((s.turns analyzer cs).filter (·.2.applies analyzer)).map (tallyAt analyzer)) =
      missing s (cs.foldl (fun s c => (s.applyChange analyzer c).1.store) s) := by
  induction cs with
  | nil =>
    intro s hs
    exact (missing_self hs).symm
  | cons c cs ih =>
    intro s hs
    obtain ⟨hc, hcs⟩ := List.forall_mem_cons.1 hkind
    have hfirst := (Without.refl hs).deleted analyzer hc
    have hrest := Without.deletedAll analyzer cs hcs (.refl hfirst.valid)
    have happlies : c.applies analyzer = true := by
      rw [FileChange.applies, failure?_deleted analyzer hc]
      rfl
    rw [turns, List.filter_cons, if_pos happlies, List.map_cons, Tally.total_cons,
      ih hcs hfirst.valid, tallyAt, tally_deleted analyzer hs hc,
      hfirst.toRemnant.missing_add hrest.toRemnant, List.foldl_cons]

theorem errors_deleted {cs : List FileChange} (hkind : ∀ c ∈ cs, c.kind = .deleted) :
    cs.flatMap (·.errors analyzer) = [] := by
  refine List.flatMap_eq_nil_iff.2 fun c hc => ?_
  rw [FileChange.errors, failure?_deleted analyzer (hkind c hc)]

/-- **Deleted files, exactly.** An update by deleted files leaves the methods and classes that none
    of the files owns, less the methods that the changes list, each as it was but for its degrees,
    and exactly those links, as they were, whose two ends are left. It succeeds and counts what is
    gone, each method, class and link once. The order of the changes makes no difference to any of
    this. -/
theorem update_deleted_exact (hs : s.Reachable) {cs cs' : List FileChange}
    (hkind : ∀ c ∈ cs, c.kind = .deleted) (hperm : cs'.Perm cs) :
    let u := s.update analyzer cs
    Without s (cs.map (·.filePath)) (cs.flatMap (·.deletedMethods)) u.store ∧
      u.result = { tally := missing s u.store } ∧
      (s.update analyzer cs').store = u.store ∧ (s.update analyzer cs').result = u.result := by
  intro u
  -- both orders leave what the same files and methods leave behind
  have hleft : ∀ ds : List FileChange, (∀ c ∈ ds, c.kind = .deleted) →
      Without s (ds.map (·.filePath)) (ds.flatMap (·.deletedMethods))
        (s.update analyzer ds).store := by
    intro ds hds
    rw [update_store]
    simpa using Without.deletedAll analyzer ds hds (.refl hs.valid)
  have hresult : ∀ ds : List FileChange, (∀ c ∈ ds, c.kind = .deleted) →
      (s.update analyzer ds).result = { tally := missing s (s.update analyzer ds).store } := by
    intro ds hds
    have htally : (s.update analyzer ds).result.tally = missing s (s.update analyzer ds).store := by
      rw [update_tally, total_deleted analyzer ds hds hs.valid, ← update_store]
    have herrors : (s.update analyzer ds).result.errors = [] := by
      rw [update_errors, errors_deleted analyzer hds]
    rw [← htally, ← herrors]
  have hkind' : ∀ c ∈ cs', c.kind = .deleted := fun c hc => hkind c (hperm.mem_iff.1 hc)
  have hsame : (s.update analyzer cs').store = u.store :=
    (hleft cs' hkind').unique (hleft cs hkind) (fun path => (hperm.map _).mem_iff)
      fun id => (hperm.flatMap_right _).mem_iff
  refine ⟨hleft cs hkind, hresult cs hkind, hsame, ?_⟩
  rw [hresult cs' hkind', hsame, ← hresult cs hkind]

/-- Three files with links of all kinds within them and between them, one of them a call of a method
    by itself. -/
def crossedFiles : Store :=
  after
    [.putClass { id := "Parser", name := .string "Parser", filePath := .string "parser" },
     .putMethod { id := "parse", name := "parse", filePath := .string "parser" },
     .putMethod { id := "peek", name := "peek", filePath := .string "parser" },
     .putMethod { id := "serve", name := "serve", filePath := .string "server" },
     .putMethod { id := "main", name := "main", filePath := .string "main" },
     .putMethod { id := "help", name := "help", filePath := .string "main" },
     .addCall { caller := "parse", callee := "parse" },
     .addCall { caller := "parse", callee := "peek" },
     .addCall { caller := "serve", callee := "parse" },
     .addCall { caller := "main", callee := "serve" },
     .addCall { caller := "main", callee := "help" },
     .addImplementation { interfaceMethod := "serve", method := "peek" },
     .addDataFlow { source := "peek", target := "main" }]

/-- Two of the files are deleted, one of them twice and with a method of the third. -/
def deletions : List FileChange :=
  [{ filePath := "parser", kind := .deleted },
   { filePath := "server", kind := .deleted },
   { filePath := "parser", kind := .deleted, deletedMethods := ["help"] }]

theorem update_deleted_exact_crossedFiles :
    let u := crossedFiles.update none deletions
    crossedFiles.Reachable ∧
      Without crossedFiles ["parser", "server", "parser"] ["help"] u.store ∧
      u.result = { tally := ⟨5, 7⟩ } ∧ u.store.hasMethod "main" = true ∧
      (crossedFiles.update none deletions.reverse).store = u.store ∧
      (crossedFiles.update none deletions.reverse).result = u.result := by
  intro u
  have hr : crossedFiles.Reachable := reachable_after _
  obtain ⟨hleft, -, hstore, hresult⟩ :=
    update_deleted_exact none hr (by decide) deletions.reverse_perm
  exact ⟨hr, hleft, by decide +kernel, by decide +kernel, hstore, hresult⟩

end Deleted

end Store
end PathTriage
