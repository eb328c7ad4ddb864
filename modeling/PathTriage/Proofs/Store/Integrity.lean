import PathTriage.Proofs.Store.Content
import PathTriage.Proofs.Store.Run

/-!
Referential integrity of a store: its tables refer to each other without gaps.

The nodes of the graph of calls are the stored methods, every link lies between stored methods, and
every record is stored under its own key. `integral_stable` says that each elementary step keeps
this; no step needs more than the one before it left.
-/

namespace PathTriage.Store

/-! ## Tables of links -/

section Linked

variable {β : Type} {known known' : Arrow → Bool} {ends : β → Arrow}
  {t : Std.ExtTreeMap Arrow β}

/-- Every link of a table is stored under its own ends, and its ends are known. -/
def Linked (known : Arrow → Bool) (ends : β → Arrow) (t : Std.ExtTreeMap Arrow β) : Prop :=
  ∀ a l, t[a]? = some l → ends l = a ∧ known a = true

/-- Links stay in place when more arrows become known. -/
theorem Linked.mono (h : Linked known ends t) (hk : ∀ a, known a = true → known' a = true) :
    Linked known' ends t := by
  intro a l hl
  obtain ⟨hends, hknown⟩ := h a l hl
  exact ⟨hends, hk a hknown⟩

/-- A link that is put in under its own ends, which are known. -/
theorem Linked.insert (h : Linked known ends t) {l : β} (hl : known (ends l) = true) :
    Linked known ends (t.insert (ends l) l) := by
  intro a l' hl'
  simp only [Std.ExtTreeMap.getElem?_insert, Std.compare_eq_iff_eq] at hl'
  by_cases ha : ends l = a
  · rw [if_pos ha, Option.some.injEq] at hl'
    subst hl'
    exact ⟨ha, ha ▸ hl⟩
  · rw [if_neg ha] at hl'
    exact h a l' hl'

/-- Without the links at an id, the ends of the others stay known when only that id goes. -/
theorem Linked.filter (h : Linked known ends t) {x : String}
    (hk : ∀ a, a.touches x = false → known a = true → known' a = true) :
    Linked known' ends (t.filter fun a _ => !a.touches x) := by
  intro a l hl
  rw [Std.ExtTreeMap.getElem?_filter', Option.filter_eq_some_iff] at hl
  obtain ⟨hl, ha⟩ := hl
  obtain ⟨hends, hknown⟩ := h a l hl
  exact ⟨hends, hk a (by simpa using ha) hknown⟩

end Linked

/-! ## The invariant -/

/-- The nodes of the graph are kept by the store itself, apart from its tables. -/
theorem mem_nodes {s : Store} {id : String} : id ∈ s.graph.nodes ↔ id ∈ s.callNodes :=
  Std.ExtTreeSet.mem_toList

/-- Referential integrity. -/
structure Integral (s : Store) : Prop where
  node_iff : ∀ id, id ∈ s.graph.nodes ↔ s.hasMethod id = true
  calls : Linked s.knows Call.ends s.calls
  implementations : Linked s.knows Implementation.ends s.implementations
  dataFlows : Linked s.knows DataFlow.ends s.dataFlows
  method_id : ∀ id m, s.method? id = some m → m.id = id
  class_id : ∀ id c, s.class? id = some c → c.id = id

/-- Nothing is stored, so nothing is out of place. -/
theorem integral_empty : Integral .empty where
  node_iff := by
    intro id
    simp [empty, graph, hasMethod]
  calls := by
    intro a l hl
    simp [empty] at hl
  implementations := by
    intro a l hl
    simp [empty] at hl
  dataFlows := by
    intro a l hl
    simp [empty] at hl
  method_id := by
    intro id m hm
    simp [empty, method?] at hm
  class_id := by
    intro id c hc
    simp [empty, class?] at hc

namespace Integral

variable {s : Store} (h : s.Integral)

include h

/-- Methods may change where they are stored, as long as they keep their ids and none comes or
    goes. -/
theorem withMethods {t : Std.ExtTreeMap String Method}
    (hkeys : ∀ id, t.contains id = s.methods.contains id)
    (hids : ∀ (id : String) (m : Method), t[id]? = some m → m.id = id) :
    Integral { s with methods := t } := by
  have hknows : ∀ a, s.knows a = true → Store.knows { s with methods := t } a = true := by
    intro a ha
    simpa only [knows, hasMethod, hkeys] using ha
  refine ⟨?_, h.calls.mono hknows, h.implementations.mono hknows, h.dataFlows.mono hknows, hids,
    h.class_id⟩
  intro id
  simp only [hasMethod, hkeys]
  exact h.node_iff id

/-- Counting calls changes degrees, of which the invariant says nothing. -/
theorem refresh (ids : List String) : (s.refresh ids).Integral := by
  refine h.withMethods ?_ ?_
  · intro id
    have hb := s.bare?_refresh ids id
    have hhas : (s.refresh ids).hasMethod id = s.hasMethod id := by
      rw [hasMethod_eq, hasMethod_eq, hb]
    exact hhas
  · intro id m hm
    have hm' : (s.refresh ids).method? id = some m := hm
    rw [method?_refresh] at hm'
    split at hm'
    · obtain ⟨m₀, hm₀, rfl⟩ := Option.map_eq_some_iff.1 hm'
      exact h.method_id id m₀ hm₀
    · exact h.method_id id m hm'

/-- A change to one method that keeps its id. -/
theorem modifyMethods {f : Method → Method} (hf : ∀ m, (f m).id = m.id) (x : String) :
    Integral { s with methods := s.methods.modify x f } := by
  refine h.withMethods ?_ ?_
  · intro id
    exact Std.ExtTreeMap.contains_modify
  · intro id m hm
    rw [Table.getElem?_modify_eq] at hm
    split at hm
    · obtain ⟨m', hm', rfl⟩ := Option.map_eq_some_iff.1 hm
      rw [hf]
      exact h.method_id id m' hm'
    · exact h.method_id id m hm

/-! ## Additions -/

/-- A method that is new is in the graph too, and one that is replaced keeps its links. -/
theorem putMethod (m : Method) : (s.putMethod m).Integral := by
  have hhas : ∀ id, (s.putMethod m).hasMethod id = (decide (m.id = id) || s.hasMethod id) := by
    intro id
    rw [hasMethod_eq, bare?_putMethod, hasMethod_eq]
    by_cases hid : m.id = id <;> simp [hid]
  have hknows : ∀ a, s.knows a = true → (s.putMethod m).knows a = true := by
    intro a ha
    obtain ⟨hsrc, htgt⟩ := (s.knows_iff a).1 ha
    rw [knows_iff, hhas, hhas, hsrc, htgt]
    simp
  -- every arrow that was known stays known
  refine ⟨?_, h.calls.mono hknows, h.implementations.mono hknows, h.dataFlows.mono hknows, ?_,
    h.class_id⟩
  · intro id
    have hnode : id ∈ (s.putMethod m).graph.nodes ↔ m.id = id ∨ id ∈ s.graph.nodes := by
      simp [mem_nodes, Store.putMethod]
    rw [hnode, hhas, h.node_iff]
    simp
  · intro id m' hm'
    rw [method?_putMethod] at hm'
    split at hm'
    · next hid =>
      rw [Option.some.injEq] at hm'
      rw [← hm', ← hid]
      rfl
    · exact h.method_id id m' hm'

theorem putClass (c : ClassEntry) : (s.putClass c).Integral := by
  refine ⟨h.node_iff, h.calls, h.implementations, h.dataFlows, h.method_id, ?_⟩
  intro id c' hc'
  rw [class?_putClass] at hc'
  split at hc'
  · next hid =>
    rw [Option.some.injEq] at hc'
    rw [← hc', hid]
  · exact h.class_id id c' hc'

/-- A call is put in only between stored methods; otherwise the store stays as it is. -/
theorem addCall (c : Call) : (s.addCall c).Integral := by
  unfold Store.addCall
  split
  · next hk =>
    refine Integral.refresh ?_ _
    refine ⟨?_, h.calls.insert hk, h.implementations, h.dataFlows, h.method_id, h.class_id⟩
    intro id
    obtain ⟨hsrc, htgt⟩ := (s.knows_iff c.ends).1 hk
    have hnode := h.node_iff id
    simp only [mem_nodes, Std.ExtTreeSet.mem_insert, Std.compare_eq_iff_eq] at hnode ⊢
    constructor
    · rintro (rfl | rfl | hid)
      · exact htgt
      · exact hsrc
      · exact hnode.1 hid
    · intro hid
      exact Or.inr (Or.inr (hnode.2 hid))
  · exact h

theorem addImplementation (i : Implementation) : (s.addImplementation i).Integral := by
  unfold Store.addImplementation
  split
  · next hk =>
    exact ⟨h.node_iff, h.calls, h.implementations.insert hk, h.dataFlows, h.method_id, h.class_id⟩
  · exact h

theorem addDataFlow (f : DataFlow) : (s.addDataFlow f).Integral := by
  unfold Store.addDataFlow
  split
  · next hk =>
    exact ⟨h.node_iff, h.calls, h.implementations, h.dataFlows.insert hk, h.method_id, h.class_id⟩
  · exact h

/-! ## Removals and renaming -/

/-- A method goes with its links, so no link is left without an end. -/
theorem removeMethod (x : String) : (s.removeMethod x).Integral := by
  unfold Store.removeMethod
  split
  · refine Integral.refresh ?_ _
    have hhas : ∀ id, (s.methods.erase x).contains id = (decide (x ≠ id) && s.hasMethod id) := by
      intro id
      rw [hasMethod, Std.ExtTreeMap.contains_erase]
      by_cases hid : x = id <;> simp [hid]
    have hknows : ∀ a : Arrow, a.touches x = false → s.knows a = true →
        ((s.methods.erase x).contains a.source &&
          (s.methods.erase x).contains a.target) = true := by
      intro a ha hk
      obtain ⟨hsrc, htgt⟩ := (s.knows_iff a).1 hk
      simp only [Arrow.touches, Bool.or_eq_false_iff, beq_eq_false_iff_ne] at ha
      rw [hhas, hhas, hsrc, htgt]
      simp [Ne.symm ha.1, Ne.symm ha.2]
    -- the links at the method go, and the ends of all others are still there
    refine ⟨?_, h.calls.filter hknows, h.implementations.filter hknows, h.dataFlows.filter hknows,
      ?_, h.class_id⟩
    · intro id
      have hnode := h.node_iff id
      simp only [mem_nodes, hasMethod, hhas, Std.ExtTreeSet.mem_erase, ne_eq, Std.compare_eq_iff_eq,
        Bool.and_eq_true, decide_eq_true_eq] at hnode ⊢
      rw [hnode]
    · intro id m hm
      simp only [method?, Std.ExtTreeMap.getElem?_erase] at hm
      split at hm
      · exact absurd hm (by simp)
      · exact h.method_id id m hm
  · exact h

theorem removeClassesOf (filePath : String) : (s.removeClassesOf filePath).Integral := by
  refine ⟨h.node_iff, h.calls, h.implementations, h.dataFlows, h.method_id, ?_⟩
  intro id c hc
  simp only [class?, Store.removeClassesOf, Std.ExtTreeMap.getElem?_filter',
    Option.filter_eq_some_iff] at hc
  exact h.class_id id c hc.1

/-- Renaming moves methods and classes to another file under the same ids. -/
theorem renameFile (old new : String) : (s.renameFile old new).Integral := by
  have hm : Integral
      { s with
        methods := s.methods.map fun _ m =>
          if m.isIn old then { m with filePath := .string new } else m } := by
    refine h.withMethods ?_ ?_
    · intro id
      exact Std.ExtTreeMap.contains_map
    · intro id m hm
      rw [Std.ExtTreeMap.getElem?_map] at hm
      obtain ⟨m', hm', rfl⟩ := Option.map_eq_some_iff.1 hm
      have hid := h.method_id id m' hm'
      split <;> exact hid
  refine ⟨hm.node_iff, hm.calls, hm.implementations, hm.dataFlows, hm.method_id, ?_⟩
  intro id c hc
  simp only [class?, Store.renameFile, Std.ExtTreeMap.getElem?_map] at hc
  obtain ⟨c', hc', rfl⟩ := Option.map_eq_some_iff.1 hc
  have hid := h.class_id id c' hc'
  split <;> exact hid

end Integral

/-- Every elementary step keeps a store integral. -/
theorem integral_stable : Stable Integral where
  putMethod m h := h.putMethod m
  putClass c h := h.putClass c
  addCall c h := h.addCall c
  addImplementation i h := h.addImplementation i
  addDataFlow f h := h.addDataFlow f
  setRisk id score h :=
    h.modifyMethods (f := fun m => { m with riskScore := score }) (fun _ => rfl) id
  removeMethod id h := h.removeMethod id
  removeClassesOf filePath h := h.removeClassesOf filePath
  renameFile old new h := h.renameFile old new

/-- Hence every store that operations can make is integral. -/
theorem Reachable.integral {s : Store} (h : s.Reachable) : s.Integral :=
  integral_stable.of_reachable integral_empty h

end PathTriage.Store
