import PathTriage.Proofs.Store.Integrity

/-!
The three tables of links under removal.

A method takes its links with it, whatever their kind. Calls, implementations and data flows are
therefore one `LinkTable` each, and what removals do to the links is said once for all of them:
`getElem?_removeMethods` and `getElem?_removeFile`.
-/

namespace PathTriage.Store

/-! ## Files and their methods -/

/-- Whether a file owns the stored method with an id. -/
def owns (s : Store) (filePath id : String) : Bool := (s.bare? id).any (·.isIn filePath)

/-- The ids listed for a file are those of the stored methods that it owns. -/
theorem mem_methodsOf (s : Store) {filePath id : String} :
    id ∈ s.methodsOf filePath ↔ s.owns filePath id = true := by
  have howns : s.owns filePath id = true ↔
      ∃ m, s.method? id = some m ∧ m.isIn filePath = true := by
    rw [owns, bare?, Option.any_map]
    exact Option.any_eq_true _ _
  rw [howns]
  simp only [methodsOf, List.mem_map, List.mem_filter]
  constructor
  · rintro ⟨⟨id', m⟩, ⟨hm, hin⟩, rfl⟩
    exact ⟨m, Std.ExtTreeMap.mem_toList_iff_getElem?_eq_some.1 hm, hin⟩
  · rintro ⟨m, hm, hin⟩
    exact ⟨(id, m), ⟨Std.ExtTreeMap.mem_toList_iff_getElem?_eq_some.2 hm, hin⟩, rfl⟩

theorem contains_methodsOf (s : Store) (filePath id : String) :
    (s.methodsOf filePath).contains id = s.owns filePath id := by
  rw [Bool.eq_iff_iff, List.contains_iff_mem, mem_methodsOf]

/-! ## Tables of links -/

/-- A table of links: in an integral store its links are in place, and a method that is removed
    takes its links out of it. -/
structure LinkTable (β : Type) where
  view : Store → Std.ExtTreeMap Arrow β
  ends : β → Arrow
  linked : ∀ {s : Store}, s.Integral → Linked s.knows ends (view s)
  view_removeMethod : ∀ (s : Store) (x : String), s.hasMethod x = true →
    view (s.removeMethod x) = (view s).filter fun a _ => !a.touches x
  view_removeClassesOf : ∀ (s : Store) (filePath : String),
    view (s.removeClassesOf filePath) = view s

namespace LinkTable

/-- The table of calls. -/
def ofCalls : LinkTable Call where
  view := calls
  ends := Call.ends
  linked h := h.calls
  view_removeMethod s x h := by rw [removeMethod, if_pos h, refresh_calls]
  view_removeClassesOf _ _ := rfl

/-- The table of implementations. -/
def ofImplementations : LinkTable Implementation where
  view := implementations
  ends := Implementation.ends
  linked h := h.implementations
  view_removeMethod s x h := by rw [removeMethod, if_pos h, refresh_implementations]
  view_removeClassesOf _ _ := rfl

/-- The table of data flows. -/
def ofDataFlows : LinkTable DataFlow where
  view := dataFlows
  ends := DataFlow.ends
  linked h := h.dataFlows
  view_removeMethod s x h := by rw [removeMethod, if_pos h, refresh_dataFlows]
  view_removeClassesOf _ _ := rfl

variable {β : Type} (t : LinkTable β) {s : Store} (h : s.Integral)

include h

/-- No link stands between methods that are not both stored. -/
theorem getElem?_of_not_knows {a : Arrow} (ha : ¬s.knows a = true) : (t.view s)[a]? = none := by
  rw [Option.eq_none_iff_forall_ne_some]
  intro l hl
  exact ha (t.linked h a l hl).2

/-- Removing a method takes out exactly the links at it. If it is not stored there are none, so this
    holds whether it is stored or not. -/
theorem getElem?_removeMethod (x : String) (a : Arrow) :
    (t.view (s.removeMethod x))[a]? = if a.touches x = true then none else (t.view s)[a]? := by
  by_cases hx : s.hasMethod x = true
  · rw [t.view_removeMethod s x hx, Std.ExtTreeMap.getElem?_filter']
    by_cases ha : a.touches x = true
    · cases (t.view s)[a]? <;> simp [ha]
    · cases (t.view s)[a]? <;> simp [ha]
  · rw [removeMethod, if_neg hx]
    by_cases ha : a.touches x = true
    · -- no link is at a method that is not stored
      rw [if_pos ha]
      refine t.getElem?_of_not_knows h fun hknown => hx ?_
      obtain ⟨hsrc, htgt⟩ := (s.knows_iff a).1 hknown
      rcases Arrow.touches_iff.1 ha with rfl | rfl
      · exact hsrc
      · exact htgt
    · rw [if_neg ha]

/-- Removing methods one by one takes out the links at any of them, whatever their order. -/
theorem getElem?_removeMethods (xs : List String) (a : Arrow) :
    (t.view (xs.foldl Store.removeMethod s))[a]? =
      if a.source ∈ xs ∨ a.target ∈ xs then none else (t.view s)[a]? := by
  induction xs generalizing s with
  | nil => simp
  | cons x xs ih =>
    rw [List.foldl_cons, ih (h.removeMethod x), t.getElem?_removeMethod h]
    by_cases ha : a.touches x = true
    · have hx : a.source ∈ x :: xs ∨ a.target ∈ x :: xs := by
        rcases Arrow.touches_iff.1 ha with rfl | rfl
        · exact .inl List.mem_cons_self
        · exact .inr List.mem_cons_self
      rw [if_pos ha, if_pos hx, ite_self]
    · have hne : ¬(a.source = x ∨ a.target = x) := fun hx => ha (Arrow.touches_iff.2 hx)
      rw [not_or] at hne
      simp [ha, hne.1, hne.2]

/-- Removing a file takes out the links that begin or end at a method of the file, and leaves every
    other link as it is. -/
theorem getElem?_removeFile (filePath : String) (a : Arrow) :
    (t.view (s.removeFile filePath))[a]? =
      if s.owns filePath a.source = true ∨ s.owns filePath a.target = true then none
      else (t.view s)[a]? := by
  rw [removeFile, t.view_removeClassesOf, t.getElem?_removeMethods h]
  simp only [mem_methodsOf]

end LinkTable
end PathTriage.Store
