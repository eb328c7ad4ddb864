import PathTriage.Proofs.Table
import PathTriage.Store.Operation

/-!
What a store holds after each of its elementary operations, table by table.

A method is looked up in two ways: `method?` gives it with its degrees, `bare?` without them. The
second view is what an operation says about methods; the degrees follow from the stored calls once
they are known to be kept right. The table of calls is seen through its look-up by ends.
-/

namespace PathTriage

/-- An arrow touches its two ends. -/
theorem Arrow.touches_iff {a : Arrow} {id : String} :
    a.touches id = true ↔ a.source = id ∨ a.target = id := by
  simp [Arrow.touches]

/-- A method without its degrees. -/
def Method.bare (m : Method) : Method := { m with inDegree := .ofInt 0, outDegree := .ofInt 0 }

namespace Store

variable (s : Store)

/-- The stored method with an id, without its degrees. -/
def bare? (id : String) : Option Method := (s.method? id).map Method.bare

/-- Whether a method is stored can be told without its degrees. -/
theorem hasMethod_eq (id : String) : s.hasMethod id = (s.bare? id).isSome := by
  rw [bare?, Option.isSome_map]
  exact Std.ExtTreeMap.contains_eq_isSome_getElem?

theorem hasMethod_iff (id : String) : s.hasMethod id = true ↔ ∃ m, s.method? id = some m := by
  rw [hasMethod_eq, bare?, Option.isSome_map, Option.isSome_iff_exists]

/-- An arrow is known when both of its ends are stored. -/
theorem knows_iff (a : Arrow) :
    s.knows a = true ↔ s.hasMethod a.source = true ∧ s.hasMethod a.target = true := by
  rw [knows, Bool.and_eq_true]

/-- Two stores with the same bare methods know the same arrows. -/
theorem knows_congr {s t : Store} (h : ∀ id, s.bare? id = t.bare? id) (a : Arrow) :
    s.knows a = t.knows a := by
  simp only [knows, hasMethod_eq, h]

/-! ## Degrees -/

/-- Counting calls changes the degrees of a method and nothing else. -/
theorem bare_counted (m : Method) : (s.counted m).bare = m.bare := rfl

/-- Refreshing degrees leaves all tables of links as they are. -/
@[simp] theorem refresh_calls (ids : List String) : (s.refresh ids).calls = s.calls := rfl

@[simp] theorem refresh_implementations (ids : List String) :
    (s.refresh ids).implementations = s.implementations := rfl

@[simp] theorem refresh_dataFlows (ids : List String) : (s.refresh ids).dataFlows = s.dataFlows :=
  rfl

/-- A method that is refreshed gets its degrees from the stored calls, and the others keep
    theirs. -/
theorem method?_refresh (ids : List String) (id : String) :
    (s.refresh ids).method? id =
      if id ∈ ids then (s.method? id).map s.counted else s.method? id :=
  Table.getElem?_foldl_modify (f := s.counted) (fun _ => rfl) ids id s.methods

/-- Refreshing is invisible without degrees. -/
@[simp] theorem bare?_refresh (ids : List String) (id : String) :
    (s.refresh ids).bare? id = s.bare? id := by
  rw [bare?, method?_refresh, bare?]
  by_cases h : id ∈ ids
  · rw [if_pos h, Option.map_map]
    rfl
  · rw [if_neg h]

/-! ## Additions -/

/-- A method is stored under its id, in place of what was there, with its degrees counted. -/
theorem method?_putMethod (m : Method) (id : String) :
    (s.putMethod m).method? id = if m.id = id then some (s.counted m) else s.method? id := by
  simp only [method?, putMethod, Std.ExtTreeMap.getElem?_insert, Std.compare_eq_iff_eq]

/-- The same without degrees. -/
theorem bare?_putMethod (m : Method) (id : String) :
    (s.putMethod m).bare? id = if m.id = id then some m.bare else s.bare? id := by
  rw [bare?, method?_putMethod]
  by_cases h : m.id = id
  · rw [if_pos h, if_pos h, Option.map_some, bare_counted]
  · rw [if_neg h, if_neg h, bare?]

/-- A class is stored under its id, in place of what was there. -/
theorem class?_putClass (c : ClassEntry) (id : String) :
    (s.putClass c).class? id = if c.id = id then some c else s.class? id := by
  simp only [class?, putClass, Std.ExtTreeMap.getElem?_insert, Std.compare_eq_iff_eq]

/-- A call changes no method but for degrees. -/
@[simp] theorem bare?_addCall (c : Call) (id : String) :
    (s.addCall c).bare? id = s.bare? id := by
  unfold addCall
  split
  · rw [bare?_refresh]
    rfl
  · rfl

/-- A call is stored when both of its ends are, in place of a call with the same ends. Otherwise the
    calls stay as they are. -/
theorem calls_addCall (c : Call) (a : Arrow) :
    (s.addCall c).calls[a]? =
      if c.ends = a ∧ s.knows a = true then some c else s.calls[a]? := by
  unfold addCall
  by_cases hc : c.ends = a
  · subst hc
    split <;> simp_all
  · split <;> simp [hc, Std.ExtTreeMap.getElem?_insert]

@[simp] theorem classes_addCall (c : Call) : (s.addCall c).classes = s.classes := by
  unfold addCall
  split <;> rfl

@[simp] theorem implementations_addCall (c : Call) :
    (s.addCall c).implementations = s.implementations := by
  unfold addCall
  split <;> rfl

@[simp] theorem dataFlows_addCall (c : Call) : (s.addCall c).dataFlows = s.dataFlows := by
  unfold addCall
  split <;> rfl

/-- An implementation changes no table but its own: degrees count calls only. -/
theorem methods_addImplementation (i : Implementation) :
    (s.addImplementation i).methods = s.methods := by
  unfold addImplementation
  split <;> rfl

theorem classes_addImplementation (i : Implementation) :
    (s.addImplementation i).classes = s.classes := by
  unfold addImplementation
  split <;> rfl

theorem calls_addImplementation (i : Implementation) :
    (s.addImplementation i).calls = s.calls := by
  unfold addImplementation
  split <;> rfl

theorem dataFlows_addImplementation (i : Implementation) :
    (s.addImplementation i).dataFlows = s.dataFlows := by
  unfold addImplementation
  split <;> rfl

/-- An implementation is stored when both of its ends are. -/
theorem implementations_addImplementation (i : Implementation) (a : Arrow) :
    (s.addImplementation i).implementations[a]? =
      if i.ends = a ∧ s.knows a = true then some i else s.implementations[a]? := by
  unfold addImplementation
  by_cases hi : i.ends = a
  · subst hi
    split <;> simp_all
  · split <;> simp [hi, Std.ExtTreeMap.getElem?_insert]

/-- A data flow changes no table but its own, for the same reason. -/
theorem methods_addDataFlow (f : DataFlow) : (s.addDataFlow f).methods = s.methods := by
  unfold addDataFlow
  split <;> rfl

theorem classes_addDataFlow (f : DataFlow) : (s.addDataFlow f).classes = s.classes := by
  unfold addDataFlow
  split <;> rfl

theorem calls_addDataFlow (f : DataFlow) : (s.addDataFlow f).calls = s.calls := by
  unfold addDataFlow
  split <;> rfl

theorem implementations_addDataFlow (f : DataFlow) :
    (s.addDataFlow f).implementations = s.implementations := by
  unfold addDataFlow
  split <;> rfl

/-- A data flow is stored when both of its ends are. -/
theorem dataFlows_addDataFlow (f : DataFlow) (a : Arrow) :
    (s.addDataFlow f).dataFlows[a]? =
      if f.ends = a ∧ s.knows a = true then some f else s.dataFlows[a]? := by
  unfold addDataFlow
  by_cases hf : f.ends = a
  · subst hf
    split <;> simp_all
  · split <;> simp [hf, Std.ExtTreeMap.getElem?_insert]

/-! ## Removals -/

/-- The methods whose degrees a removal changes: the other ends of the calls at it. -/
theorem mem_callNeighbours {x id : String} :
    id ∈ s.callNeighbours x ↔
      id ≠ x ∧ ∃ a, a ∈ s.calls ∧ a.touches x = true ∧ a.touches id = true := by
  simp only [callNeighbours, List.mem_filter, List.mem_flatMap, Std.ExtTreeMap.mem_keys,
    List.mem_cons, List.not_mem_nil, or_false, bne_iff_ne, ne_eq]
  constructor
  · rintro ⟨⟨a, ⟨ha, hx⟩, hid⟩, hne⟩
    exact ⟨hne, a, ha, hx, Arrow.touches_iff.2 (hid.imp Eq.symm Eq.symm)⟩
  · rintro ⟨hne, a, ha, hx, hid⟩
    exact ⟨⟨a, ⟨ha, hx⟩, (Arrow.touches_iff.1 hid).imp Eq.symm Eq.symm⟩, hne⟩

/-- Removing a method removes it and no other, and it does so whether it was stored or not. -/
theorem bare?_removeMethod (x id : String) :
    (s.removeMethod x).bare? id = if x = id then none else s.bare? id := by
  unfold removeMethod
  by_cases hx : s.hasMethod x = true
  · rw [if_pos hx, bare?_refresh]
    simp only [bare?, method?, Std.ExtTreeMap.getElem?_erase, Std.compare_eq_iff_eq]
    by_cases h : x = id
    · rw [if_pos h, if_pos h, Option.map_none]
    · rw [if_neg h, if_neg h]
  · rw [if_neg hx]
    by_cases h : x = id
    · -- removing what is not stored changes nothing, and it is still not there
      subst h
      rw [if_pos rfl]
      simpa [hasMethod_eq] using hx
    · rw [if_neg h]

/-- Removing what is not stored changes nothing at all. -/
theorem removeMethod_of_not_hasMethod {s : Store} {x : String} (h : s.hasMethod x = false) :
    s.removeMethod x = s := by
  rw [removeMethod, if_neg (by simp [h])]

/-- Removing methods one by one removes those that are listed. -/
theorem bare?_removeMethods (xs : List String) (id : String) :
    ∀ s : Store, (xs.foldl removeMethod s).bare? id = if id ∈ xs then none else s.bare? id := by
  induction xs with
  | nil => intro s; simp
  | cons x xs ih =>
    intro s
    rw [List.foldl_cons, ih, bare?_removeMethod]
    by_cases hx : x = id
    · simp [hx]
    · have hx' : ¬id = x := fun h => hx h.symm
      simp [hx, hx']

/-- Removing methods changes nothing exactly when none of them is stored. -/
theorem removeMethods_eq_self (xs : List String) :
    xs.foldl removeMethod s = s ↔ ∀ x ∈ xs, s.hasMethod x = false := by
  constructor
  · intro h x hx
    have hnone := bare?_removeMethods xs x s
    rw [h, if_pos hx] at hnone
    rw [hasMethod_eq, hnone]
    rfl
  · intro h
    induction xs with
    | nil => rfl
    | cons x xs ih =>
      rw [List.foldl_cons, removeMethod_of_not_hasMethod (h x List.mem_cons_self)]
      exact ih fun y hy => h y (List.mem_cons_of_mem x hy)

/-- Classes go with their file, not with a method. -/
@[simp] theorem classes_removeMethod (x : String) : (s.removeMethod x).classes = s.classes := by
  unfold removeMethod
  split <;> rfl

end Store
end PathTriage
