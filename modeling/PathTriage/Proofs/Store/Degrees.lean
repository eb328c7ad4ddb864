import PathTriage.Proofs.Store.Integrity

/-!
The degrees that methods carry are those of the stored calls.

`Counted` says that taking the degrees of any stored method anew would change nothing. An operation
that touches calls refreshes only the methods it names, so what has to be shown is that the others
keep their callers and callees: `counted_congr` and `counted_refresh`.

With the degrees settled, a store is known by what it holds without them: `eq_of_content`.
-/

namespace PathTriage.Store

/-! ## Callers and callees as sets -/

theorem callerCount_eq_ncard (s : Store) (id : String) :
    s.callerCount id = {a : Arrow | a ∈ s.calls ∧ a.target = id}.ncard := by
  rw [callerCount, Table.countP_keys]
  simp only [beq_iff_eq]

theorem calleeCount_eq_ncard (s : Store) (id : String) :
    s.calleeCount id = {a : Arrow | a ∈ s.calls ∧ a.source = id}.ncard := by
  rw [calleeCount, Table.countP_keys]
  simp only [beq_iff_eq]

/-- A method counts the same in two stores that agree on the calls at its id. -/
theorem counted_congr {s t : Store} {m : Method}
    (h : ∀ a : Arrow, a.touches m.id = true → (a ∈ s.calls ↔ a ∈ t.calls)) :
    s.counted m = t.counted m := by
  have hin : s.callerCount m.id = t.callerCount m.id := by
    refine Table.countP_keys_congr fun a ha => h a ?_
    rw [Arrow.touches, ha, Bool.or_true]
  have hout : s.calleeCount m.id = t.calleeCount m.id := by
    refine Table.countP_keys_congr fun a ha => h a ?_
    rw [Arrow.touches, ha, Bool.true_or]
  rw [counted, counted, hin, hout]

/-! ## The invariant -/

/-- Every stored method carries the degrees that the stored calls give it. -/
def Counted (s : Store) : Prop := ∀ id m, s.method? id = some m → s.counted m = m

/-- Refreshing some methods is enough when the others were right already. -/
theorem counted_refresh {s : Store} {ids : List String}
    (h : ∀ id m, s.method? id = some m → id ∉ ids → s.counted m = m) :
    (s.refresh ids).Counted := by
  intro id m hm
  rw [method?_refresh] at hm
  by_cases hid : id ∈ ids
  · rw [if_pos hid] at hm
    obtain ⟨m₀, -, rfl⟩ := Option.map_eq_some_iff.1 hm
    rfl
  · rw [if_neg hid] at hm
    exact h id m hm hid

/-- A store whose records are in place and whose degrees are right. -/
structure Valid (s : Store) : Prop where
  integral : s.Integral
  counted : s.Counted

theorem valid_empty : Valid .empty where
  integral := integral_empty
  counted := by
    intro id m hm
    simp [empty, method?] at hm

namespace Valid

variable {s : Store} (h : s.Valid)

include h

/-- A change of methods that leaves their ids and degrees alone keeps the degrees right. -/
theorem counted_map {t : Store} (hcalls : t.calls = s.calls) {id : String} {m : Method}
    {f : Method → Method} (hf : ∀ m, s.counted (f m) = f (s.counted m))
    (hm : (s.method? id).map f = some m) : t.counted m = m := by
  obtain ⟨m₀, hm₀, rfl⟩ := Option.map_eq_some_iff.1 hm
  have hst : t.counted (f m₀) = s.counted (f m₀) := counted_congr fun a _ => by rw [hcalls]
  rw [hst, hf, h.counted id m₀ hm₀]

theorem putMethod (m : Method) : (s.putMethod m).Valid := by
  refine ⟨h.integral.putMethod m, ?_⟩
  intro id m' hm'
  rw [method?_putMethod] at hm'
  split at hm'
  · rw [Option.some.injEq] at hm'
    rw [← hm']
    rfl
  · exact h.counted id m' hm'

theorem addCall (c : Call) : (s.addCall c).Valid := by
  refine ⟨h.integral.addCall c, ?_⟩
  unfold Store.addCall
  split
  · refine counted_refresh ?_
    intro id m hm hid
    have hm' : s.method? id = some m := hm
    have hmid := h.integral.method_id id m hm'
    refine (counted_congr (t := s) ?_).trans (h.counted id m hm')
    intro a ha
    -- a call at a method that is not refreshed is not the new one
    have hne : ¬c.ends = a := by
      rintro rfl
      simp only [Arrow.touches, Call.ends, hmid, Bool.or_eq_true, beq_iff_eq] at ha
      simp only [List.mem_cons, List.not_mem_nil, or_false, not_or] at hid
      rcases ha with ha | ha
      · exact hid.1 ha.symm
      · exact hid.2 ha.symm
    simp [Std.ExtTreeMap.mem_insert, hne]
  · exact h.counted

theorem removeMethod (x : String) : (s.removeMethod x).Valid := by
  refine ⟨h.integral.removeMethod x, ?_⟩
  unfold Store.removeMethod
  split
  · refine counted_refresh ?_
    intro id m hm hid
    simp only [method?, Std.ExtTreeMap.getElem?_erase, Std.compare_eq_iff_eq] at hm
    split at hm
    · exact absurd hm (by simp)
    · next hx =>
      have hmid := h.integral.method_id id m hm
      refine (counted_congr (t := s) ?_).trans (h.counted id m hm)
      intro a ha
      rw [hmid] at ha
      have hmem : a ∈ s.calls.filter (fun a _ => !a.touches x) ↔
          a ∈ s.calls ∧ a.touches x = false := by
        rw [Std.ExtTreeMap.mem_filter]
        simp
      rw [hmem]
      refine ⟨fun h => h.1, fun hcall => ⟨hcall, ?_⟩⟩
      -- a call between the removed method and this one would make this one a neighbour
      by_contra htouch
      exact hid (s.mem_callNeighbours.2 ⟨Ne.symm hx, a, hcall, by simpa using htouch, ha⟩)
  · exact h.counted

end Valid

/-- Every elementary step keeps a store valid. -/
theorem valid_stable : Stable Valid where
  putMethod m h := h.putMethod m
  putClass c h := ⟨h.integral.putClass c, h.counted⟩
  addCall c h := h.addCall c
  addImplementation i h := by
    refine ⟨h.integral.addImplementation i, ?_⟩
    unfold addImplementation
    split <;> exact h.counted
  addDataFlow f h := by
    refine ⟨h.integral.addDataFlow f, ?_⟩
    unfold addDataFlow
    split <;> exact h.counted
  setRisk := by
    intro s x score h
    refine ⟨integral_stable.setRisk x score h.integral, ?_⟩
    intro id m hm
    have hm' : (s.setRisk x score).methods[id]? = some m := hm
    rw [setRisk, Table.getElem?_modify_eq] at hm'
    split at hm'
    · exact h.counted_map rfl (f := fun m => { m with riskScore := score }) (fun _ => rfl) hm'
    · exact h.counted id m hm'
  removeMethod x h := h.removeMethod x
  removeClassesOf filePath h := ⟨h.integral.removeClassesOf filePath, h.counted⟩
  renameFile := by
    intro s old new h
    refine ⟨h.integral.renameFile old new, ?_⟩
    intro id m hm
    have hm' : (s.renameFile old new).methods[id]? = some m := hm
    rw [renameFile, Std.ExtTreeMap.getElem?_map] at hm'
    -- renaming does not look at degrees, so it can be done before or after counting
    refine h.counted_map rfl (fun m => ?_) hm'
    by_cases hin : m.isIn old = true
    · have hin' : (s.counted m).isIn old = true := hin
      rw [if_pos hin, if_pos hin']
      rfl
    · have hin' : ¬(s.counted m).isIn old = true := hin
      rw [if_neg hin, if_neg hin']

theorem Reachable.valid {s : Store} (h : s.Reachable) : s.Valid :=
  valid_stable.of_reachable valid_empty h

/-- Two valid stores with the same bare methods and the same calls have the same methods. -/
theorem methods_eq_of_content {s t : Store} (hs : s.Valid) (ht : t.Valid)
    (hbare : ∀ id, s.bare? id = t.bare? id) (hcalls : s.calls = t.calls) :
    s.methods = t.methods := by
  refine Std.ExtTreeMap.ext_getElem? fun id => ?_
  have hbare : (s.method? id).map Method.bare = (t.method? id).map Method.bare := hbare id
  change s.method? id = t.method? id
  cases hsm : s.method? id with
  | none =>
    cases htm : t.method? id with
    | none => rfl
    | some n => simp [hsm, htm] at hbare
  | some m =>
    cases htm : t.method? id with
    | none => simp [hsm, htm] at hbare
    | some n =>
      rw [hsm, htm, Option.map_some, Option.map_some, Option.some.injEq] at hbare
      -- the degrees of both are those of the same calls
      have hmn : m = n := by
        calc m = s.counted m := (hs.counted id m hsm).symm
          _ = s.counted m.bare := rfl
          _ = s.counted n.bare := by rw [hbare]
          _ = t.counted n := counted_congr fun a _ => by rw [hcalls]
          _ = n := ht.counted id n htm
      rw [hmn]

/-- Two valid stores that hold the same apart from degrees are the same store. -/
theorem eq_of_content {s t : Store} (hs : s.Valid) (ht : t.Valid)
    (hmethods : ∀ id, s.bare? id = t.bare? id) (hclasses : ∀ id, s.class? id = t.class? id)
    (hcalls : ∀ a : Arrow, s.calls[a]? = t.calls[a]?)
    (himplementations : s.implementations = t.implementations)
    (hdataFlows : s.dataFlows = t.dataFlows) : s = t := by
  have hcalls : s.calls = t.calls := Std.ExtTreeMap.ext_getElem? fun a => hcalls a
  have hclasses : s.classes = t.classes := Std.ExtTreeMap.ext_getElem? fun id => hclasses id
  have hnodes : s.callNodes = t.callNodes := by
    refine Std.ExtTreeSet.ext_mem fun id => ?_
    rw [← mem_nodes, ← mem_nodes, hs.integral.node_iff, ht.integral.node_iff, hasMethod_eq,
      hasMethod_eq, hmethods]
  have hmethods : s.methods = t.methods := methods_eq_of_content hs ht hmethods hcalls
  exact Store.ext hmethods hclasses hnodes hcalls himplementations hdataFlows

/-! ## Exact degrees -/

/-- **Degrees are exact.** In every store that can be reached, a method carries the number of the
    stored calls of it and the number of the stored calls that it makes. A call of a method by
    itself is one of each. -/
theorem degrees_exact {s : Store} (h : s.Reachable) {id : String} {m : Method}
    (hm : s.method? id = some m) :
    m.inDegree = .ofInt {a : Arrow | a ∈ s.calls ∧ a.target = m.id}.ncard ∧
      m.outDegree = .ofInt {a : Arrow | a ∈ s.calls ∧ a.source = m.id}.ncard := by
  have hcounted := h.valid.counted id m hm
  rw [← callerCount_eq_ncard, ← calleeCount_eq_ncard]
  constructor
  · exact (congrArg Method.inDegree hcounted).symm
  · exact (congrArg Method.outDegree hcounted).symm

/-- A method that is put in with a degree of its own, calls itself and another, and loses the
    other to a change whose analysis fails. -/
def selfCaller : Store :=
  after
    [.putMethod { id := "a", name := "a", inDegree := .ofInt 7 },
     .putMethod { id := "b", name := "b" },
     .addCall { caller := "a", callee := "a" },
     .addCall { caller := "a", callee := "b" },
     .update (some fun _ => .error "unreadable")
       [{ filePath := "f", kind := .modified, deletedMethods := ["b"] }]]

theorem degrees_exact_selfCaller :
    selfCaller.Reachable ∧ ∃ m, selfCaller.method? "a" = some m ∧
      m.inDegree = .ofInt 1 ∧ m.outDegree = .ofInt 1 := by
  have hr : selfCaller.Reachable := reachable_after _
  obtain ⟨m, hm⟩ := (selfCaller.hasMethod_iff "a").1 (by decide +kernel)
  obtain ⟨hin, hout⟩ := degrees_exact hr hm
  have hid : m.id = "a" := hr.integral.method_id "a" m hm
  have hcallers : selfCaller.callerCount "a" = 1 := by decide +kernel
  have hcallees : selfCaller.calleeCount "a" = 1 := by decide +kernel
  rw [← callerCount_eq_ncard, hid, hcallers] at hin
  rw [← calleeCount_eq_ncard, hid, hcallees] at hout
  exact ⟨hr, m, hm, hin, hout⟩

end PathTriage.Store
