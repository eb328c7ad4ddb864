import PathTriage.Proofs.Graph.Closed
import PathTriage.Proofs.Store.Integrity

/-!
Queries of a store find every method they look up.

A query walks over the graph of calls and looks the nodes it meets up among the methods.
`methodsAll?` is the look-up that fails when one of them is missing. In an integral store it gives
what the queries answer, so none of them passes over anything.
-/

namespace PathTriage.Store

/-- The methods with the given ids, provided that every one of them is stored. -/
def methodsAll? (s : Store) (ids : List String) : Option (List Method) := ids.mapM s.method?

/-- Looking up ids that are all stored loses none of them. -/
theorem methodsAll?_eq {s : Store} {ids : List String} (h : ∀ id ∈ ids, s.hasMethod id = true) :
    s.methodsAll? ids = some (s.methodsWith ids) := by
  refine Outcome.mapM_eq_some_filterMap ?_
  intro id hid
  rw [Option.isSome_iff_exists]
  exact (s.hasMethod_iff id).1 (h id hid)

/-- The arrows of the graph are the stored calls. -/
theorem mem_arrows {s : Store} {a : Arrow} : a ∈ s.graph.arrows ↔ a ∈ s.calls := by
  rw [graph, Std.ExtTreeMap.mem_keys]

namespace Integral

variable {s : Store} (h : s.Integral)

include h

/-- The graph of calls of an integral store is closed. -/
theorem closed : s.graph.Closed := by
  intro a ha
  obtain ⟨c, hc⟩ : ∃ c, s.calls[a]? = some c := by
    rw [← Option.isSome_iff_exists, ← Std.ExtTreeMap.mem_iff_isSome_getElem?]
    exact mem_arrows.1 ha
  obtain ⟨hsrc, htgt⟩ := (s.knows_iff a).1 (h.calls a c hc).2
  exact ⟨(h.node_iff _).2 hsrc, (h.node_iff _).2 htgt⟩

/-- A guarded look-up of nodes finds them all, when the guard only turns away what has none. -/
theorem guarded {id : String} {ids : List String} (hids : ∀ x ∈ ids, x ∈ s.graph.nodes)
    (hid : ∀ x ∈ ids, id ∈ s.graph.nodes) :
    s.methodsAll? ids = some (if s.callNodes.contains id then s.methodsWith ids else []) := by
  have hall : ∀ x ∈ ids, s.hasMethod x = true := fun x hx => (h.node_iff x).1 (hids x hx)
  rw [methodsAll?_eq hall]
  split
  · rfl
  · next hnode =>
    have hnone : ids = [] :=
      List.eq_nil_iff_forall_not_mem.2 fun x hx => hnode (mem_nodes.1 (hid x hx))
    rw [hnone]
    rfl

/-- Every caller that the graph knows is given as a method. -/
theorem callers (id : String) :
    s.methodsAll? (s.graph.callers id) = some (s.callersOf id) := by
  refine h.guarded ?_ ?_
  · intro x hx
    exact h.closed.callers hx
  · intro x hx
    exact (h.closed _ (Graph.mem_callers.1 hx)).2

theorem callees (id : String) :
    s.methodsAll? (s.graph.callees id) = some (s.calleesOf id) := by
  refine h.guarded ?_ ?_
  · intro x hx
    exact h.closed.callees hx
  · intro x hx
    exact (h.closed _ (Graph.mem_callees.1 hx)).1

/-- Every id in a ball is given as a method, in order. -/
theorem impact {id : String} {depth : Json} {ids : List String}
    (hids : s.graph.ballWithin id depth = .ok ids) :
    ∃ ms, s.methodsAll? ids = some ms ∧ s.impactOf id depth = .ok ms := by
  have hall : ∀ x ∈ ids, s.hasMethod x = true := by
    intro x hx
    exact (h.node_iff x).1 (h.closed.ballWithin hids x hx)
  refine ⟨_, methodsAll?_eq hall, ?_⟩
  unfold impactOf
  split
  · rw [hids]
    rfl
  · next hid =>
    have hnode : ¬s.graph.nodes.contains id = true :=
      fun hnode => hid ((h.node_iff id).1 (List.contains_iff_mem.1 hnode))
    rw [Graph.ballWithin, if_neg hnode] at hids
    cases hids
    rfl

/-- Every id on a route is given as a method, route by route. -/
theorem paths {source target : String} {depth limit : Json} {routes : List (List String)}
    (hroutes : s.graph.routesWithin source target depth limit = .ok routes) :
    ∃ paths, s.findPaths source target depth limit = .ok paths ∧
      routes.mapM s.methodsAll? = some (paths.map (·.methods)) := by
  have hall : routes.mapM s.methodsAll? = some (routes.map s.methodsWith) := by
    have hlook : ∀ route ∈ routes, s.methodsAll? route = some (s.methodsWith route) := by
      intro route hroute
      refine methodsAll?_eq ?_
      intro x hx
      exact (h.node_iff x).1 (h.closed.routesWithin hroutes route hroute x hx)
    rw [Outcome.mapM_eq_some_filterMap fun route hroute => by rw [hlook route hroute]; rfl]
    rw [List.filterMap_congr (g := fun route => some (s.methodsWith route)) hlook]
    rw [List.filterMap_eq_map']
  -- routes stay within the nodes of the graph, which are the stored methods
  unfold findPaths
  split
  · refine ⟨_, by rw [hroutes]; rfl, ?_⟩
    have hmethods : (routes.mapIdx fun i ids => s.pathAlong (pathName i) ids).map (·.methods) =
        routes.map s.methodsWith := by
      refine List.ext_getElem (by simp) ?_
      intro i _ _
      simp [pathAlong, CallPath.along]
    rw [hall, hmethods]
  · next hsource =>
    have hnode : source ∉ s.graph.nodes := fun hnode => hsource ((h.node_iff source).1 hnode)
    rw [Graph.routesWithin, if_pos (by simp [hnode])] at hroutes
    cases hroutes
    exact ⟨[], rfl, rfl⟩

/-- Every id that risk is propagated to is stored. -/
theorem propagation {id : String} {depth : Json} {entries : List (String × Json)}
    (hentries : s.propagateRisk id depth = .ok entries) :
    ∀ e ∈ entries, s.hasMethod e.1 = true := by
  intro e he
  unfold propagateRisk at hentries
  split at hentries
  · cases hentries
    simp at he
  · exact (h.node_iff _).1 (h.closed.propagateWithin hentries e he)

end Integral

/-! ## Soundness of every reachable store -/

/-- A store that refers only to what it holds, so that its queries find all they look up. -/
structure Sound (s : Store) : Prop where
  integral : s.Integral
  callers : ∀ id, s.methodsAll? (s.graph.callers id) = some (s.callersOf id)
  callees : ∀ id, s.methodsAll? (s.graph.callees id) = some (s.calleesOf id)
  impact : ∀ id depth ids, s.graph.ballWithin id depth = .ok ids →
    ∃ ms, s.methodsAll? ids = some ms ∧ s.impactOf id depth = .ok ms
  paths : ∀ source target depth limit routes,
    s.graph.routesWithin source target depth limit = .ok routes →
    ∃ paths, s.findPaths source target depth limit = .ok paths ∧
      routes.mapM s.methodsAll? = some (paths.map (·.methods))
  propagation : ∀ id depth entries, s.propagateRisk id depth = .ok entries →
    ∀ e ∈ entries, s.hasMethod e.1 = true

/-- **Referential integrity.** Every store that can be reached is integral, and no query of it
    looks up a method that is missing. -/
theorem sound_of_reachable {s : Store} (h : s.Reachable) : s.Sound where
  integral := h.integral
  callers := h.integral.callers
  callees := h.integral.callees
  impact _ _ _ := h.integral.impact
  paths _ _ _ _ _ := h.integral.paths
  propagation _ _ _ := h.integral.propagation

/-- Two files with links of all kinds between them, one of which loses a method when it is analysed
    again and then fails to be read. -/
def reanalysed : Store :=
  after
    [.applyAnalysis
       { filePath := "f"
         methods := [{ id := "a", name := "a" }, { id := "b", name := "b" }]
         calls := [{ caller := "a", callee := "b" }] },
     .applyAnalysis
       { filePath := "g"
         methods := [{ id := "c", name := "c" }]
         calls := [{ caller := "c", callee := "a" }, { caller := "c", callee := "b" }] },
     .addImplementation { interfaceMethod := "c", method := "b" },
     .addDataFlow { source := "b", target := "c" },
     .update (some fun _ => .ok { filePath := "f", methods := [{ id := "a", name := "a" }] })
       [{ filePath := "f", kind := .modified }],
     .update (some fun _ => .error "unreadable") [{ filePath := "f", kind := .modified }]]

theorem sound_of_reachable_reanalysed :
    reanalysed.Reachable ∧ reanalysed.hasMethod "b" = false ∧ reanalysed.hasCall "c" "a" = true ∧
      reanalysed.linkCount = 1 ∧ reanalysed.Sound := by
  have hr : reanalysed.Reachable := reachable_after _
  exact ⟨hr, by decide +kernel, by decide +kernel, by decide +kernel, sound_of_reachable hr⟩

end PathTriage.Store
