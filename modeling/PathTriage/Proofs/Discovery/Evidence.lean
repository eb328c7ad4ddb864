import PathTriage.Proofs.Discovery
import PathTriage.Proofs.Score.Exact
import PathTriage.Proofs.Score.Outline
import PathTriage.Proofs.Store.Figures

/-!
Evidence of paths: what a store puts into the slots of a path, and what scores read off it.

A store looks the call of every hop up among its own calls, and each of them is stored under its two
ends. So a call that is found is evidence for its hop, and the resolved calls of a path are those
that the store has between its consecutive methods (`resolvedCalls_pathAlong`).

A route that a search finds is a simple walk along stored calls. That makes the path over it
evidenced in every slot (`Traced.evidenced`), and what scores and signals make of an evidenced path
follows from that alone. `Traced` is kept by every step of discovery, whatever bounds it was given.
-/

namespace PathTriage

/-! ## Slots that were looked up -/

theorem getElem?_zip_tail {α : Type} {xs : List α} {i : Nat} {a b : α} :
    (xs.zip xs.tail)[i]? = some (a, b) ↔ xs[i]? = some a ∧ xs[i + 1]? = some b := by
  rw [List.getElem?_zip_eq_some, List.getElem?_tail]

/-- The slot of a hop holds what was found for its two methods. -/
theorem CallPath.getElem?_slots_along {id : String} {methods : List Method}
    {call? : Method → Method → Option Call} {i : Nat} {a b : Method} (ha : methods[i]? = some a)
    (hb : methods[i + 1]? = some b) : (along id methods call?).slots[i]? = some (call? a b) := by
  show (List.map _ _)[i]? = _
  rw [List.getElem?_map, getElem?_zip_tail.2 ⟨ha, hb⟩, Option.map_some]

/-- The slots of a path along methods are evidence where the call that was found has the right
    ends. -/
theorem CallPath.resolvedCalls_along (known : String → String → Bool) (id : String)
    (methods : List Method) (call? : Method → Method → Option Call) :
    (along id methods call?).resolvedCalls known =
      (methods.zip methods.tail).filterMap fun hop => (call? hop.1 hop.2).filter fun c =>
        c.caller == hop.1.id && c.callee == hop.2.id && known c.caller c.callee := by
  have hsteps : (along id methods call?).steps =
      (methods.zip methods.tail).map fun hop => (hop, call? hop.1 hop.2) := by
    show (methods.zip methods.tail).zip ((methods.zip methods.tail).map _) = _
    rw [← List.zip_map', List.map_id']
  rw [resolvedCalls, hsteps, List.filterMap_map]
  rfl

theorem CallPath.map_snd_steps (p : CallPath) : p.steps.map Prod.snd = p.slots := by
  have hhops : (p.methods.zip p.methods.tail).length = p.slots.length := by
    rw [List.length_zip, List.length_tail, p.slots_length]
    omega
  rw [steps, List.map_snd_zip hhops.ge]

theorem eraseDups_of_nodup {α : Type} [BEq α] [LawfulBEq α] {xs : List α} (h : xs.Nodup) :
    xs.eraseDups = xs := by
  induction xs with
  | nil => rfl
  | cons x xs ih =>
    obtain ⟨hx, hxs⟩ := List.nodup_cons.1 h
    -- erasing the later copies of the first one erases nothing
    have hothers : xs.filter (fun y => !y == x) = xs := by
      rw [List.filter_eq_self]
      intro y hy
      rw [Bool.not_eq_true', beq_eq_false_iff_ne]
      rintro rfl
      exact hx hy
    rw [List.eraseDups_cons, hothers, ih hxs]

/-- Where everything is found, nothing is left out. -/
theorem map_some_filterMap {α β : Type} {f : α → Option β} {xs : List α}
    (h : ∀ x ∈ xs, ∃ y, f x = some y) : (xs.filterMap f).map some = xs.map f := by
  induction xs with
  | nil => rfl
  | cons x xs ih =>
    obtain ⟨y, hy⟩ := h x List.mem_cons_self
    rw [List.filterMap_cons_some hy, List.map_cons, List.map_cons, hy,
      ih fun x' hx => h x' (List.mem_cons_of_mem x hx)]

namespace Store

variable {s : Store}

theorem hasCall_iff {caller callee : String} :
    s.hasCall caller callee = true ↔ ∃ c, s.call? caller callee = some c := by
  rw [hasCall, call?, Std.ExtTreeMap.contains_eq_isSome_getElem?, Option.isSome_iff_exists]

theorem Integral.ends_of_call? (hs : s.Integral) {caller callee : String} {c : Call}
    (hc : s.call? caller callee = some c) : c.caller = caller ∧ c.callee = callee := by
  have hends : c.ends = ⟨caller, callee⟩ := (hs.calls _ c hc).1
  exact ⟨congrArg Arrow.source hends, congrArg Arrow.target hends⟩

/-- A stored call passes every test of evidence for its hop. -/
theorem Integral.isEvidence (hs : s.Integral) {caller callee : String} {c : Call}
    (hc : s.call? caller callee = some c) :
    (c.caller == caller && c.callee == callee && s.hasCall c.caller c.callee) = true := by
  obtain ⟨rfl, rfl⟩ := hs.ends_of_call? hc
  rw [beq_self_eq_true, beq_self_eq_true, hasCall_iff.2 ⟨c, hc⟩]
  rfl

section PathAlong

variable (hs : s.Integral) (name : String) {ids : List String}
  (hids : ∀ id ∈ ids, s.hasMethod id = true)

include hs

theorem Integral.stored_of_mem_pathAlong {m : Method} (hm : m ∈ (s.pathAlong name ids).methods) :
    s.method? m.id = some m := by
  obtain ⟨id, -, hid⟩ := List.mem_filterMap.1 hm
  rwa [hs.method_id id m hid]

include hids

/-- The hops of a path over stored methods, by id. -/
theorem Integral.hops_pathAlong :
    ids.zip ids.tail =
      ((s.methodsWith ids).zip (s.methodsWith ids).tail).map (Prod.map (·.id) (·.id)) := by
  have hmethods : (s.methodsWith ids).map (·.id) = ids :=
    Discovery.methodIds_pathAlong hs "" hids
  rw [← zip_tail_map, hmethods]

theorem Integral.slots_pathAlong :
    (s.pathAlong name ids).slots = (ids.zip ids.tail).map fun hop => s.call? hop.1 hop.2 := by
  rw [hs.hops_pathAlong hids, List.map_map]
  rfl

/-- The calls that are evidence on a path over stored methods are those that the store has. -/
theorem Integral.resolvedCalls_pathAlong :
    (s.pathAlong name ids).resolvedCalls s.hasCall =
      (ids.zip ids.tail).filterMap fun hop => s.call? hop.1 hop.2 := by
  rw [hs.hops_pathAlong hids, List.filterMap_map, pathAlong, CallPath.resolvedCalls_along]
  apply List.filterMap_congr
  rintro ⟨a, b⟩ -
  show (s.call? a.id b.id).filter _ = s.call? a.id b.id
  -- what is looked up is stored under its own ends, so it passes the test
  cases hc : s.call? a.id b.id with
  | none => rfl
  | some c => rw [Option.filter_some, if_pos (hs.isEvidence hc)]

end PathAlong

/-! ## Evidenced paths -/

/-- A path with evidence for every hop: its methods are the stored ones, no two of them have one id,
    and each slot holds the stored call from one method to the next. -/
structure Evidenced (s : Store) (p : CallPath) : Prop where
  stored : ∀ m ∈ p.methods, s.method? m.id = some m
  nodup : p.methodIds.Nodup
  slot : ∀ i a b, p.methods[i]? = some a → p.methods[i + 1]? = some b →
    ∃ c, s.call? a.id b.id = some c ∧ p.slots[i]? = some (some c)

namespace Evidenced

variable {p : CallPath} (h : s.Evidenced p)

include h

/-- A step of the path has the stored call of its hop. -/
theorem exists_of_mem_steps {step : (Method × Method) × Option Call} (hstep : step ∈ p.steps) :
    ∃ c, step.2 = some c ∧ s.call? step.1.1.id step.1.2.id = some c := by
  obtain ⟨⟨a, b⟩, slot⟩ := step
  obtain ⟨i, hi⟩ := List.mem_iff_getElem?.1 hstep
  rw [CallPath.steps, List.getElem?_zip_eq_some, getElem?_zip_tail] at hi
  obtain ⟨⟨ha, hb⟩, hslot⟩ := hi
  obtain ⟨c, hc, hat⟩ := h.slot i a b ha hb
  exact ⟨c, Option.some.inj (hslot.symm.trans hat), hc⟩

/-- Every slot is evidence for its hop. -/
theorem map_resolvedCalls (hs : s.Integral) : (p.resolvedCalls s.hasCall).map some = p.slots := by
  have hpass : ∀ step ∈ p.steps, (step.2.filter fun c =>
      c.caller == step.1.1.id && c.callee == step.1.2.id && s.hasCall c.caller c.callee) =
        step.2 := by
    intro step hstep
    obtain ⟨c, hslot, hc⟩ := h.exists_of_mem_steps hstep
    rw [hslot, Option.filter_some, if_pos (hs.isEvidence hc)]
  have hfull : ∀ step ∈ p.steps, ∃ c, step.2 = some c := by
    intro step hstep
    obtain ⟨c, hslot, -⟩ := h.exists_of_mem_steps hstep
    exact ⟨c, hslot⟩
  rw [CallPath.resolvedCalls, List.filterMap_congr hpass, map_some_filterMap hfull, p.map_snd_steps]

theorem length_resolvedCalls (hs : s.Integral) : (p.resolvedCalls s.hasCall).length = p.hops := by
  have hlength := congrArg List.length (h.map_resolvedCalls hs)
  rwa [List.length_map, p.slots_length] at hlength

theorem eraseDups_methodIds : p.methodIds.eraseDups = p.methodIds := eraseDups_of_nodup h.nodup

theorem not_isCircular : Signal.isCircular p = false := by
  rw [Signal.isCircular, h.eraseDups_methodIds]
  exact bne_self_eq_false _

theorem repetitions_eq_zero : Risk.repetitions p.methods = 0 := by
  have hids : (p.methods.map (·.id)).eraseDups = p.methods.map (·.id) := h.eraseDups_methodIds
  rw [Risk.repetitions, hids, List.length_map, Nat.sub_self]

section Scores

variable {K : Type} [Field K] [LinearOrder K] [IsStrictOrderedRing K] [Decades K]

/-- Every hop counts. -/
theorem connectivity_eq_one (hs : s.Integral) :
    (Intent.connectivity s.hasCall p : Id K).run = 1 := by
  rw [Intent.connectivity, h.length_resolvedCalls hs]
  split
  · exact Scalar.run_one
  · next hhops => rw [Scalar.run_quotient, div_self (Nat.cast_ne_zero.2 hhops)]

/-- Nothing is repeated. -/
theorem circular_eq_zero : (Risk.circular p.methods : Id K).run = 0 := by
  rw [Risk.circular, h.repetitions_eq_zero]
  split
  · exact Scalar.run_zero
  · rw [Scalar.run_capped, Scalar.run_quotient, Nat.cast_zero, zero_div]
    exact min_eq_right zero_le_one

end Scores
end Evidenced

/-! ## Searches -/

/-- A route over distinct stored methods, each of which calls the next. -/
structure Traced (s : Store) (route : List String) : Prop extends Discovery.Passable s route where
  chain : route.IsChain fun caller callee => s.hasCall caller callee = true

theorem traced_alone {target : String} (h : s.hasMethod target = true) : s.Traced [target] where
  toPassable := Discovery.passable_alone h
  chain := .singleton target

/-- The path over such a route has evidence for every hop. -/
theorem Traced.evidenced (hs : s.Integral) {route : List String} (h : s.Traced route)
    (name : String) : s.Evidenced (s.pathAlong name route) where
  stored _ hm := hs.stored_of_mem_pathAlong name hm
  nodup := by
    rw [Discovery.methodIds_pathAlong hs name h.stored]
    exact h.nodup
  slot i a b ha hb := by
    have hids := Discovery.methodIds_pathAlong hs name h.stored
    -- a walk along ids is one along the methods that have them
    have hchain :
        (s.pathAlong name route).methods.IsChain fun a b => s.hasCall a.id b.id = true := by
      have hroute := h.chain
      rw [← hids, CallPath.methodIds, List.isChain_map] at hroute
      exact hroute
    obtain ⟨hi, rfl⟩ := List.getElem?_eq_some_iff.1 ha
    obtain ⟨hi', rfl⟩ := List.getElem?_eq_some_iff.1 hb
    obtain ⟨c, hc⟩ := hasCall_iff.1 (List.isChain_iff_getElem.1 hchain i hi')
    refine ⟨c, hc, ?_⟩
    rw [← hc]
    exact CallPath.getElem?_slots_along ha hb

/-- Whatever bounds a search between two methods is given, its routes are traced. -/
theorem Integral.traced_of_routesWithin (hs : s.Integral) {source target : String}
    {depth limit : Json} {found : List (List String)}
    (hfound : s.graph.routesWithin source target depth limit = .ok found) :
    ∀ route ∈ found, s.Traced route := by
  intro route hroute
  obtain ⟨hsource, hwalk⟩ := Graph.simpleWalk_of_mem_routesWithin hfound hroute
  refine ⟨⟨hwalk.ne_nil, hwalk.nodup, ?_⟩, ?_⟩
  · intro id hid
    exact (hs.node_iff id).1 (hwalk.mem_nodes hs.closed hsource hid)
  · apply hwalk.chain.imp
    intro caller callee harrow
    exact mem_arrows.1 harrow

end Store

namespace Discovery

variable {s : Store} {depth limit : Json}

theorem routesFrom_traced (hs : s.Integral) {target : String} {entries : List Method} :
    ∀ {found : List (List String)}, routesFrom s target depth limit entries = .ok found →
      ∀ route ∈ found, s.Traced route := by
  induction entries with
  | nil =>
    intro found hfound
    cases hfound
    exact List.forall_mem_nil _
  | cons entry rest ih =>
    intro found hfound
    rw [routesFrom] at hfound
    obtain ⟨routes, hroutes, hfound⟩ := Outcome.bind_eq_ok.1 hfound
    obtain ⟨more, hmore, hfound⟩ := Outcome.bind_eq_ok.1 hfound
    cases hfound
    exact List.forall_mem_append.2 ⟨hs.traced_of_routesWithin hroutes, ih hmore⟩

theorem routesTo_traced (hs : s.Integral) {target : String} (htarget : s.hasMethod target = true)
    {found : List (List String)} (hfound : routesTo s target depth limit = .ok found) :
    ∀ route ∈ found, s.Traced route := by
  rw [routesTo] at hfound
  obtain ⟨routes, hroutes, hfound⟩ := Outcome.bind_eq_ok.1 hfound
  cases hfound
  -- without a route from an entry point the target stands alone
  split
  · exact List.forall_mem_singleton.2 (Store.traced_alone htarget)
  · exact routesFrom_traced hs hroutes

/-- Taking routes in adds no others. -/
theorem collect_forall {P : List String → Prop} {rest : List (List String)}
    (hrest : ∀ route ∈ rest, P route) : ∀ {found : List (List String)} {out : Found},
    (∀ route ∈ found, P route) → collect limit found rest = .ok out →
      ∀ route ∈ out.routes, P route := by
  induction rest with
  | nil =>
    intro found out hold hout
    cases hout
    exact hold
  | cons route rest ih =>
    intro found out hold hout
    obtain ⟨hroute, hrest⟩ := List.forall_mem_cons.1 hrest
    have hnew : ∀ r ∈ found ++ [route], P r :=
      List.forall_mem_append.2 ⟨hold, List.forall_mem_singleton.2 hroute⟩
    rw [collect] at hout
    split at hout
    · exact ih hrest hold hout
    · -- full or not, what is found by now is what was found and this route
      obtain ⟨isFull, -, hout⟩ := Outcome.bind_eq_ok.1 hout
      cases isFull with
      | true =>
        cases hout
        exact hnew
      | false => exact ih hrest hnew hout

/-- From target to target the routes stay traced. -/
theorem collectTargets_traced (hs : s.Integral) {targets : List String}
    (htargets : ∀ target ∈ targets, s.hasMethod target = true) :
    ∀ {found : List (List String)} {out : Found}, (∀ route ∈ found, s.Traced route) →
      collectTargets s depth limit found targets = .ok out →
        ∀ route ∈ out.routes, s.Traced route := by
  induction targets with
  | nil =>
    intro found out hold hout
    cases hout
    exact hold
  | cons target rest ih =>
    intro found out hold hout
    obtain ⟨htarget, hrest⟩ := List.forall_mem_cons.1 htargets
    rw [collectTargets] at hout
    obtain ⟨routes, hroutes, hout⟩ := Outcome.bind_eq_ok.1 hout
    obtain ⟨next, hnext, hout⟩ := Outcome.bind_eq_ok.1 hout
    have htraced := collect_forall (routesTo_traced hs htarget hroutes) hold hnext
    split at hout
    · cases hout
      exact htraced
    · exact ih hrest htraced hout

theorem candidateRoutes_traced (hs : s.Integral) {changed : List String} {found : Found}
    (hfound : candidateRoutes s changed depth limit = .ok found) :
    ∀ route ∈ found.routes, s.Traced route := by
  refine collectTargets_traced hs ?_ (List.forall_mem_nil _) hfound
  intro target htarget
  exact (((targets_ascending s changed).mem_iff target).1 htarget).2

end Discovery

namespace Store

variable {s : Store}

/-- A path that a search of the store returns, whatever bounds it was given. -/
inductive Finds (s : Store) (p : CallPath) : Prop
  | between {source target : String} {depth limit : Json} {paths : List CallPath} :
      s.findPaths source target depth limit = .ok paths → p ∈ paths → s.Finds p
  | candidate {changed : List String} {depth limit : Json} {paths : List CallPath}
      {events : List Event} :
      Discovery.candidates s changed depth limit = .ok (paths, events) → p ∈ paths → s.Finds p

theorem exists_of_mem_pathsOver {routes : List (List String)} {p : CallPath}
    (hp : p ∈ Discovery.pathsOver s routes) :
    ∃ name, ∃ route ∈ routes, p = s.pathAlong name route := by
  obtain ⟨i, hi, rfl⟩ := List.mem_mapIdx.1 hp
  exact ⟨_, _, List.getElem_mem hi, rfl⟩

/-- Every path that is found is the one over a traced route. -/
theorem Finds.exists_traced (hs : s.Integral) {p : CallPath} (h : s.Finds p) :
    ∃ name route, s.Traced route ∧ p = s.pathAlong name route := by
  rcases h with ⟨hpaths, hp⟩ | ⟨hpaths, hp⟩
  · rw [findPaths] at hpaths
    split at hpaths
    · obtain ⟨routes, hroutes, hpaths⟩ := Outcome.bind_eq_ok.1 hpaths
      cases hpaths
      obtain ⟨name, route, hroute, rfl⟩ := exists_of_mem_pathsOver hp
      exact ⟨name, route, hs.traced_of_routesWithin hroutes route hroute, rfl⟩
    · cases hpaths
      cases hp
  · obtain ⟨found, hfound, rfl⟩ := Discovery.exists_candidateRoutes hpaths
    obtain ⟨name, route, hroute, rfl⟩ := exists_of_mem_pathsOver hp
    exact ⟨name, route, Discovery.candidateRoutes_traced hs hfound route hroute, rfl⟩

theorem Finds.evidenced (hs : s.Integral) {p : CallPath} (h : s.Finds p) : s.Evidenced p := by
  obtain ⟨name, route, htraced, rfl⟩ := h.exists_traced hs
  exact htraced.evidenced hs name

/-- A path that was asked for is the one over the given methods, when there are any and all are
    stored. -/
theorem buildPath?_eq_some_iff {name : String} {ids : List String} {p : CallPath} :
    s.buildPath? name ids = some p ↔
      ids ≠ [] ∧ (∀ id ∈ ids, s.hasMethod id = true) ∧ p = s.pathAlong name ids := by
  rw [buildPath?, ← List.all_eq_true, ← List.isEmpty_eq_false_iff]
  cases ids.isEmpty with
  | true => simp
  | false =>
    cases ids.all s.hasMethod with
    | true => simp [eq_comm]
    | false => simp

/-- **Paths that are found are evidenced and acyclic.** In every store that can be reached, a path
    that a search returns, whatever its bounds, goes over stored methods without a repetition, and
    each of its slots holds the stored call of its hop. So all of its slots are evidence, every hop
    counts for connectivity, and nothing counts as repeated. Searches return whenever the depth is a
    number and the limit an integer. A path that was asked for, over any known methods, has the
    stored calls between them in its slots, and these are its evidence. -/
theorem finds_evidenced {s : Store} (h : s.Reachable) (K : Type) [Field K] [LinearOrder K]
    [IsStrictOrderedRing K] [Decades K] :
    (∀ p, s.Finds p → s.Evidenced p ∧ p.slots.length = p.hops ∧
      (p.resolvedCalls s.hasCall).map some = p.slots ∧
      (Intent.connectivity s.hasCall p : Id K).run = 1 ∧
      Signal.isCircular p = false ∧ Risk.repetitions p.methods = 0 ∧
      (Risk.circular p.methods : Id K).run = 0) ∧
    (∀ depth : Json, depth.IsNumber → ∀ limit : Int,
      (∀ source target, ∃ paths, s.findPaths source target depth (.ofInt limit) = .ok paths) ∧
      ∀ changed, ∃ paths events,
        Discovery.candidates s changed depth (.ofInt limit) = .ok (paths, events)) ∧
    ∀ name ids, ids ≠ [] → (∀ id ∈ ids, s.hasMethod id = true) →
      ∃ p, s.buildPath? name ids = some p ∧ p.methodIds = ids ∧
        (∀ m ∈ p.methods, s.method? m.id = some m) ∧
        p.slots = ((ids.zip ids.tail).map fun hop => s.call? hop.1 hop.2) ∧
        p.resolvedCalls s.hasCall =
          (ids.zip ids.tail).filterMap fun hop => s.call? hop.1 hop.2 := by
  have hs := h.integral
  refine ⟨?_, ?_, ?_⟩
  · intro p hp
    have hevidenced := hp.evidenced hs
    exact ⟨hevidenced, p.slots_length, hevidenced.map_resolvedCalls hs,
      hevidenced.connectivity_eq_one hs, hevidenced.not_isCircular, hevidenced.repetitions_eq_zero,
      hevidenced.circular_eq_zero⟩
  · intro depth hdepth limit
    refine ⟨?_, ?_⟩
    · intro source target
      obtain ⟨paths, hpaths, -⟩ := s.gives_findPaths source target hdepth limit
      exact ⟨paths, hpaths⟩
    · intro changed
      obtain ⟨n, hn⟩ := Option.isSome_iff_exists.1 hdepth
      obtain ⟨routes, events, hpaths, -⟩ := Discovery.exists_candidates h.valid hn limit changed
      exact ⟨_, events, hpaths⟩
  · intro name ids hne hids
    exact ⟨_, buildPath?_eq_some_iff.2 ⟨hne, hids, rfl⟩, Discovery.methodIds_pathAlong hs name hids,
      fun m hm => hs.stored_of_mem_pathAlong name hm, hs.slots_pathAlong name hids,
      hs.resolvedCalls_pathAlong name hids⟩

theorem finds_evidenced_roundTrip :
    Discovery.roundTrip.Reachable ∧
    (∃ paths, Discovery.roundTrip.findPaths "a" "c" (.ofInt 3) (.ofInt 5) = .ok paths ∧
      paths.length = 2 ∧
      ∀ p ∈ paths, Discovery.roundTrip.Evidenced p ∧
        (p.resolvedCalls Discovery.roundTrip.hasCall).map some = p.slots ∧
        (Intent.connectivity Discovery.roundTrip.hasCall p : Id ℝ).run = 1) ∧
    ∃ p, Discovery.roundTrip.buildPath? "asked" ["a", "b", "a", "c"] = some p ∧
      p.resolvedCalls Discovery.roundTrip.hasCall =
        [{ caller := "a", callee := "b" }, { caller := "a", callee := "c" }] := by
  have hr : Discovery.roundTrip.Reachable := reachable_after _
  obtain ⟨hfound, -, hbuilt⟩ := finds_evidenced hr ℝ
  have hgraph : Discovery.roundTrip.graph =
      { nodes := ["a", "b", "c", "d"], nodes_nodup := by decide
        arrows := [⟨"a", "b"⟩, ⟨"a", "c"⟩, ⟨"b", "c"⟩, ⟨"c", "a"⟩]
        arrows_nodup := by decide } := by
    with_unfolding_all rfl
  have hroutes : Discovery.roundTrip.graph.routesWithin "a" "c" (.ofInt 3) (.ofInt 5) =
      .ok [["a", "c"], ["a", "b", "c"]] := by
    rw [hgraph]
    cbv
  have hsource : Discovery.roundTrip.hasMethod "a" = true := by decide +kernel
  have hpaths : Discovery.roundTrip.findPaths "a" "c" (.ofInt 3) (.ofInt 5) =
      .ok (Discovery.pathsOver Discovery.roundTrip [["a", "c"], ["a", "b", "c"]]) := by
    rw [findPaths, if_pos hsource, hroutes]
    rfl
  refine ⟨hr, ⟨_, hpaths, rfl, ?_⟩, ?_⟩
  · intro p hp
    obtain ⟨hevidenced, -, hresolved, hconnected, -⟩ := hfound p (.between hpaths hp)
    exact ⟨hevidenced, hresolved, hconnected⟩
  · obtain ⟨p, hp, -, -, -, hcalls⟩ :=
      hbuilt "asked" ["a", "b", "a", "c"] (by decide) (by decide +kernel)
    refine ⟨p, hp, hcalls.trans ?_⟩
    with_unfolding_all rfl

end Store
end PathTriage
