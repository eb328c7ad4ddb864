import PathTriage.Graph.Bound
import PathTriage.Proofs.Outcome

/-!
Traversals of a graph whose arrows lie between its nodes never leave its nodes.

Each traversal goes outward by `callers` and `callees`. For each loop there is a step lemma on one
level and, by induction on the remaining depth, a run lemma on the whole.
-/

namespace PathTriage.Graph

/-- Every arrow has both of its ends among the nodes. -/
def Closed (g : Graph) : Prop := ∀ a ∈ g.arrows, a.source ∈ g.nodes ∧ a.target ∈ g.nodes

/-! ## Neighbours -/

section Neighbours

variable {g : Graph} {id x : String}

/-- The callees of a node are the ends of the arrows out of it. -/
theorem mem_callees : x ∈ g.callees id ↔ (⟨id, x⟩ : Arrow) ∈ g.arrows := by
  simp only [callees, List.mem_map, List.mem_filter, beq_iff_eq]
  constructor
  · rintro ⟨a, ⟨ha, rfl⟩, rfl⟩
    exact ha
  · intro h
    exact ⟨⟨id, x⟩, ⟨h, rfl⟩, rfl⟩

/-- The callers of a node are the starts of the arrows into it. -/
theorem mem_callers : x ∈ g.callers id ↔ (⟨x, id⟩ : Arrow) ∈ g.arrows := by
  simp only [callers, List.mem_map, List.mem_filter, beq_iff_eq]
  constructor
  · rintro ⟨a, ⟨ha, rfl⟩, rfl⟩
    exact ha
  · intro h
    exact ⟨⟨x, id⟩, ⟨h, rfl⟩, rfl⟩

/-- No callee is listed twice: two arrows out of one node that have the same end are the same. -/
theorem nodup_callees (g : Graph) (id : String) : (g.callees id).Nodup := by
  refine List.pairwise_map.2 (List.pairwise_filter.2 (g.arrows_nodup.imp ?_))
  intro a b hne ha hb htarget
  rw [beq_iff_eq] at ha hb
  exact hne (Arrow.ext (ha.trans hb.symm) htarget)

theorem nodup_callers (g : Graph) (id : String) : (g.callers id).Nodup := by
  refine List.pairwise_map.2 (List.pairwise_filter.2 (g.arrows_nodup.imp ?_))
  intro a b hne ha hb hsource
  rw [beq_iff_eq] at ha hb
  exact hne (Arrow.ext hsource (ha.trans hb.symm))

/-- A callee is a node, whether or not the caller is one. -/
theorem Closed.callees (h : g.Closed) (hx : x ∈ g.callees id) : x ∈ g.nodes :=
  (h _ (mem_callees.1 hx)).2

theorem Closed.callers (h : g.Closed) (hx : x ∈ g.callers id) : x ∈ g.nodes :=
  (h _ (mem_callers.1 hx)).1

end Neighbours

/-! ## Routes -/

/-- Whatever the bounds are, a result is the first routes within some whole ones. -/
theorem exists_routes {g : Graph} {source target : String} {depth limit : Json}
    {found : List (List String)} (hfound : g.routesWithin source target depth limit = .ok found) :
    ∃ hops most : Int, found = g.routes source target hops most := by
  have hnone : g.routes source target 0 0 = [] := if_pos (Bool.or_true _)
  -- every early exit gives no routes, which are those within the bounds zero and zero
  unfold routesWithin at hfound
  split at hfound
  · cases hfound
    exact ⟨0, 0, hnone.symm⟩
  · next hnodes =>
    obtain ⟨stop, -, hfound⟩ := Outcome.bind_eq_ok.1 hfound
    cases stop with
    | true =>
      cases hfound
      exact ⟨0, 0, hnone.symm⟩
    | false =>
      simp only [Bool.false_eq_true, if_false] at hfound
      split at hfound
      · next hself =>
        cases hfound
        refine ⟨0, 1, ?_⟩
        rw [routes, if_neg (by simpa using hnodes), if_pos hself]
      · obtain ⟨flat, -, hfound⟩ := Outcome.bind_eq_ok.1 hfound
        cases flat with
        | true =>
          cases hfound
          exact ⟨0, 0, hnone.symm⟩
        | false =>
          simp only [Bool.false_eq_true, if_false] at hfound
          obtain ⟨most, -, hfound⟩ := Outcome.bind_eq_ok.1 hfound
          cases hfound
          exact ⟨_, most, rfl⟩

/-- Every id on every trail is a node. -/
def Within (g : Graph) (trails : List (List String)) : Prop :=
  ∀ trail ∈ trails, ∀ id ∈ trail, id ∈ g.nodes

theorem within_nil (g : Graph) : g.Within [] := by
  intro trail htrail
  simp at htrail

/-- A search starts on one trail, which is within the graph if its source is a node. -/
theorem within_start {g : Graph} {id : String} (hid : id ∈ g.nodes) : g.Within [[id]] := by
  intro trail htrail x hx
  rw [List.mem_singleton] at htrail
  subst htrail
  rw [List.mem_singleton] at hx
  exact hx ▸ hid

namespace Closed

variable {g : Graph} (h : g.Closed)

include h

/-- One level of a search: trails go on to callees, which are nodes. -/
theorem extend {trails : List (List String)} (ht : g.Within trails) :
    g.Within (g.extend trails) := by
  intro trail htrail id hid
  simp only [Graph.extend, List.mem_flatMap] at htrail
  obtain ⟨old, hold, htrail⟩ := htrail
  cases old with
  | nil => simp at htrail
  | cons last rest =>
    simp only [List.mem_map, List.mem_filter] at htrail
    obtain ⟨next, ⟨hnext, -⟩, rfl⟩ := htrail
    rcases List.mem_cons.1 hid with rfl | hid
    · exact h.callees (Order.mem_sorted.1 hnext)
    · exact ht _ hold id hid

/-- All levels of a search, whether a trail arrives or is carried on to the next level. -/
theorem arrivals (target : String) (depth : Nat) :
    ∀ {trails : List (List String)}, g.Within trails →
      g.Within (g.arrivals target depth trails) := by
  induction depth with
  | zero =>
    intro trails _ trail htrail
    simp [Graph.arrivals] at htrail
  | succ depth ih =>
    intro trails ht trail htrail id hid
    have hnext := h.extend ht
    rw [Graph.arrivals, List.mem_append] at htrail
    rcases htrail with htrail | htrail
    · exact hnext trail (List.mem_of_mem_filter htrail) id hid
    · split at htrail
      · simp at htrail
      · refine ih ?_ trail htrail id hid
        intro t ht'
        exact hnext t (List.mem_of_mem_filter ht')

/-- Every node on a route is a node of the graph. A source or target that is not a node has no
    routes. -/
theorem routes (source target : String) (depth limit : Int) :
    g.Within (g.routes source target depth limit) := by
  unfold Graph.routes
  split
  · exact within_nil g
  · next hnodes =>
    simp only [Bool.or_eq_true, Bool.not_eq_true', not_or, Bool.not_eq_false] at hnodes
    have hstart : g.Within [[source]] := within_start (List.contains_iff_mem.1 hnodes.1.1)
    split
    · exact hstart
    · intro route hroute id hid
      obtain ⟨trail, htrail, rfl⟩ := List.mem_map.1 (List.mem_of_mem_take hroute)
      exact h.arrivals target _ hstart trail htrail id (List.mem_reverse.1 hid)

/-- The same for bounds of any kind, as far as they give routes at all. -/
theorem routesWithin {source target : String} {depth limit : Json} {found : List (List String)}
    (hfound : g.routesWithin source target depth limit = .ok found) : g.Within found := by
  obtain ⟨hops, most, rfl⟩ := exists_routes hfound
  exact h.routes source target hops most

/-! ## Balls -/

/-- What a level of a ball reaches next are callers and callees, hence nodes. -/
theorem nextLevel {seen level : List String} {id : String} (hid : id ∈ g.nextLevel seen level) :
    id ∈ g.nodes := by
  have hid : id ∈ (level.flatMap g.neighbours).filter fun id => !seen.contains id :=
    Order.mem_sortedSet.1 hid
  obtain ⟨x, -, hx⟩ := List.mem_flatMap.1 (List.mem_of_mem_filter hid)
  rcases List.mem_append.1 hx with hx | hx
  · exact h.callers hx
  · exact h.callees hx

/-- All levels of a ball stay within the nodes if the first one does. -/
theorem levels (depth : Nat) :
    ∀ {seen level : List String}, (∀ id ∈ level, id ∈ g.nodes) →
      ∀ id ∈ g.levels depth seen level, id ∈ g.nodes := by
  induction depth with
  | zero =>
    intro seen level hlevel id hid
    exact hlevel id hid
  | succ depth ih =>
    intro seen level hlevel id hid
    rw [Graph.levels] at hid
    split at hid
    · exact hlevel id hid
    · rcases List.mem_append.1 hid with hid | hid
      · exact hlevel id hid
      · exact ih (fun x hx => h.nextLevel hx) id hid

/-- A ball around a node consists of nodes, and around anything else it is empty. -/
theorem ballWithin {origin : String} {depth : Json} {found : List String}
    (hfound : g.ballWithin origin depth = .ok found) : ∀ id ∈ found, id ∈ g.nodes := by
  unfold Graph.ballWithin at hfound
  split at hfound
  · next horigin =>
    obtain ⟨hops, -, hfound⟩ := Outcome.bind_eq_ok.1 hfound
    cases hfound
    unfold ball
    rw [if_pos horigin]
    refine h.levels _ ?_
    intro id hid
    rw [List.mem_singleton] at hid
    exact hid ▸ List.contains_iff_mem.1 horigin
  · cases hfound
    simp

/-! ## Propagation -/

section Propagation

variable {α : Type} [Scalar (Except Failure) α]

/-- One level of propagation: each new entry is a caller of an entry of the level before. -/
theorem callerEntries (decay : α) (hop : Nat) (found : List (String × α))
    {level : List (String × α)} :
    ∀ {next result : List (String × α)}, g.callerEntries decay hop found next level = .ok result →
      (∀ e ∈ next, e.1 ∈ g.nodes) → ∀ e ∈ result, e.1 ∈ g.nodes := by
  induction level with
  | nil =>
    intro next result hresult hnext
    cases hresult
    exact hnext
  | cons entry rest ih =>
    intro next result hresult hnext
    obtain ⟨id, risk⟩ := entry
    rw [Graph.callerEntries] at hresult
    obtain ⟨entries, hentries, hresult⟩ := Outcome.bind_eq_ok.1 hresult
    refine ih hresult ?_
    intro e he
    rcases List.mem_append.1 he with he | he
    · exact hnext e he
    · -- each new entry stands for a caller of the level
      obtain ⟨c, hc, hce⟩ := Outcome.exists_of_mem_mapM hentries he
      obtain ⟨r, -, hr⟩ := Outcome.bind_eq_ok.1 hce
      cases hr
      exact h.callers (Order.mem_sorted.1 (List.mem_of_mem_filter hc))

/-- All levels of propagation. A level that is not yet entered plays no part, so the invariant is on
    what is found so far. -/
theorem spread (decay : α) (depth : Nat) :
    ∀ {hop : Nat} {found level result : List (String × α)},
      g.spread decay depth hop found level = .ok result →
      (∀ e ∈ found, e.1 ∈ g.nodes) → ∀ e ∈ result, e.1 ∈ g.nodes := by
  induction depth with
  | zero =>
    intro hop found level result hresult hfound
    cases hresult
    exact hfound
  | succ depth ih =>
    intro hop found level result hresult hfound
    rw [Graph.spread] at hresult
    obtain ⟨next, hnext, hresult⟩ := Outcome.bind_eq_ok.1 hresult
    split at hresult
    · cases hresult
      exact hfound
    · refine ih hresult ?_
      intro e he
      rcases List.mem_append.1 he with he | he
      · exact hfound e he
      · exact h.callerEntries decay hop found hnext (by simp) e he

end Propagation

/-- Risk is propagated to nodes only. -/
theorem propagateWithin {origin : String} {risk depth decay : Json} {found : List (String × Json)}
    (hfound : g.propagateWithin origin risk depth decay = .ok found) :
    ∀ e ∈ found, e.1 ∈ g.nodes := by
  unfold Graph.propagateWithin at hfound
  split at hfound
  · next horigin =>
    obtain ⟨hops, -, hfound⟩ := Outcome.bind_eq_ok.1 hfound
    unfold propagate at hfound
    rw [if_pos horigin] at hfound
    refine h.spread decay _ hfound ?_
    intro e he
    rw [List.mem_singleton] at he
    exact he ▸ List.contains_iff_mem.1 horigin
  · cases hfound
    simp

end Closed
end PathTriage.Graph
