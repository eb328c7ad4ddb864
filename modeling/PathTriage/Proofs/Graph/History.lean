import PathTriage.Proofs.Graph.Closed
import PathTriage.Proofs.Order
import Mathlib.Tactic.Tauto

/-!
Traversals see which nodes and arrows a graph has, and nothing of the order in which they came.

A graph lists the neighbours of a node in the order of insertion, so two histories of the same graph
give lists that are permutations of each other. Each traversal has its own way of hiding that:

  * routes and risk take the neighbours of a node by id (`Alike.extend`, `Alike.callerEntries`);
  * a ball sorts a whole level at once and drops repetitions (`Alike.nextLevel`);
  * hubs sort all nodes by degree and id (`Alike.hubs`).

What one level hides, all levels hide: the run lemmas go by induction on the remaining depth.
-/

namespace PathTriage.Graph

/-! ## What a history puts in -/

/-- The nodes that an insertion puts in. -/
def Insertion.ids : Insertion → List String
  | .node id => [id]
  | .arrow a => [a.source, a.target]

/-- One insertion adds its own nodes and loses none. -/
theorem mem_nodes_insert {g : Graph} {i : Insertion} {id : String} :
    id ∈ (g.insert i).nodes ↔ id ∈ g.nodes ∨ id ∈ i.ids := by
  cases i with
  | node x => simp only [insert, addNode, mem_appendNew, Insertion.ids, List.mem_singleton]
  | arrow a =>
    simp only [insert, addArrow, mem_appendNew, Insertion.ids, List.mem_cons, List.not_mem_nil,
      or_false, or_assoc]

/-- One insertion adds its arrow, if it has one, and loses none. -/
theorem mem_arrows_insert {g : Graph} {i : Insertion} {a : Arrow} :
    a ∈ (g.insert i).arrows ↔ a ∈ g.arrows ∨ .arrow a = i := by
  cases i with
  | node x => simp [insert, addNode]
  | arrow b => simp only [insert, addArrow, mem_appendNew, Insertion.arrow.injEq]

/-- By induction on the history, over any graph that it starts from. -/
theorem mem_nodes_foldl_insert {history : List Insertion} {id : String} :
    ∀ {g : Graph}, id ∈ (history.foldl insert g).nodes ↔
      id ∈ g.nodes ∨ id ∈ history.flatMap Insertion.ids := by
  induction history with
  | nil => simp
  | cons i rest ih =>
    intro g
    rw [List.foldl_cons, ih, mem_nodes_insert, List.flatMap_cons, List.mem_append, or_assoc]

theorem mem_arrows_foldl_insert {history : List Insertion} {a : Arrow} :
    ∀ {g : Graph}, a ∈ (history.foldl insert g).arrows ↔ a ∈ g.arrows ∨ .arrow a ∈ history := by
  induction history with
  | nil => simp
  | cons i rest ih =>
    intro g
    rw [List.foldl_cons, ih, mem_arrows_insert, List.mem_cons, or_assoc]

/-- The nodes of a graph are those that its history puts in, ends of arrows among them. -/
theorem mem_nodes_ofInsertions {history : List Insertion} {id : String} :
    id ∈ (ofInsertions history).nodes ↔ id ∈ history.flatMap Insertion.ids := by
  rw [ofInsertions, mem_nodes_foldl_insert]
  simp [empty]

/-- The arrows of a graph are those that its history puts in. -/
theorem mem_arrows_ofInsertions {history : List Insertion} {a : Arrow} :
    a ∈ (ofInsertions history).arrows ↔ .arrow a ∈ history := by
  rw [ofInsertions, mem_arrows_foldl_insert]
  simp [empty]

/-! ## Graphs that differ in their history only -/

/-- Two graphs with the same nodes and the same arrows. -/
structure Alike (g g' : Graph) : Prop where
  nodes : ∀ id, id ∈ g.nodes ↔ id ∈ g'.nodes
  arrows : ∀ a, a ∈ g.arrows ↔ a ∈ g'.arrows

namespace Alike

variable {g g' : Graph} (h : g.Alike g')

include h

/-- Nodes are listed without repetitions, so the same nodes are the same list up to order. -/
theorem nodes_perm : g.nodes.Perm g'.nodes :=
  (List.perm_ext_iff_of_nodup g.nodes_nodup g'.nodes_nodup).2 h.nodes

theorem contains (id : String) : g.nodes.contains id = g'.nodes.contains id := by
  rw [Bool.eq_iff_iff, List.contains_iff_mem, List.contains_iff_mem]
  exact h.nodes id

/-- Callees may be listed in another order, and nothing more. -/
theorem callees_perm (id : String) : (g.callees id).Perm (g'.callees id) := by
  refine (List.perm_ext_iff_of_nodup (g.nodup_callees id) (g'.nodup_callees id)).2 ?_
  intro x
  rw [mem_callees, mem_callees, h.arrows]

/-- Likewise for callers. -/
theorem callers_perm (id : String) : (g.callers id).Perm (g'.callers id) := by
  refine (List.perm_ext_iff_of_nodup (g.nodup_callers id) (g'.nodup_callers id)).2 ?_
  intro x
  rw [mem_callers, mem_callers, h.arrows]

/-! ### Routes -/

/-- Trails go on to callees by id, so one level of the search is the same list. -/
theorem extend : g.extend = g'.extend := by
  funext trails
  unfold Graph.extend
  refine congrArg (fun f => trails.flatMap f) ?_
  funext trail
  cases trail with
  | nil => rfl
  | cons last rest => simp only [Order.sorted_eq_of_perm (h.callees_perm last)]

/-- What arrives, level by level. -/
theorem arrivals (target : String) (depth : Nat) :
    g.arrivals target depth = g'.arrivals target depth := by
  induction depth with
  | zero => rfl
  | succ depth ih =>
    funext trails
    rw [Graph.arrivals, Graph.arrivals, h.extend, ih]

theorem routes (source target : String) (depth limit : Int) :
    g.routes source target depth limit = g'.routes source target depth limit := by
  rw [Graph.routes, Graph.routes, h.contains, h.contains, h.arrivals]

/-- Routes are the same lists in the same order, whatever the bounds are. -/
theorem routesWithin (source target : String) (depth limit : Json) :
    g.routesWithin source target depth limit = g'.routesWithin source target depth limit := by
  have hroutes : g.routes source target = g'.routes source target := by
    funext depth limit
    exact h.routes source target depth limit
  rw [Graph.routesWithin, Graph.routesWithin, h.contains, h.contains, hroutes,
    h.nodes_perm.length_eq]

/-! ### Balls -/

theorem mem_neighbours {id x : String} : x ∈ g.neighbours id ↔ x ∈ g'.neighbours id := by
  rw [neighbours, neighbours, List.mem_append, List.mem_append, (h.callers_perm id).mem_iff,
    (h.callees_perm id).mem_iff]

/-- A level is a sorted set, and both graphs give it the same members. -/
theorem nextLevel (seen level : List String) :
    g.nextLevel seen level = g'.nextLevel seen level := by
  refine Order.sortedSet_eq_of_mem_iff ?_
  intro x
  simp only [List.mem_filter, List.mem_flatMap, h.mem_neighbours]

theorem levels (depth : Nat) :
    ∀ seen level, g.levels depth seen level = g'.levels depth seen level := by
  induction depth with
  | zero =>
    intro seen level
    rfl
  | succ depth ih =>
    intro seen level
    rw [Graph.levels, Graph.levels, h.nextLevel, ih]

/-- A ball is the same list. Its depth is cut at the number of nodes, which is the same as well. -/
theorem ballWithin (origin : String) (depth : Json) :
    g.ballWithin origin depth = g'.ballWithin origin depth := by
  have hball : g.ball origin = g'.ball origin := by
    funext depth
    rw [ball, ball, h.contains, h.levels]
  rw [Graph.ballWithin, Graph.ballWithin, h.contains, hball, hopBound, hopBound,
    h.nodes_perm.length_eq]

/-! ### Propagation -/

section Propagation

variable {m : Type → Type} [Monad m] {α : Type} [Scalar m α]

/-- One level of propagation goes through callers by id. -/
theorem callerEntries (decay : α) (hop : Nat) (found level : List (String × α)) :
    ∀ next, g.callerEntries (m := m) decay hop found next level =
      g'.callerEntries decay hop found next level := by
  induction level with
  | nil =>
    intro next
    rfl
  | cons entry rest ih =>
    intro next
    obtain ⟨id, risk⟩ := entry
    rw [Graph.callerEntries, Graph.callerEntries, Order.sorted_eq_of_perm (h.callers_perm id)]
    simp only [ih]

/-- All levels of propagation. The arithmetic may be any, since it is applied in the same order. -/
theorem spread (decay : α) (depth : Nat) :
    ∀ hop found level, g.spread (m := m) decay depth hop found level =
      g'.spread decay depth hop found level := by
  induction depth with
  | zero =>
    intro hop found level
    rfl
  | succ depth ih =>
    intro hop found level
    rw [Graph.spread, Graph.spread, h.callerEntries]
    simp only [ih]

end Propagation

/-- Risk comes to the same nodes with the same values, and fails for the same inputs. -/
theorem propagateWithin (origin : String) (risk depth decay : Json) :
    g.propagateWithin origin risk depth decay = g'.propagateWithin origin risk depth decay := by
  have hspread : ∀ depth : Int,
      g.propagate (m := Except Failure) origin risk depth decay =
        g'.propagate origin risk depth decay := by
    intro depth
    rw [propagate, propagate, h.contains, h.spread]
  rw [Graph.propagateWithin, Graph.propagateWithin, h.contains]
  simp only [hspread]

/-! ### Hubs -/

theorem degree (id : String) : g.degree id = g'.degree id := by
  rw [Graph.degree, Graph.degree, (h.callers_perm id).length_eq, (h.callees_perm id).length_eq]

end Alike

/-- Hubs are compared by degree, the higher first, and then by id. -/
theorem compareDegrees_ne_gt {a b : String × Nat} :
    compareDegrees a b ≠ .gt ↔ b.2 < a.2 ∨ a.2 = b.2 ∧ a.1 ≤ b.1 := by
  rw [compareDegrees, ne_eq, Ordering.then_eq_gt, compare_gt_iff_gt, compare_gt_iff_gt,
    compare_eq_iff_eq, not_or, not_and, not_lt, not_lt]
  constructor
  · rintro ⟨hle, hid⟩
    rcases Nat.lt_or_eq_of_le hle with hlt | heq
    · exact .inl hlt
    · exact .inr ⟨heq.symm, hid heq⟩
  · rintro (hlt | ⟨heq, hid⟩)
    · exact ⟨hlt.le, fun heq => absurd heq hlt.ne⟩
    · exact ⟨heq.ge, fun _ => hid⟩

/-- No two different hubs are of equal rank, so the order of the nodes cannot show in their
    ranking. -/
theorem compareDegrees_linear (xs : List (String × Nat)) : Order.LinearOn compareDegrees xs where
  trans a _ b _ c _ hab hbc := by
    rw [compareDegrees_ne_gt] at hab hbc ⊢
    -- a higher degree on either side decides; at equal degrees the ids do
    rcases hab with hab | ⟨hab, hab'⟩ <;> rcases hbc with hbc | ⟨hbc, hbc'⟩
    · left; omega
    · left; omega
    · left; omega
    · exact .inr ⟨hab.trans hbc, hab'.trans hbc'⟩
  total a _ b _ := by
    rw [compareDegrees_ne_gt, compareDegrees_ne_gt]
    rcases Nat.lt_trichotomy a.2 b.2 with hlt | heq | hlt
    · exact .inr (.inl hlt)
    · rcases le_total a.1 b.1 with hle | hle
      · exact .inl (.inr ⟨heq, hle⟩)
      · exact .inr (.inr ⟨heq.symm, hle⟩)
    · exact .inl (.inl hlt)
  antisymm a _ b _ hab hba := by
    rw [compareDegrees_ne_gt] at hab hba
    rcases hab with hab | ⟨hab, hab'⟩
    · omega
    · rcases hba with hba | ⟨-, hba'⟩
      · omega
      · exact Prod.ext (le_antisymm hab' hba') hab

namespace Alike

/-- The ranking of hubs is the same, down to any limit. -/
theorem hubs {g g' : Graph} (h : g.Alike g') (limit : Int) : g.hubs limit = g'.hubs limit := by
  have hperm : (g.nodes.map fun id => (id, g.degree id)).Perm
      (g'.nodes.map fun id => (id, g'.degree id)) := by
    simp only [h.degree]
    exact h.nodes_perm.map _
  rw [Graph.hubs, Graph.hubs, (compareDegrees_linear _).sortBy_eq_of_perm
    (compareDegrees_linear _).toRanksOn hperm]

end Alike

/-! ## Histories -/

/-- **Traversals see only the graph.** Two sequences of insertions that put in the same nodes and
    the same arrows, in any order and with any repetitions, give graphs on which every traversal
    gives the same answer. -/
theorem traversals_ignore_history {history history' : List Insertion}
    (hnodes : ∀ id, id ∈ history.flatMap Insertion.ids ↔ id ∈ history'.flatMap Insertion.ids)
    (harrows : ∀ a, .arrow a ∈ history ↔ .arrow a ∈ history') :
    (∀ source target depth limit,
      (ofInsertions history).routesWithin source target depth limit =
        (ofInsertions history').routesWithin source target depth limit) ∧
    (∀ origin depth,
      (ofInsertions history).ballWithin origin depth =
        (ofInsertions history').ballWithin origin depth) ∧
    (∀ origin risk depth decay,
      (ofInsertions history).propagateWithin origin risk depth decay =
        (ofInsertions history').propagateWithin origin risk depth decay) ∧
    (∀ limit, (ofInsertions history).hubsWithin limit =
      (ofInsertions history').hubsWithin limit) := by
  have h : (ofInsertions history).Alike (ofInsertions history') := by
    constructor
    · intro id
      rw [mem_nodes_ofInsertions, mem_nodes_ofInsertions]
      exact hnodes id
    · intro a
      rw [mem_arrows_ofInsertions, mem_arrows_ofInsertions]
      exact harrows a
  refine ⟨h.routesWithin, h.ballWithin, h.propagateWithin, ?_⟩
  intro limit
  have hhubs : (ofInsertions history).hubs = (ofInsertions history').hubs := by
    funext limit
    exact h.hubs limit
  rw [hubsWithin, hubsWithin, hhubs]

/-- Four nodes with two ways from the first to the last. -/
def diamond : List Insertion :=
  [.arrow ⟨"a", "c"⟩, .arrow ⟨"a", "b"⟩, .arrow ⟨"c", "d"⟩, .arrow ⟨"b", "d"⟩]

/-- The same from the other end, with repetitions. -/
def diamondAgain : List Insertion :=
  [.node "d", .arrow ⟨"b", "d"⟩, .arrow ⟨"a", "b"⟩, .arrow ⟨"c", "d"⟩, .arrow ⟨"a", "b"⟩,
    .arrow ⟨"a", "c"⟩, .node "a"]

/-- The two graphs differ in how they list the callees of a node, and every traversal agrees on
    them. -/
theorem diamond_histories_agree :
    (ofInsertions diamond).callees "a" ≠ (ofInsertions diamondAgain).callees "a" ∧
    (∀ source target depth limit,
      (ofInsertions diamond).routesWithin source target depth limit =
        (ofInsertions diamondAgain).routesWithin source target depth limit) ∧
    (∀ origin depth,
      (ofInsertions diamond).ballWithin origin depth =
        (ofInsertions diamondAgain).ballWithin origin depth) ∧
    (∀ origin risk depth decay,
      (ofInsertions diamond).propagateWithin origin risk depth decay =
        (ofInsertions diamondAgain).propagateWithin origin risk depth decay) ∧
    (∀ limit,
      (ofInsertions diamond).hubsWithin limit = (ofInsertions diamondAgain).hubsWithin limit) := by
  refine ⟨by decide, traversals_ignore_history ?_ ?_⟩
  · intro id
    simp only [diamond, diamondAgain, Insertion.ids, List.flatMap_cons, List.flatMap_nil,
      List.cons_append, List.nil_append, List.mem_cons, List.not_mem_nil, or_false]
    tauto
  · intro a
    simp only [diamond, diamondAgain, List.mem_cons, List.not_mem_nil, or_false,
      Insertion.arrow.injEq, reduceCtorEq, false_or]
    tauto

end PathTriage.Graph
