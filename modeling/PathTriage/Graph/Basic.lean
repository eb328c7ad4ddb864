import Std.Data.ExtTreeMap
import Std.Data.ExtTreeSet

/-!
Directed graphs over ids: nodes and arrows between them.

A graph keeps its nodes and arrows in the order of their insertion and lists neighbours in that
order. Two graphs with the same nodes and arrows can still differ as values; what does not depend on
the order has to put neighbours into one of its own.
-/

namespace PathTriage

/-- An arrow from one id to another. -/
@[ext] structure Arrow where
  source : String
  target : String
deriving Repr, DecidableEq

namespace Arrow

/-- Arrows are ordered by source, then by target. -/
instance : Ord Arrow := ⟨compareLex (compareOn Arrow.source) (compareOn Arrow.target)⟩

instance : Std.TransOrd Arrow :=
  inferInstanceAs (Std.TransCmp (compareLex (compareOn Arrow.source) (compareOn Arrow.target)))

instance : Std.LawfulEqOrd Arrow where
  eq_of_compare {a b} h := by
    obtain ⟨a₁, a₂⟩ := a
    obtain ⟨b₁, b₂⟩ := b
    simp only [compare, compareLex, compareOn, Ordering.then_eq_eq] at h
    have h₁ : a₁ = b₁ := Std.LawfulEqOrd.eq_of_compare h.1
    have h₂ : a₂ = b₂ := Std.LawfulEqOrd.eq_of_compare h.2
    rw [h₁, h₂]

/-- Whether an arrow starts or ends at an id. -/
def touches (a : Arrow) (id : String) : Bool := a.source == id || a.target == id

end Arrow

/-- A list with one more element at its end, unless the list has it already. -/
def appendNew {α : Type} [DecidableEq α] (xs : List α) (x : α) : List α :=
  if x ∈ xs then xs else xs ++ [x]

theorem mem_appendNew {α : Type} [DecidableEq α] {xs : List α} {x y : α} :
    y ∈ appendNew xs x ↔ y ∈ xs ∨ y = x := by
  unfold appendNew
  split
  · next hx =>
    refine ⟨.inl, ?_⟩
    rintro (hy | rfl)
    · exact hy
    · exact hx
  · rw [List.mem_append, List.mem_singleton]

theorem nodup_appendNew {α : Type} [DecidableEq α] {xs : List α} (h : xs.Nodup) (x : α) :
    (appendNew xs x).Nodup := by
  unfold appendNew
  split
  · exact h
  · next hx =>
    refine List.nodup_append.2 ⟨h, List.pairwise_singleton _ x, ?_⟩
    intro a ha b hb
    rintro rfl
    exact hx (List.mem_singleton.1 hb ▸ ha)

/-- A directed graph: its nodes and its arrows, each once, in the order in which they came. -/
structure Graph where
  nodes : List String := []
  arrows : List Arrow := []
  nodes_nodup : nodes.Nodup := by exact .nil
  arrows_nodup : arrows.Nodup := by exact .nil

namespace Graph

/-- The graph without nodes. -/
def empty : Graph := {}

/-- The graph with one more node. -/
def addNode (g : Graph) (id : String) : Graph :=
  { g with
    nodes := appendNew g.nodes id
    nodes_nodup := nodup_appendNew g.nodes_nodup id }

/-- The graph with one more arrow and its two ends. -/
def addArrow (g : Graph) (a : Arrow) : Graph where
  nodes := appendNew (appendNew g.nodes a.source) a.target
  arrows := appendNew g.arrows a
  nodes_nodup := nodup_appendNew (nodup_appendNew g.nodes_nodup a.source) a.target
  arrows_nodup := nodup_appendNew g.arrows_nodup a

/-- The ids that a node points to, in the order in which the arrows came. -/
def callees (g : Graph) (id : String) : List String :=
  (g.arrows.filter fun a => a.source == id).map (·.target)

/-- The ids that point to a node, in the order in which the arrows came. -/
def callers (g : Graph) (id : String) : List String :=
  (g.arrows.filter fun a => a.target == id).map (·.source)

/-- The number of arrow ends at a node; an arrow from a node to itself has two. -/
def degree (g : Graph) (id : String) : Nat := (g.callers id).length + (g.callees id).length

/-! ## Insertions -/

/-- What is put into a graph: a node, or an arrow with its ends. -/
inductive Insertion where
  | node (id : String)
  | arrow (a : Arrow)
deriving Repr, DecidableEq

/-- The graph after one insertion. -/
def insert (g : Graph) : Insertion → Graph
  | .node id => g.addNode id
  | .arrow a => g.addArrow a

/-- The graph after a sequence of insertions. -/
def ofInsertions (history : List Insertion) : Graph := history.foldl insert empty

end Graph
end PathTriage
