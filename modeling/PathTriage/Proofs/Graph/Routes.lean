import PathTriage.Proofs.Graph.Closed
import PathTriage.Proofs.Number
import PathTriage.Proofs.Order
import Mathlib.Data.List.Chain
import Mathlib.Data.List.Nodup
import Mathlib.Data.String.Basic
import Mathlib.Order.Compare

/-!
Routes from one node to another: the traversal finds exactly the simple ones, in order.

A route is a walk along arrows that passes no node twice. The traversal keeps, level by level, the
walks that have not arrived yet, so a level is described by three facts: which walks are in it, how
long they are, and that they are sorted.

  * `Level.extend`: one more hop gives all walks of the next length (step lemma).
  * `Level.arrivals`: all levels together give all routes, shorter ones first (run lemma, by
    induction on the remaining depth).
  * `Listing.unique`: there is only one such list.
-/

namespace PathTriage.Graph

/-! ## Routes and their order -/

/-- A walk along arrows from a node that passes no node twice. -/
structure SimpleWalk (g : Graph) (source : String) (route : List String) : Prop where
  head : route.head? = some source
  chain : route.IsChain fun a b => (⟨a, b⟩ : Arrow) ∈ g.arrows
  nodup : route.Nodup

/-- A simple walk to a target along at most `depth` arrows. -/
structure IsRoute (g : Graph) (source target : String) (depth : Int) (route : List String) : Prop
    extends g.SimpleWalk source route where
  last : route.getLast? = some target
  hops : (route.length : Int) - 1 ≤ depth

/-- Shorter routes come first, equally long ones by their ids. -/
def Before (r r' : List String) : Prop :=
  r.length < r'.length ∨ r.length = r'.length ∧ r < r'

/-- A list of all routes from one node to another, each once, in order. -/
structure Listing (g : Graph) (source target : String) (depth : Int)
    (all : List (List String)) : Prop where
  mem_iff : ∀ route, route ∈ all ↔ g.IsRoute source target depth route
  sorted : all.Pairwise Before

theorem Before.asymm {r r' : List String} (h : Before r r') : ¬Before r' r := by
  rintro (hlt | ⟨heq, hlt⟩)
  · rcases h with h | h
    · omega
    · omega
  · rcases h with h | h
    · omega
    · exact List.lt_asymm h.2 hlt

instance : Std.Asymm Before where
  asymm _ _ h := h.asymm

theorem Listing.nodup {g : Graph} {source target : String} {depth : Int} {all : List (List String)}
    (h : g.Listing source target depth all) : all.Nodup :=
  h.sorted.nodup

/-- There is one list of all routes. -/
theorem Listing.unique {g : Graph} {source target : String} {depth : Int}
    {all all' : List (List String)} (h : g.Listing source target depth all)
    (h' : g.Listing source target depth all') : all = all' := by
  refine h.sorted.eq_of_mem_iff h'.sorted ?_
  intro route
  rw [h.mem_iff, h'.mem_iff]

/-! ## Single hops -/

section Hops

variable {g : Graph} {source : String}

/-- The callees of a node are taken by id. -/
theorem sorted_callees (g : Graph) (id : String) :
    (Order.sorted (g.callees id)).Pairwise (· < ·) :=
  Order.sorted_lt (g.nodup_callees id)

theorem SimpleWalk.ne_nil {route : List String} (h : g.SimpleWalk source route) : route ≠ [] := by
  rintro rfl
  exact absurd h.head (by simp)

theorem simpleWalk_start (g : Graph) (source : String) : g.SimpleWalk source [source] where
  head := rfl
  chain := .singleton source
  nodup := List.nodup_singleton source

/-- A walk of one node stays where it is. -/
theorem simpleWalk_singleton {id : String} : g.SimpleWalk source [id] ↔ id = source := by
  constructor
  · intro h
    simpa using h.head
  · rintro rfl
    exact simpleWalk_start g id

/-- In a closed graph a walk that starts at a node stays among the nodes. -/
theorem SimpleWalk.mem_nodes (hg : g.Closed) {route : List String} (h : g.SimpleWalk source route)
    (hsource : source ∈ g.nodes) {id : String} (hid : id ∈ route) : id ∈ g.nodes := by
  obtain ⟨hhead, hchain, -⟩ := h
  induction route generalizing source with
  | nil => simp at hid
  | cons x rest ih =>
    have hx : x = source := by simpa using hhead
    rcases List.mem_cons.1 hid with rfl | hid
    · exact hx ▸ hsource
    · cases rest with
      | nil => simp at hid
      | cons y rest =>
        have harrow := (List.isChain_cons_cons.1 hchain).1
        exact ih (hg _ harrow).2 hid rfl (List.isChain_cons_cons.1 hchain).2

/-- One more hop: an arrow from the last node to one that is not on the walk. -/
theorem simpleWalk_concat {route : List String} {last next : String}
    (hlast : route.getLast? = some last) :
    g.SimpleWalk source (route ++ [next]) ↔
      g.SimpleWalk source route ∧ (⟨last, next⟩ : Arrow) ∈ g.arrows ∧ next ∉ route := by
  have hne : route ≠ [] := by
    rintro rfl
    exact absurd hlast (by simp)
  constructor
  · rintro ⟨hhead, hchain, hnodup⟩
    rw [List.isChain_append] at hchain
    rw [List.head?_append_of_ne_nil _ hne] at hhead
    -- the chain condition across the seam is the one new arrow
    have harrow := hchain.2.2 last hlast next rfl
    have hnext : next ∉ route := by
      intro hmem
      exact (List.nodup_append.1 hnodup).2.2 next hmem next List.mem_cons_self rfl
    exact ⟨⟨hhead, hchain.1, hnodup.of_append_left⟩, harrow, hnext⟩
  · rintro ⟨hwalk, harrow, hnext⟩
    refine ⟨?_, ?_, ?_⟩
    · rw [List.head?_append_of_ne_nil _ hne]
      exact hwalk.head
    · rw [List.isChain_append]
      refine ⟨hwalk.chain, .singleton next, ?_⟩
      intro x hx y hy
      rw [hlast, Option.mem_some_iff] at hx
      rw [List.head?_cons, Option.mem_some_iff] at hy
      exact hx ▸ hy ▸ harrow
    · rw [List.nodup_append]
      refine ⟨hwalk.nodup, List.nodup_singleton next, ?_⟩
      intro a ha b hb
      rw [List.mem_singleton] at hb
      rintro rfl
      exact hnext (hb ▸ ha)

end Hops

/-! ## Levels -/

/-- The trails of one level: all simple walks of some length that avoid the target, last node first,
    in the order of their ids. -/
structure Level (g : Graph) (source target : String) (length : Nat) (trails : List (List String)) :
    Prop where
  mem_iff : ∀ trail, trail ∈ trails ↔
    g.SimpleWalk source trail.reverse ∧ trail.length = length ∧ target ∉ trail
  sorted : trails.Pairwise fun a b => a.reverse < b.reverse

/-- The walks of one hop avoid every other node. -/
theorem level_start {g : Graph} {source target : String} (hne : source ≠ target) :
    g.Level source target 1 [[source]] where
  mem_iff := by
    intro trail
    rw [List.mem_singleton]
    constructor
    · rintro rfl
      exact ⟨simpleWalk_start g source, rfl, by simpa using hne.symm⟩
    · rintro ⟨hwalk, hlength, -⟩
      obtain ⟨id, rfl⟩ := List.length_eq_one_iff.1 hlength
      rw [simpleWalk_singleton.1 hwalk]
  sorted := List.pairwise_singleton _ _

section Level

variable {g : Graph} {source target : String} {length : Nat} {trails : List (List String)}

theorem getLast?_reverse_cons (last : String) (rest : List String) :
    (last :: rest).reverse.getLast? = some last := by
  rw [List.getLast?_reverse, List.head?_cons]

theorem mem_extend {trail : List String} :
    trail ∈ g.extend trails ↔
      ∃ last rest next, last :: rest ∈ trails ∧ (⟨last, next⟩ : Arrow) ∈ g.arrows ∧
        next ∉ last :: rest ∧ trail = next :: last :: rest := by
  rw [extend, List.mem_flatMap]
  constructor
  · rintro ⟨old, hold, htrail⟩
    cases old with
    | nil => simp at htrail
    | cons last rest =>
      obtain ⟨next, hnext, rfl⟩ := List.mem_map.1 htrail
      rw [List.mem_filter, Order.mem_sorted, mem_callees] at hnext
      exact ⟨last, rest, next, hold, hnext.1, by simpa using hnext.2, rfl⟩
  · rintro ⟨last, rest, next, hold, harrow, hnext, rfl⟩
    refine ⟨last :: rest, hold, List.mem_map.2 ⟨next, ?_, rfl⟩⟩
    rw [List.mem_filter, Order.mem_sorted, mem_callees]
    exact ⟨harrow, by simpa using hnext⟩

/-- A walk that is continued comes before every continuation of a later one of the same length. -/
theorem concat_lt_concat {r r' : List String} (hlength : r.length = r'.length) (hlt : r < r')
    (x x' : String) : r ++ [x] < r' ++ [x'] := by
  induction r generalizing r' with
  | nil =>
    rw [List.length_nil] at hlength
    rw [List.length_eq_zero_iff.1 hlength.symm] at hlt
    exact absurd hlt (List.lt_irrefl [])
  | cons a r ih =>
    cases r' with
    | nil => simp at hlength
    | cons a' r' =>
      rw [List.cons_append, List.cons_append, List.cons_lt_cons_iff]
      rcases List.cons_lt_cons_iff.1 hlt with ha | ⟨rfl, hrest⟩
      · exact .inl ha
      · exact .inr ⟨rfl, ih (by simpa using hlength) hrest⟩

namespace Level

variable (h : g.Level source target length trails)

include h

/-- One hop from a level: all walks that are longer by one and met the target at most now. -/
theorem mem_extend_iff (hpos : 0 < length) (trail : List String) :
    trail ∈ g.extend trails ↔
      g.SimpleWalk source trail.reverse ∧ trail.length = length + 1 ∧ target ∉ trail.tail := by
  rw [mem_extend]
  constructor
  · rintro ⟨last, rest, next, hold, harrow, hnext, rfl⟩
    obtain ⟨hwalk, hlength, htarget⟩ := (h.mem_iff _).1 hold
    refine ⟨?_, by simpa using hlength, htarget⟩
    rw [List.reverse_cons, simpleWalk_concat (getLast?_reverse_cons last rest), List.mem_reverse]
    exact ⟨hwalk, harrow, hnext⟩
  · rintro ⟨hwalk, hlength, htarget⟩
    match trail, hlength with
    | [next], hlength => simp at hlength; omega
    | next :: last :: rest, hlength =>
      rw [List.reverse_cons, simpleWalk_concat (getLast?_reverse_cons last rest),
        List.mem_reverse] at hwalk
      obtain ⟨hwalk, harrow, hnext⟩ := hwalk
      have hold := (h.mem_iff (last :: rest)).2 ⟨hwalk, by simpa using hlength, htarget⟩
      exact ⟨last, rest, next, hold, harrow, hnext, rfl⟩

theorem extend_sorted : (g.extend trails).Pairwise fun a b => a.reverse < b.reverse := by
  rw [Graph.extend, List.pairwise_flatMap]
  constructor
  · -- continuations of one walk differ in their last node only
    intro trail _
    cases trail with
    | nil => exact .nil
    | cons last rest =>
      rw [List.pairwise_map]
      refine ((sorted_callees g last).filter _).imp ?_
      intro a b hab
      rw [List.reverse_cons, List.reverse_cons (a := b)]
      exact List.append_left_lt (List.cons_lt_cons_iff.2 (.inl hab))
  · -- continuations of two walks are ordered as these are
    refine h.sorted.imp_of_mem ?_
    intro t t' ht ht' hlt x hx y hy
    have hlength : t.reverse.length = t'.reverse.length := by
      rw [List.length_reverse, List.length_reverse, ((h.mem_iff t).1 ht).2.1,
        ((h.mem_iff t').1 ht').2.1]
    cases t with
    | nil => simp at hx
    | cons last rest =>
      cases t' with
      | nil => simp at hy
      | cons last' rest' =>
        obtain ⟨a, -, rfl⟩ := List.mem_map.1 hx
        obtain ⟨b, -, rfl⟩ := List.mem_map.1 hy
        rw [List.reverse_cons, List.reverse_cons (a := b)]
        exact concat_lt_concat hlength hlt a b

/-- The walks that have still not arrived after one more hop are the next level. -/
theorem extend (hpos : 0 < length) :
    g.Level source target (length + 1)
      ((g.extend trails).filter fun trail => !arrivesAt target trail) where
  mem_iff := by
    intro trail
    rw [List.mem_filter, h.mem_extend_iff hpos]
    cases trail with
    | nil => simp [arrivesAt]
    | cons id rest =>
      have hmem : target ∉ id :: rest ↔ target ∉ rest ∧ id ≠ target := by
        rw [List.mem_cons, not_or, and_comm, ne_comm]
      rw [hmem]
      simp [arrivesAt, and_assoc]
  sorted := h.extend_sorted.filter _

end Level

/-! ## All levels -/

/-- Stopping early when nothing is left to continue makes no difference. -/
theorem arrivals_nil (g : Graph) (target : String) (depth : Nat) :
    g.arrivals target depth [] = [] := by
  cases depth with
  | zero => rfl
  | succ depth => rfl

theorem arrivals_succ (g : Graph) (target : String) (depth : Nat) (trails : List (List String)) :
    g.arrivals target (depth + 1) trails =
      (g.extend trails).filter (arrivesAt target) ++
        g.arrivals target depth
          ((g.extend trails).filter fun trail => !arrivesAt target trail) := by
  rw [arrivals]
  split
  · next hempty =>
    rw [List.isEmpty_iff.1 hempty, arrivals_nil]
  · rfl

/-- **All routes, in order.** From the walks of one length on, the traversal arrives along exactly
    the longer simple walks to the target that its depth allows. -/
theorem Level.arrivals (depth : Nat) : ∀ {length : Nat} {trails : List (List String)}, 0 < length →
    g.Level source target length trails →
      (∀ trail, trail ∈ g.arrivals target depth trails ↔
        g.SimpleWalk source trail.reverse ∧ trail.head? = some target ∧
          length < trail.length ∧ trail.length ≤ length + depth) ∧
      (g.arrivals target depth trails).Pairwise fun a b => Before a.reverse b.reverse := by
  induction depth with
  | zero =>
    intro length trails _ _
    refine ⟨?_, .nil⟩
    intro trail
    simp only [Graph.arrivals, List.not_mem_nil, false_iff]
    rintro ⟨-, -, hlt, hle⟩
    omega
  | succ depth ih =>
    intro length trails hpos h
    obtain ⟨hmem, hsorted⟩ := ih (Nat.succ_pos length) (h.extend hpos)
    -- the walks that arrive now are those of the next length; all later ones are longer
    have hnow : ∀ trail, trail ∈ (g.extend trails).filter (arrivesAt target) ↔
        g.SimpleWalk source trail.reverse ∧ trail.head? = some target ∧
          trail.length = length + 1 := by
      intro trail
      rw [List.mem_filter, h.mem_extend_iff hpos, arrivesAt, beq_iff_eq]
      constructor
      · rintro ⟨⟨hwalk, hlength, -⟩, hhead⟩
        exact ⟨hwalk, hhead, hlength⟩
      · rintro ⟨hwalk, hhead, hlength⟩
        refine ⟨⟨hwalk, hlength, ?_⟩, hhead⟩
        cases trail with
        | nil => simp at hhead
        | cons id rest =>
          rw [List.head?_cons, Option.some.injEq] at hhead
          have hnodup := List.nodup_reverse.1 hwalk.nodup
          exact hhead ▸ (List.nodup_cons.1 hnodup).1
    rw [arrivals_succ]
    constructor
    · intro trail
      rw [List.mem_append, hnow, hmem]
      constructor
      · rintro (⟨hwalk, hhead, hlength⟩ | ⟨hwalk, hhead, hlt, hle⟩)
        · exact ⟨hwalk, hhead, by omega, by omega⟩
        · exact ⟨hwalk, hhead, by omega, by omega⟩
      · rintro ⟨hwalk, hhead, hlt, hle⟩
        by_cases hlength : trail.length = length + 1
        · exact .inl ⟨hwalk, hhead, hlength⟩
        · exact .inr ⟨hwalk, hhead, by omega, by omega⟩
    · rw [List.pairwise_append]
      refine ⟨?_, hsorted, ?_⟩
      · refine (h.extend_sorted.filter _).imp_of_mem ?_
        intro a b ha hb hlt
        have hlength : a.length = b.length := ((hnow a).1 ha).2.2.trans ((hnow b).1 hb).2.2.symm
        exact .inr ⟨by simpa using hlength, hlt⟩
      · intro a ha b hb
        have hlength := ((hnow a).1 ha).2.2
        have hlonger := ((hmem b).1 hb).2.2.1
        left
        rw [List.length_reverse, List.length_reverse]
        omega

end Level

/-! ## Exact routes -/

/-- The routes to another node, as the traversal finds them without a limit on their number. -/
def allRoutes (g : Graph) (source target : String) (depth : Int) : List (List String) :=
  (g.arrivals target depth.toNat [[source]]).map List.reverse

theorem allRoutes_listing (g : Graph) {source target : String} (hne : source ≠ target)
    (depth : Int) :
    g.Listing source target depth (g.allRoutes source target depth) := by
  obtain ⟨hmem, hsorted⟩ := (level_start (g := g) hne).arrivals depth.toNat Nat.one_pos
  constructor
  · intro route
    rw [allRoutes, List.mem_map]
    constructor
    · rintro ⟨trail, htrail, rfl⟩
      obtain ⟨hwalk, hhead, hlt, hle⟩ := (hmem trail).1 htrail
      refine ⟨hwalk, ?_, ?_⟩
      · rw [List.getLast?_reverse]
        exact hhead
      · rw [List.length_reverse]
        omega
    · rintro ⟨hwalk, hlast, hhops⟩
      refine ⟨route.reverse, (hmem _).2 ⟨?_, ?_, ?_, ?_⟩, List.reverse_reverse route⟩
      · rw [List.reverse_reverse]
        exact hwalk
      · rw [List.head?_reverse]
        exact hlast
      · rw [List.length_reverse]
        -- a walk of one node would end where it starts
        have hlength := List.length_pos_iff.2 hwalk.ne_nil
        by_contra hle
        obtain ⟨id, rfl⟩ := List.length_eq_one_iff.1 (by omega : route.length = 1)
        rw [simpleWalk_singleton.1 hwalk] at hlast
        exact hne (by simpa using hlast)
      · rw [List.length_reverse]
        omega
  · rw [allRoutes, List.pairwise_map]
    exact hsorted

/-- A node is reached from itself without a hop, and in no other way. -/
theorem self_listing (g : Graph) (id : String) (depth : Int) :
    g.Listing id id depth (if 0 ≤ depth then [[id]] else []) := by
  have hroute : ∀ route, g.IsRoute id id depth route ↔ route = [id] ∧ 0 ≤ depth := by
    intro route
    constructor
    · rintro ⟨hwalk, hlast, hhops⟩
      -- the last node is the first one, so a simple walk has no second node
      have hlength : route = [id] := by
        cases route with
        | nil => exact absurd hwalk.head (by simp)
        | cons x rest =>
          have hx : x = id := by simpa using hwalk.head
          subst hx
          cases rest with
          | nil => rfl
          | cons y rest =>
            rw [List.getLast?_cons_cons] at hlast
            have hmem := List.mem_of_getLast? hlast
            exact absurd hmem (List.nodup_cons.1 hwalk.nodup).1
      subst hlength
      exact ⟨rfl, by simpa using hhops⟩
    · rintro ⟨rfl, hdepth⟩
      exact ⟨simpleWalk_start g id, rfl, by simpa using hdepth⟩
  constructor
  · intro route
    rw [hroute]
    split
    · next hdepth => simp [hdepth]
    · next hdepth => simp [hdepth]
  · split
    · exact List.pairwise_singleton _ _
    · exact .nil

theorem exists_listing (g : Graph) (source target : String) (depth : Int) :
    ∃ all, g.Listing source target depth all := by
  by_cases h : source = target
  · subst h
    exact ⟨_, g.self_listing source depth⟩
  · exact ⟨_, g.allRoutes_listing h depth⟩

theorem routeBound_ofInt (limit : Int) : routeBound (.ofInt limit) = .ok limit := by
  have heq : routeBound (.ofInt limit) = if (limit == 1) = true then .ok 1 else .ok limit := rfl
  rw [heq]
  split
  · next h => rw [beq_iff_eq.1 h]
  · rfl

theorem allRoutes_of_not_pos (g : Graph) (source target : String) {depth : Int} (h : depth ≤ 0) :
    g.allRoutes source target depth = [] := by
  rw [allRoutes, Int.toNat_of_nonpos h]
  rfl

/-- Whatever the bounds are, a route that is found is a simple walk from a node. -/
theorem simpleWalk_of_mem_routesWithin {g : Graph} {source target : String} {depth limit : Json}
    {found : List (List String)} (hfound : g.routesWithin source target depth limit = .ok found)
    {route : List String} (hroute : route ∈ found) :
    source ∈ g.nodes ∧ g.SimpleWalk source route := by
  obtain ⟨hops, most, rfl⟩ := exists_routes hfound
  unfold routes at hroute
  split at hroute
  · cases hroute
  · next hnodes =>
    simp only [Bool.or_eq_true, Bool.not_eq_true', not_or, Bool.not_eq_false] at hnodes
    refine ⟨List.contains_iff_mem.1 hnodes.1.1, ?_⟩
    split at hroute
    · rw [List.mem_singleton.1 hroute]
      exact simpleWalk_start g source
    · next hne =>
      have hlisted := ((g.allRoutes_listing hne hops).mem_iff route).1 (List.mem_of_mem_take hroute)
      exact hlisted.toSimpleWalk

/-- The first routes of at most some hops, as long as there is room for one. -/
def firstRoutes (g : Graph) (source target : String) (hops limit : Int) : List (List String) :=
  if source ∉ g.nodes ∨ target ∉ g.nodes ∨ limit ≤ 0 then []
  else if source = target then [[source]]
  else (g.allRoutes source target hops).take limit.toNat

/-- The number of hops that a depth admits: none when it is not positive. -/
def admitted (g : Graph) (depth : Number) : Int :=
  if depth.le (.int 0) then 0 else hopsOf g.nodes.length depth

/-- With a depth that is a number and a whole limit the traversal gives the first routes. -/
theorem routesWithin_of_number (g : Graph) (source target : String) {depth : Json} {n : Number}
    (hn : depth.number? = some n) (limit : Int) :
    g.routesWithin source target depth (.ofInt limit) =
      .ok (g.firstRoutes source target (g.admitted n) limit) := by
  unfold routesWithin firstRoutes admitted
  rw [Json.holds_atMost_ofInt, Json.holds_of_number hn rfl, routeBound_ofInt, hn]
  by_cases hsource : source ∈ g.nodes
  · by_cases htarget : target ∈ g.nodes
    · have hin : ¬(!g.nodes.contains source || !g.nodes.contains target) = true := by
        rw [List.contains_iff_mem.2 hsource, List.contains_iff_mem.2 htarget]
        decide
      rw [if_neg hin]
      -- the limit is looked at before the ends are compared, the depth only after that
      by_cases hlimit : limit ≤ 0
      · simp only [hlimit, or_true, if_true]
        rfl
      · simp only [hsource, htarget, hlimit, not_true, or_false, if_false]
        by_cases hself : source = target
        · rw [if_pos hself, if_pos hself]
          rfl
        · rw [if_neg hself, if_neg hself]
          cases hflat : n.le (.int 0) with
          | true =>
            have hholds : n.holds .atMost (.int 0) = true := hflat
            rw [hholds, if_pos rfl, allRoutes_of_not_pos g source target le_rfl, List.take_nil]
            rfl
          | false =>
            have hholds : n.holds .atMost (.int 0) = false := hflat
            have hout : ¬(!g.nodes.contains source || !g.nodes.contains target ||
                decide (limit ≤ 0)) = true := by
              rw [Bool.or_eq_true, not_or]
              exact ⟨hin, by simpa using hlimit⟩
            have hroutes : g.routes source target (hopsOf g.nodes.length n) limit =
                (g.allRoutes source target (hopsOf g.nodes.length n)).take limit.toNat := by
              rw [routes, if_neg hout, if_neg hself]
              rfl
            rw [hholds, if_neg Bool.false_ne_true, ← hroutes]
            rfl
    · have hout : g.nodes.contains target = false :=
        eq_false_of_ne_true (mt List.contains_iff_mem.1 htarget)
      rw [hout, Bool.not_false, Bool.or_true, if_pos rfl, if_pos (.inr (.inl htarget))]
  · have hout : g.nodes.contains source = false :=
      eq_false_of_ne_true (mt List.contains_iff_mem.1 hsource)
    rw [hout, Bool.not_false, Bool.true_or, if_pos rfl, if_pos (.inl hsource)]

/-- Without room for a route there is none, and nothing else is looked at. -/
theorem routesWithin_of_not_pos (g : Graph) (source target : String) (depth : Json) {limit : Int}
    (h : limit ≤ 0) : g.routesWithin source target depth (.ofInt limit) = .ok [] := by
  rw [routesWithin, Json.holds_atMost_ofInt, decide_eq_true h]
  split
  · rfl
  · rfl

/-- A whole depth admits as many hops, apart from those below zero. -/
theorem allRoutes_admitted_int (g : Graph) (source target : String) (depth : Int) :
    g.allRoutes source target (g.admitted (.int depth)) = g.allRoutes source target depth := by
  unfold admitted
  split
  · next hle =>
    have hdepth : depth ≤ 0 := by
      simp only [Number.le, Number.lt, Number.same, Bool.or_eq_true, decide_eq_true_eq,
        beq_iff_eq] at hle
      omega
    rw [allRoutes_of_not_pos g source target hdepth, allRoutes_of_not_pos g source target le_rfl]
  · rfl

theorem routesWithin_ofInt (g : Graph) (source target : String) (depth limit : Int) :
    g.routesWithin source target (.ofInt depth) (.ofInt limit) =
      .ok (g.firstRoutes source target depth limit) := by
  have hn : (Json.ofInt depth).number? = some (.int depth) := rfl
  rw [routesWithin_of_number g source target hn, firstRoutes, allRoutes_admitted_int, firstRoutes]

/-- **Path enumeration is exact.** Without both of its ends in the graph, or without room for a
    route, the traversal gives nothing. A node is reached from itself by the route of that node
    alone. Between two nodes the traversal gives the first routes of the one list of all simple
    routes within the depth, shorter ones first and equally long ones by their ids. -/
theorem routesWithin_exact (g : Graph) (source target : String) (depth limit : Int) :
    ∃! all, g.Listing source target depth all ∧
      g.routesWithin source target (.ofInt depth) (.ofInt limit) =
        .ok (if source ∉ g.nodes ∨ target ∉ g.nodes ∨ limit ≤ 0 then []
          else if source = target then [[source]]
          else all.take limit.toNat) := by
  obtain ⟨all, hall⟩ := g.exists_listing source target depth
  refine ⟨all, ⟨hall, ?_⟩, ?_⟩
  · rw [routesWithin_ofInt, firstRoutes]
    by_cases hne : source = target
    · rw [if_pos hne, if_pos hne]
    · rw [hall.unique (g.allRoutes_listing hne depth)]
  · rintro all' ⟨hall', -⟩
    exact hall'.unique hall

end PathTriage.Graph
