import PathTriage.Proofs.Leading
import PathTriage.Proofs.Store.Figures

/-!
The figures of a store agree with what it holds.

Most figures are read off the tables of nodes, but the hotspots are ranked in the graph of calls,
whose nodes are kept apart from the methods and whose degrees are counted anew. In a store that can
be reached the two are in step, so the hotspots are the stored methods by the degrees that they
carry, also where a method calls itself (`leads_hubs`). The one figure that may be missing is the
mean complexity: it is a quotient of exact integers, and there is none beyond the range of machine
numbers.
-/

namespace PathTriage.Store

open Outcome Scalar

/-! ## Hotspots -/

section Hotspots

/-- The degree that a stored method carries: the number of its callers and that of its callees. -/
def cachedDegree (s : Store) (id : String) : Int :=
  (s.method? id).elim 0 fun m => m.inDegree.asInt + m.outDegree.asInt

/-- The degree of a node counts calls into it and out of it, a call of itself twice. -/
theorem degree_graph (s : Store) (id : String) :
    s.graph.degree id = s.callerCount id + s.calleeCount id := by
  simp only [Graph.degree, Graph.callers, Graph.callees, List.length_map, callerCount, calleeCount,
    List.countP_eq_length_filter]
  rfl

variable {s : Store} (h : s.Valid)

include h

/-- The degrees that methods carry are those of the graph. -/
theorem cachedDegree_eq {id : String} (hid : s.hasMethod id = true) :
    s.cachedDegree id = s.graph.degree id := by
  obtain ⟨m, hm⟩ := (s.hasMethod_iff id).1 hid
  have hcounted := h.counted id m hm
  have hin : m.inDegree = .ofInt (s.callerCount m.id) := (congrArg Method.inDegree hcounted).symm
  have hout : m.outDegree = .ofInt (s.calleeCount m.id) := (congrArg Method.outDegree hcounted).symm
  rw [cachedDegree, hm, degree_graph, Option.elim_some, hin, hout, h.integral.method_id id m hm,
    Int.natCast_add]
  rfl

/-- The hubs of the graph of calls are the stored methods by the degrees that they carry. -/
theorem leads_hubs (limit : Int) :
    Order.Leads s.cachedDegree s.methods.keys.toFinset limit.toNat (s.graph.hubs limit) := by
  have hstored : ∀ id, id ∈ s.methods.keys.toFinset ↔ s.hasMethod id = true := by
    intro id
    rw [List.mem_toFinset, Std.ExtTreeMap.mem_keys]
    rfl
  have hpool : s.graph.nodes.toFinset = s.methods.keys.toFinset := by
    ext id
    rw [List.mem_toFinset, h.integral.node_iff, hstored]
  have hleads := Order.leads_ranking s.graph.degree s.graph.nodes_nodup limit.toNat
  rw [hpool] at hleads
  refine hleads.congr fun a ha b hb hahead => ?_
  rw [Order.Ahead, cachedDegree_eq h ((hstored a).1 ha), cachedDegree_eq h ((hstored b).1 hb)]
  exact hahead.imp Int.ofNat_lt.2 (And.imp_left (congrArg Nat.cast))

end Hotspots

/-! ## Levels of risk -/

section Levels

/-- The stored methods whose risk score is at a level. -/
def atLevel (s : Store) (level : Level) : List Method :=
  s.methodList.filter fun m =>
    (Risk.nodeLevel m.riskScore : Except Failure Level).toOption == some level

/-- Counting levels is counting what has them. -/
theorem count_levels {ms : List Method} {levels : List Level}
    (h : List.Forall₂ (fun m level => Risk.nodeLevel m.riskScore = .ok level) ms levels)
    (level : Level) :
    levels.count level = (ms.filter fun m =>
      (Risk.nodeLevel m.riskScore : Except Failure Level).toOption == some level).length := by
  induction h with
  | nil => rfl
  | @cons m l ms levels hm _ ih =>
    rw [List.count_cons, List.filter_cons, hm, ih]
    by_cases heq : l = level
    · simp [heq, Except.toOption]
    · simp [heq, Except.toOption]

/-- Every level is one of the four. -/
theorem sum_counts (levels : List Level) :
    ([.low, .medium, .high, .critical].map levels.count).sum = levels.length := by
  simp only [List.map_cons, List.map_nil, List.sum_cons, List.sum_nil]
  induction levels with
  | nil => rfl
  | cons level levels ih =>
    rw [List.length_cons]
    cases level <;> simp only [List.count_cons] <;> simp <;> omega

variable {s : Store} {distribution : List (Level × Nat)}

/-- If there is a distribution, every method has a level and is counted under it once. -/
theorem distribution_of_ok (h : s.riskDistribution = .ok distribution) :
    (∀ m ∈ s.methodList, ∃ level, Risk.nodeLevel m.riskScore = .ok level) ∧
      distribution = [.low, .medium, .high, .critical].map
        (fun level => (level, (s.atLevel level).length)) ∧
      (distribution.map (·.2)).sum = s.methodList.length := by
  obtain ⟨levels, hlevels, h⟩ := bind_eq_ok.1 h
  have hmatched := mapM_eq_ok.1 hlevels
  have hcount := count_levels hmatched
  cases h
  refine ⟨fun m hm => ?_, ?_, ?_⟩
  · obtain ⟨level, -, hlevel⟩ := exists_of_forall₂ hmatched.flip hm
    exact ⟨level, hlevel⟩
  · exact List.map_congr_left fun level _ => congrArg (level, ·) (hcount level)
  · rw [List.map_map, hmatched.length_eq]
    exact sum_counts levels

end Levels

/-! ## Figures -/

/-- The figures of a store agree with what it holds. -/
structure Agrees (s : Store) (top : Int) (figures : Statistics) : Prop where
  methodCount : figures.methodCount = s.methods.size
  classCount : figures.classCount = s.classes.size
  nodeCount : figures.nodeCount = figures.methodCount + figures.classCount
  linkCount : figures.linkCount = s.calls.size + s.implementations.size + s.dataFlows.size
  graded : ∀ m ∈ s.methodList, ∃ level, Risk.nodeLevel m.riskScore = .ok level
  distribution : figures.riskDistribution =
    [.low, .medium, .high, .critical].map fun level => (level, (s.atLevel level).length)
  total : (figures.riskDistribution.map (·.2)).sum = figures.methodCount
  hotspots : Order.Leads s.cachedDegree s.methods.keys.toFinset (max 0 top).toNat figures.hotspots

theorem length_methodList (s : Store) : s.methodList.length = s.methods.size := by
  rw [methodList, Table.values_eq, List.length_map, Std.ExtTreeMap.length_toList]

/-- Hotspots are the first hubs; a negative number of them is none. -/
theorem hotspots_of_ok {s : Store} {top : Int} {figures : Statistics}
    (h : s.statistics (.ofInt top) = .ok figures) :
    figures.hotspots = s.graph.hubs (max 0 top) := by
  obtain ⟨_, -, h⟩ := bind_eq_ok.1 h
  obtain ⟨_, -, h⟩ := bind_eq_ok.1 h
  obtain ⟨hotspots, hhotspots, h⟩ := bind_eq_ok.1 h
  rw [Graph.hubsWithin, Graph.countBound_ofInt] at hhotspots
  cases hhotspots
  cases h
  rfl

/-- If there are figures, each of them agrees with the store. -/
theorem Valid.agrees {s : Store} (hs : s.Valid) {top : Int} {figures : Statistics}
    (h : s.statistics (.ofInt top) = .ok figures) : s.Agrees top figures := by
  have hhotspots := hotspots_of_ok h
  obtain ⟨distribution, hdistribution, h⟩ := bind_eq_ok.1 h
  obtain ⟨_, -, h⟩ := bind_eq_ok.1 h
  obtain ⟨_, -, h⟩ := bind_eq_ok.1 h
  obtain ⟨hgraded, heq, htotal⟩ := distribution_of_ok hdistribution
  cases h
  exact
    { methodCount := rfl
      classCount := rfl
      nodeCount := rfl
      linkCount := rfl
      graded := hgraded
      distribution := heq
      total := htotal.trans s.length_methodList
      hotspots := hhotspots ▸ leads_hubs hs (max 0 top) }

/-- The mean of the complexities is within the range of machine numbers, if there is one. -/
def HasMean (s : Store) : Prop :=
  s.methodList = [] ∨ MeanInRange (·.complexity.toJson) s.methodList

/-- There are figures exactly when the mean complexity is within the range. -/
theorem statistics_of_measured {s : Store}
    (h : ∀ m ∈ s.methodList, m.riskScore.IsNumber ∧ m.complexity.toJson.IsInteger) (top : Int) :
    (s.HasMean → ∃ figures, s.statistics (.ofInt top) = .ok figures) ∧
      (¬s.HasMean → s.statistics (.ofInt top) = .error .quotientRange) := by
  have hlevels := gives_riskDistribution fun m hm => (h m hm).1
  have hint : ∀ m ∈ s.methodList, m.complexity.toJson.IsInteger := fun m hm => (h m hm).2
  constructor
  · intro hmean
    have hcomputes : Computes (mean (s.methodList.map fun m => measured m.complexity.toJson)) := by
      by_cases hnil : s.methodList = []
      · rw [hnil]
        exact computes_zero
      · exact computes_mean_measured hnil hint (hmean.resolve_left hnil)
    have hhubs : Gives (fun _ => True) (s.graph.hubsWithin (.ofInt top)) :=
      (Graph.gives_countBound top).bind fun _ _ => .pure trivial
    have hfigures : Gives (fun _ => True) (s.statistics (.ofInt top)) :=
      hlevels.bind fun _ _ => hcomputes.bind fun _ _ => hhubs.bind fun _ _ => .pure trivial
    obtain ⟨figures, hfigures, -⟩ := hfigures
    exact ⟨figures, hfigures⟩
  · intro hmean
    obtain ⟨hnil, hout⟩ := not_or.1 hmean
    obtain ⟨distribution, hdistribution, -⟩ := hlevels
    have hvalue :
        (mean (s.methodList.map fun m => pure m.complexity.toJson) : Except Failure Json) =
        .error .quotientRange := mean_measured_out hnil hint hout
    -- the levels are graded first, so it is the mean that fails
    rw [statistics, hdistribution]
    change (mean (s.methodList.map fun m => pure m.complexity.toJson) >>= _) = _
    rw [hvalue]
    rfl

/-- **Figures agree with the stored nodes.** In every store that can be reached, figures that are
    given agree with what the store holds, and the hotspots, although ranked in the graph of calls,
    are the stored methods by the degrees that they carry. Where risks are numbers and complexities
    integers, figures are given unless the mean complexity is beyond the range of machine
    numbers. -/
theorem statistics_agree {s : Store} (h : s.Reachable) (top : Int) :
    (∀ figures, s.statistics (.ofInt top) = .ok figures → s.Agrees top figures) ∧
    ((∀ m ∈ s.methodList, m.riskScore.IsNumber ∧ m.complexity.toJson.IsInteger) →
      (s.HasMean → ∃ figures, s.statistics (.ofInt top) = .ok figures) ∧
      (¬s.HasMean → s.statistics (.ofInt top) = .error .quotientRange)) :=
  ⟨fun _ => h.valid.agrees, fun hs => statistics_of_measured hs top⟩

/-- A method that calls itself and one that calls it. The first carries a risk of its own. -/
def selfLoop : Store :=
  after
    [.putMethod { id := "a", name := "a" },
     .putMethod { id := "b", name := "b", riskScore := .ofFloat 0.7 },
     .putMethod { id := "c", name := "c" },
     .addCall { caller := "b", callee := "b" },
     .addCall { caller := "c", callee := "b" },
     .addImplementation { interfaceMethod := "a", method := "c" }]

theorem statistics_agree_selfLoop :
    selfLoop.Reachable ∧
    (∀ m ∈ selfLoop.methodList, m.riskScore.IsNumber ∧ m.complexity.toJson.IsInteger) ∧
    selfLoop.HasMean ∧
    ∃ figures, selfLoop.statistics (.ofInt 2) = .ok figures ∧ selfLoop.Agrees 2 figures ∧
      figures.hotspots = ["b", "c"] := by
  have hr : selfLoop.Reachable := reachable_after _
  have hmeasures : selfLoop.methodList.map (fun m => (m.riskScore, m.complexity.toJson)) =
      [(.ofFloat 0, .ofInt 1), (.ofFloat 0.7, .ofInt 1), (.ofFloat 0, .ofInt 1)] := by
    with_unfolding_all rfl
  have hmeasured : ∀ m ∈ selfLoop.methodList,
      m.riskScore.IsNumber ∧ m.complexity.toJson = .ofInt 1 := by
    intro m hm
    have hmem := List.mem_map_of_mem (f := fun m : Method => (m.riskScore, m.complexity.toJson)) hm
    rw [hmeasures] at hmem
    simp only [List.mem_cons, List.not_mem_nil, or_false, Prod.mk.injEq] at hmem
    rcases hmem with ⟨hrisk, hone⟩ | ⟨hrisk, hone⟩ | ⟨hrisk, hone⟩ <;> exact ⟨hrisk ▸ rfl, hone⟩
  have hmean : selfLoop.HasMean := by
    by_cases hnil : selfLoop.methodList = []
    · exact .inl hnil
    · exact .inr (meanInRange_of_isWhole hnil fun m hm =>
        ⟨1, (hmeasured m hm).2, Number.lt_machineBound (by decide)⟩)
  have hdegrees : selfLoop.graph.nodes.map (fun id => (id, selfLoop.graph.degree id)) =
      [("a", 0), ("b", 3), ("c", 1)] := by
    decide +kernel
  have hhubs : selfLoop.graph.hubs (max 0 2) = ["b", "c"] := by
    rw [Graph.hubs, hdegrees]
    cbv
  have hint : ∀ m ∈ selfLoop.methodList, m.riskScore.IsNumber ∧ m.complexity.toJson.IsInteger :=
    fun m hm => ⟨(hmeasured m hm).1, 1, (hmeasured m hm).2⟩
  obtain ⟨hagrees, hgiven⟩ := statistics_agree hr 2
  obtain ⟨figures, hfigures⟩ := (hgiven hint).1 hmean
  exact ⟨hr, hint, hmean, figures, hfigures, hagrees figures hfigures,
    (hotspots_of_ok hfigures).trans hhubs⟩

/-- A store with one method of a given complexity. -/
def lone (complexity : Int) : Store :=
  after [.putMethod { id := "a", name := "a", complexity := .ofNumber (.int complexity) }]

theorem lone_methodList (n : Int) :
    (lone n).methodList = [{ id := "a", name := "a", complexity := .ofNumber (.int n) }] := by
  with_unfolding_all rfl

theorem lone_measured {n : Int} (h : 1 ≤ n) :
    ∀ m ∈ (lone n).methodList, m.riskScore.IsNumber ∧ m.complexity.toJson = .ofInt n := by
  intro m hm
  rw [lone_methodList, List.mem_singleton] at hm
  rw [hm, Complexity.toJson, Complexity.val_ofNumber_int h]
  exact ⟨rfl, rfl⟩

theorem lone_without_mean {n : Int} (h : Number.machineBound ≤ n.natAbs) (hn : 1 ≤ n) :
    ¬(lone n).HasMean := by
  rintro (hnil | hmean)
  · rw [lone_methodList] at hnil
    exact nomatch hnil
  · have hvalues : (lone n).methodList.map (fun m => m.complexity.toJson.asInt) = [n] := by
      rw [lone_methodList, List.map_singleton, Complexity.toJson, Complexity.val_ofNumber_int hn]
      rfl
    have hlt : (0 + n).natAbs < Number.machineBound * 1 := by
      rw [MeanInRange, hvalues, lone_methodList] at hmean
      exact hmean
    rw [Nat.mul_one, Int.zero_add] at hlt
    omega

/-- A store of one method with a complexity of `10 ^ 400` can be reached, and it has no figures. -/
theorem lone_without_figures :
    (lone (pow10 400)).Reachable ∧
      (lone (pow10 400)).statistics (.ofInt 10) = .error .quotientRange := by
  have hout : Number.machineBound ≤ pow10 400 := by decide +kernel
  have hpos : (1 : Int) ≤ pow10 400 := by decide +kernel
  refine ⟨reachable_after _, (statistics_of_measured (fun m hm => ?_) 10).2 ?_⟩
  · obtain ⟨hrisk, hcomplexity⟩ := lone_measured hpos m hm
    exact ⟨hrisk, _, hcomplexity⟩
  · exact lone_without_mean (by rwa [Int.natAbs_natCast]) hpos

end PathTriage.Store
