import PathTriage.Proofs.Batch.Change
import PathTriage.Proofs.Store.Findings
import PathTriage.Store.Query

/-!
What a store of measured methods can be asked, and how that may fail.

Integer bounds are always fit, so the questions about paths and impact have an answer. The figures
of a store have a mean of exact integers in them, the report of an analysis has two for every path,
and the risk of a method has a quotient of its complexity: these fail if they lie beyond all machine
numbers, which takes a stored measure that does. Spreading a risk also takes powers of the decay,
which the machine computes; they are finite as long as `Number.PowersStayFinite` holds of it.
Nothing else can go wrong (`settles_statistics`, `settles_refreshEach`, `settles_propagateRisk`,
`settles_runChange`).
-/

namespace PathTriage

open Outcome Scalar

/-- The one thing that a propagation asks of the powers of the machine: no power with a natural
    exponent of a number between zero and one leaves the finite numbers. -/
def Number.PowersStayFinite : Prop :=
  ∀ (x : Float) (n : Nat), 0 ≤ x → x ≤ 1 → isFinite (Float.pow x (Binary64.ofInt n)) = true

/-! ## Bounds -/

namespace Graph

/-- A whole number can serve as a limit. -/
theorem gives_countBound (n : Int) : Gives (fun _ => True) (countBound (.ofInt n)) :=
  ⟨max 0 n, countBound_ofInt n, trivial⟩

/-- A whole number can serve as a depth. -/
theorem gives_hopBound (g : Graph) (n : Int) : Gives (fun _ => True) (g.hopBound (.ofInt n)) :=
  ⟨max 0 n, g.hopBound_ofInt n, trivial⟩

/-- A ball can be found at any whole depth. -/
theorem gives_ballWithin (g : Graph) (origin : String) (depth : Int) :
    Gives (fun _ => True) (g.ballWithin origin (.ofInt depth)) := by
  unfold ballWithin
  split
  · exact (g.gives_hopBound depth).bind fun _ _ => .pure trivial
  · exact .pure trivial

/-! ## Spreading -/

/-- A power of the decay has no value as a machine number, and the powers of the machine are to
    blame. -/
def DecayBreaks (cause : Failure) : Prop := cause = .powerRange ∧ ¬Number.PowersStayFinite

/-- A power of the decay is a machine number, unless the powers of the machine are to blame. -/
theorem settles_decay (hop : Nat) :
    Settles DecayBreaks Json.IsMachine (Json.pow usualDecay hop) := by
  show Settles DecayBreaks Json.IsMachine ((Number.pow (.float 0.8) hop).map Json.number)
  unfold Number.pow
  dsimp only
  split
  · next hbreaks =>
    rw [Bool.and_eq_true, Bool.not_eq_true'] at hbreaks
    refine .error ⟨rfl, fun hstay => ?_⟩
    have hfinite := hstay 0.8 hop (by decide +kernel) (by decide +kernel)
    rw [hbreaks.2] at hfinite
    cases hfinite
  · exact .pure ⟨_, rfl⟩

/-- The risk at a hop is the risk of the origin, decayed; the product of machine numbers is one. -/
theorem settles_decayed {risk : Json} (hrisk : risk.IsMachine) (hop : Nat) :
    Settles DecayBreaks Json.IsMachine (decayed risk usualDecay hop) :=
  (settles_decay hop).bind fun _ hx => (Json.gives_mul hrisk hx).settles

variable (g : Graph)

/-- One hop: risks that are machine numbers spread to risks that are. -/
theorem settles_callerEntries (hop : Nat) (found : List (String × Json))
    {next level : List (String × Json)} (hnext : ∀ e ∈ next, e.2.IsMachine)
    (hlevel : ∀ e ∈ level, e.2.IsMachine) :
    Settles DecayBreaks (fun entries => ∀ e ∈ entries, e.2.IsMachine)
      (g.callerEntries usualDecay hop found next level) := by
  induction level generalizing next with
  | nil => exact .pure hnext
  | cons e rest ih =>
    obtain ⟨he, hrest⟩ := List.forall_mem_cons.1 hlevel
    refine Settles.bind (Settles.mapM (Q := fun e : String × Json => e.2.IsMachine) ?_) ?_
    · intro c _
      exact (settles_decayed he hop).bind fun _ hx => .pure hx
    · rintro entries ⟨-, hentries⟩
      exact ih (List.forall_mem_append.2 ⟨hnext, hentries⟩) hrest

/-- Level by level, by induction on the remaining depth. -/
theorem settles_spread (depth hop : Nat) (found : List (String × Json))
    {level : List (String × Json)} (hlevel : ∀ e ∈ level, e.2.IsMachine) :
    Settles DecayBreaks (fun _ => True) (g.spread usualDecay depth hop found level) := by
  -- only the outermost level is spread further, so nothing is asked of what was found before
  induction depth generalizing hop found level with
  | zero => exact .pure trivial
  | succ depth ih =>
    refine (g.settles_callerEntries hop found (by simp) hlevel).bind fun next hnext => ?_
    split
    · exact .pure trivial
    · exact ih (hop + 1) (found ++ next) hnext

/-- Propagation by the usual decay can fail for a power that gets out of range, and for nothing
    else. -/
theorem settles_propagateWithin (origin : String) {risk : Json} (hrisk : risk.IsMachine)
    (depth : Int) :
    Settles DecayBreaks (fun _ => True)
      (g.propagateWithin origin risk (.ofInt depth) usualDecay) := by
  unfold propagateWithin
  split
  · next hnode =>
    refine (gives_countBound depth).bind_settles fun hops _ => ?_
    rw [propagate, if_pos hnode]
    exact g.settles_spread hops.toNat 1 _ (List.forall_mem_singleton.2 hrisk)
  · exact Gives.settles ⟨[], rfl, trivial⟩

end Graph

/-! ## Single methods -/

/-- A twentieth of the complexity of a method is within the range of machine numbers. -/
def Method.Weighable (m : Method) : Prop :=
  m.complexity.toJson.asInt.natAbs < Number.machineBound * 20

namespace Risk

variable {m : Method} (hcomplexity : m.complexity.toJson.IsInteger) (hin : m.inDegree.IsCount)

theorem computes_layerRisk (layer : Layer) : Computes (layerRisk layer) := by
  unfold layerRisk
  split <;> exact computes_hundredths _

/-- Of a method's risk, most parts ask nothing of its measures, or only that they are numbers. -/
theorem computes_methodArchitectural (m : Method) : Computes (methodArchitectural m) := by
  refine computes_unit (computes_add
    (computes_mul (computes_layerRisk m.layer) (computes_hundredths 50)) ?_)
  split
  · exact computes_hundredths 30
  · exact computes_zero

theorem computes_methodComplexity (hcomplexity : m.complexity.toJson.IsNumber)
    (hlines : m.linesOfCode.IsNumber) : Computes (methodComplexity m) := by
  have htwo : 2 < Number.machineBound := Number.lt_machineBound (by decide)
  refine computes_mean ?_ (by simpa using htwo)
  rw [List.forall_mem_cons, List.forall_mem_singleton]
  exact ⟨computes_grade _ _ (.pure hcomplexity), computes_grade _ _ (.pure hlines)⟩

theorem computes_historyRisk (m : Method) (history : Option ProjectHistory) :
    Computes (historyRisk m history) := by
  have hraised : ∀ {risk : Except Failure Json} (n : Nat) (condition : Bool), Computes risk →
      Computes (raised n condition risk) := by
    intro risk n condition hrisk
    cases condition with
    | false => exact hrisk
    | true => exact computes_add hrisk (computes_hundredths n)
  cases history with
  | none => exact computes_hundredths 50
  | some history =>
    exact computes_capped (hraised 40 _ (hraised 40 _ (computes_hundredths 20)))

include hin

/-- The dependency is made of the numbers of callers and callees, which are counted. -/
theorem computes_methodDependency (hout : m.outDegree.IsCount) : Computes (methodDependency m) :=
  computes_div (computes_add
    (computes_capped (computes_div_whole (.pure hin.isWhole) (by decide)))
    (computes_capped (computes_div_whole (.pure hout.isWhole) (by decide)))) (by decide) (by decide)

theorem gives_concernOf (hcomplexity : m.complexity.toJson.IsNumber) {total : Json}
    (htotal : total.IsMachine) : Gives (fun _ => True) (concernOf m total) := by
  have hexceeds : ∀ n, Decides (test .above (pure total) (hundredths n)) := fun n =>
    decides_test .above (isNumber_pure htotal.isNumber) (isNumber_hundredths n)
  refine (Condition.decides_both (Condition.decides_pure _) (hexceeds 60)).choose (.pure trivial) ?_
  refine (decides_test .above (.pure hcomplexity) (isNumber_whole 15)).choose (.pure trivial) ?_
  refine (decides_test .above (.pure hin.isNumber) (isNumber_whole 10)).choose (.pure trivial) ?_
  refine (Condition.decides_both (Condition.decides_pure _) (hexceeds 50)).choose (.pure trivial) ?_
  split
  · exact .pure trivial
  · split <;> exact .pure trivial

include hcomplexity

omit hin in
/-- A complexity that is an integer is divided as such. -/
theorem measured_div_twenty :
    (measured m.complexity.toJson / whole 20 : Except Failure Json) =
      Json.div (.ofInt m.complexity.toJson.asInt) (.ofInt 20) := by
  obtain ⟨n, hn⟩ := hcomplexity
  rw [hn]
  exact whole_div_whole n 20

/-- The one part that a large complexity can break. -/
theorem computes_criticality (h : m.Weighable) : Computes (criticality m) := by
  have hfour : 4 < Number.machineBound := Number.lt_machineBound (by decide)
  have htwentieth : Computes (measured m.complexity.toJson / whole 20) := by
    rw [measured_div_twenty hcomplexity]
    exact Json.gives_div_ofInt (by decide) (by rwa [show (20 : Int).natAbs = 20 from rfl])
  refine computes_capped (computes_mean ?_ (by simpa using hfour))
  rw [List.forall_mem_cons, List.forall_mem_cons, List.forall_mem_cons, List.forall_mem_singleton]
  refine ⟨computes_div_whole (.pure hin.isWhole) (by decide), ?_, htwentieth, ?_⟩
  · split
    · exact computes_one
    · exact computes_hundredths 50
  · split
    · exact computes_hundredths 20
    · exact computes_hundredths 80

/-- The criticality is cut off at one, and yet it has no value when its quotients have none. -/
theorem criticality_out (h : ¬m.Weighable) :
    (criticality m : Except Failure Json) = .error .quotientRange := by
  obtain ⟨callers, hcallers, -⟩ : Computes (measured m.inDegree / whole 10) :=
    computes_div_whole (.pure hin.isWhole) (by decide)
  obtain ⟨entry, hentry, -⟩ :
      Computes (if m.layer = .controller then one else hundredths 50) := by
    split
    · exact computes_one
    · exact computes_hundredths 50
  have htwentieth : (measured m.complexity.toJson / whole 20 : Except Failure Json) =
      .error .quotientRange := by
    rw [measured_div_twenty hcomplexity]
    exact Json.div_ofInt_out (by decide) (by rwa [show (20 : Int).natAbs = 20 from rfl])
  rw [criticality, mean, List.mapM_cons, hcallers, List.mapM_cons, hentry, List.mapM_cons,
    htwentieth]
  rfl

/-- The total of a method is settled before its criticality, which may still be missing. -/
theorem weighMethod_eq (hlines : m.linesOfCode.IsNumber) (hout : m.outDegree.IsCount)
    (history : Option ProjectHistory) :
    ∃ w : MethodRisk Json, w.total.IsMachine ∧
      weighMethod m history = criticality m >>= fun v => pure { w with criticality := v } := by
  have hnumber : m.complexity.toJson.IsNumber := by
    obtain ⟨n, hn⟩ := hcomplexity
    rw [hn]
    exact Json.isNumber_ofInt n
  obtain ⟨architectural, harchitectural, hone⟩ := computes_methodArchitectural m
  obtain ⟨complexity, hcomplex, htwo⟩ := computes_methodComplexity hnumber hlines
  obtain ⟨dependency, hdependency, hthree⟩ := computes_methodDependency hin hout
  obtain ⟨changes, hchanges, hfour⟩ := computes_historyRisk m history
  obtain ⟨total, htotal, hmachine⟩ := computes_unit (computes_add (computes_add (computes_add
    (computes_mul (computes_hundredths 30) (computes_pure hone))
    (computes_mul (computes_hundredths 25) (computes_pure htwo)))
    (computes_mul (computes_hundredths 25) (computes_pure hthree)))
    (computes_mul (computes_hundredths 20) (computes_pure hfour)))
  obtain ⟨concern, hconcern, -⟩ := gives_concernOf hin hnumber hmachine
  refine ⟨⟨m.id, total, architectural, complexity, dependency, changes, concern, .null⟩,
    hmachine, ?_⟩
  simp only [weighMethod, harchitectural, hcomplex, hdependency, hchanges, htotal, hconcern, bind,
    Except.bind]

end Risk

namespace Store

variable {s : Store}

theorem exists_of_mem_methodList {m : Method} (hm : m ∈ s.methodList) :
    ∃ id, s.method? id = some m := by
  rw [methodList, Table.values_eq, List.mem_map] at hm
  obtain ⟨⟨id, m⟩, he, rfl⟩ := hm
  exact ⟨id, Std.ExtTreeMap.mem_toList_iff_getElem?_eq_some.1 he⟩

/-! ## Paths and impact -/

/-- Paths can be searched for with any number as a depth and a whole limit. -/
theorem gives_findPaths (s : Store) (source target : String) {depth : Json}
    (hdepth : depth.IsNumber)
    (limit : Int) : Gives (fun _ => True) (s.findPaths source target depth (.ofInt limit)) := by
  unfold findPaths
  split
  · obtain ⟨n, hn⟩ := Option.isSome_iff_exists.1 hdepth
    rw [s.graph.routesWithin_of_number source target hn]
    exact .pure trivial
  · exact .pure trivial

theorem gives_impactOf (s : Store) (id : String) (depth : Int) :
    Gives (fun _ => True) (s.impactOf id (.ofInt depth)) := by
  unfold impactOf
  split
  · exact (s.graph.gives_ballWithin id depth).bind fun _ _ => .pure trivial
  · exact .pure trivial

/-! ## Figures -/

/-- Methods can be graded when all stored risks are numbers. -/
theorem gives_riskDistribution (h : ∀ m ∈ s.methodList, m.riskScore.IsNumber) :
    Gives (fun _ => True) s.riskDistribution := by
  refine Gives.bind (Gives.mapM (Q := fun _ => True) ?_) fun _ _ => .pure trivial
  intro m hm
  exact Risk.gives_levelBelow _ (h m hm)

/-- Some stored measure is beyond the range of machine numbers, and so is a quotient. -/
def QuotientBreaks (s : Store) (cause : Failure) : Prop := cause = .quotientRange ∧ ¬s.InRange

variable (h : s.Measured)

include h

/-- The mean complexity fails only for a sum out of range. -/
theorem settles_averageComplexity : Settles s.QuotientBreaks Json.IsMachine
    (mean (s.methodList.map fun m => measured m.complexity.toJson)) := by
  by_cases hne : s.methodList = []
  · rw [hne]
    exact Gives.settles computes_zero
  · have hint : ∀ m ∈ s.methodList, m.complexity.toJson.IsInteger := by
      intro m hm
      obtain ⟨id, hm⟩ := exists_of_mem_methodList hm
      exact h.complexity hm
    by_cases hrange : MeanInRange (·.complexity.toJson) s.methodList
    · exact Gives.settles (computes_mean_measured hne hint hrange)
    · rw [mean_measured_out hne hint hrange]
      refine .error ⟨rfl, fun hall => hrange (meanInRange_of_isWhole hne ?_)⟩
      intro m hm
      obtain ⟨id, hm⟩ := exists_of_mem_methodList hm
      exact (hall id m hm).1

/-- So do the figures of a store, since the risks that it keeps are numbers. -/
theorem settles_statistics (top : Int) :
    Settles s.QuotientBreaks (fun _ => True) (s.statistics (.ofInt top)) := by
  have hlevels : Gives (fun _ => True) s.riskDistribution := by
    refine gives_riskDistribution fun m hm => ?_
    obtain ⟨id, hm⟩ := exists_of_mem_methodList hm
    exact (h.riskScore hm).isNumber
  refine hlevels.bind_settles fun _ _ => (settles_averageComplexity h).bind fun _ _ => ?_
  refine Gives.bind_settles (P := fun _ => True) ?_ fun _ _ => Settles.pure trivial
  exact (Graph.gives_countBound top).bind fun _ _ => .pure trivial

/-! ## Risks -/

omit h in
/-- The risk of a stored method computes exactly when its complexity is within the range. -/
theorem gives_riskOf (hs : s.Valid) (hcalls : s.calls.size < Number.machineBound) {id : String}
    {m : Method} (hm : s.method? id = some m) (hcomplexity : m.complexity.toJson.IsInteger)
    (hlines : m.linesOfCode.IsNumber) (history : Option ProjectHistory) :
    (m.Weighable → Gives Json.IsMachine (riskOf history m)) ∧
      (¬m.Weighable → riskOf history m = .error .quotientRange) := by
  obtain ⟨hin, hout⟩ := hs.degrees hcalls hm
  obtain ⟨w, htotal, hw⟩ := Risk.weighMethod_eq hcomplexity hin hlines hout history
  constructor
  · intro hweighable
    obtain ⟨criticality, hcriticality, -⟩ := Risk.computes_criticality hcomplexity hin hweighable
    rw [riskOf, hw, hcriticality]
    exact .pure htotal
  · intro hweighable
    rw [riskOf, hw, Risk.criticality_out hcomplexity hin hweighable]
    rfl

/-- Hence it can fail only in a store with a measure out of range. -/
theorem settles_riskOf (hs : s.Valid) (hcalls : s.calls.size < Number.machineBound) {id : String}
    {m : Method} (hm : s.method? id = some m) :
    Settles s.QuotientBreaks Json.IsMachine (riskOf none m) := by
  obtain ⟨n, hlines⟩ := h.linesOfCode hm
  obtain ⟨hgives, hout⟩ :=
    gives_riskOf hs hcalls hm (h.complexity hm) (hlines ▸ Json.isNumber_ofInt n) none
  by_cases hweighable : m.Weighable
  · exact (hgives hweighable).settles
  · rw [hout hweighable]
    refine .error ⟨rfl, fun hall => hweighable ?_⟩
    obtain ⟨k, hk, hrange⟩ := (hall id m hm).1
    rw [Method.Weighable, hk]
    exact hrange.trans_le (Nat.le_mul_of_pos_right _ (by decide))

omit h in
/-- Setting one risk to a machine number leaves all risks machine numbers. -/
theorem riskScore_setRisk {risk : Json} (hrisk : risk.IsMachine) (target : String)
    (hs : ∀ id m, s.method? id = some m → m.riskScore.IsMachine) :
    ∀ id m, (s.setRisk target risk).method? id = some m → m.riskScore.IsMachine := by
  intro id m hm
  rw [method?, setRisk, Table.getElem?_modify_eq] at hm
  split at hm
  · obtain ⟨n, -, rfl⟩ := Option.map_eq_some_iff.1 hm
    exact hrisk
  · exact hs id m hm

omit h in
/-- Risks that are brought up to date stay machine numbers, and a risk that has none stops it. -/
theorem settles_refreshEach {allowed : Failure → Prop} {ms : List Method}
    (hms : ∀ m ∈ ms, Settles allowed Json.IsMachine (riskOf none m)) (found : List (String × Json))
    (hs : ∀ id m, s.method? id = some m → m.riskScore.IsMachine) :
    Settles allowed (fun _ => True) (refreshEach none s found ms).2 ∧
      ∀ id m, (refreshEach none s found ms).1.method? id = some m → m.riskScore.IsMachine := by
  induction ms generalizing s found with
  | nil => exact ⟨.pure trivial, hs⟩
  | cons m ms ih =>
    obtain ⟨hm, hms⟩ := List.forall_mem_cons.1 hms
    unfold refreshEach
    cases hrisk : riskOf none m with
    | error cause => exact ⟨.error (hm.failure cause hrisk), hs⟩
    | ok risk => exact ih hms _ (riskScore_setRisk (hm.result risk hrisk) m.id hs)

omit h in
/-- Propagating the stored risk of a method, which is a machine number. -/
theorem settles_propagateRisk (hs : ∀ id m, s.method? id = some m → m.riskScore.IsMachine)
    (id : String) (depth : Int) :
    Settles Graph.DecayBreaks (fun _ => True) (s.propagateRisk id (.ofInt depth)) := by
  unfold propagateRisk
  cases hm : s.method? id with
  | none => exact .pure trivial
  | some m => exact s.graph.settles_propagateWithin id (hs id m hm) depth

end Store

/-! ## Changes -/

namespace Batch

variable {s : Store} (h : s.Measured) (hs : s.Valid) (hsize : s.methods.size < pow2 63)

include h hs hsize

/-- The analysis of a change in a store of measured methods is refused, or has an answer, or fails
    over a mean that takes a measure beyond the range. -/
theorem settles_runChange {plan : Plan} (ht : ∀ name, (plan.thresholds name).IsNumber)
    (hworkers : plan.workers.IsNumber) (htimeout : limitFailure? plan.timeout = none)
    (hdepth : plan.maxDepth.IsNumber) {limit : Int} (hlimit : plan.maxPaths = .ofInt limit)
    (hbound : limit.toNat < pow2 63) (context : ChangeContext) (course : Course) :
    Settles (fun e => ∀ cause, e = .failed cause → s.QuotientBreaks cause) (fun _ => True)
      (runChange plan s context course).answer := by
  obtain ⟨n, hn⟩ := Option.isSome_iff_exists.1 hdepth
  obtain ⟨routes, events, hfound, hroutes, -, hlength⟩ :=
    Discovery.exists_candidates hs hn limit context.changed
  rw [← hlimit] at hfound
  have hanswer : (runChange plan s context course).answer =
      (run plan s.hasCall context course (Discovery.pathsOver s routes)).answer := by
    rw [runChange, hfound]
  rw [hanswer]
  by_cases hne : routes = []
  · -- without candidates the batch is empty
    subst hne
    exact .error (by rintro cause ⟨⟩)
  · have hcheck := check_discovered hs hroutes hne
    have hone : (1 : Nat) < pow2 63 := by decide
    have hcount : (Discovery.pathsOver s routes).length < pow2 126 := by
      rw [Discovery.length_pathsOver]
      exact (by omega : routes.length < pow2 63).trans (pow2_lt (by decide))
    have hfit := fit_discovered hs hroutes (fun _ _ hm => ⟨h.complexity hm, h.linesOfCode hm⟩) hsize
      (Number.lt_machineBound hcount) ht context course.interrupt
    rw [run_answer hcheck hworkers, waitFailure?_of_limit htimeout, Option.elim_none]
    by_cases hrange : ∀ x ∈ (Discovery.pathsOver s routes).map
        (score s.hasCall context course.interrupt), x.bothScored = true → x.path.InRange
    · obtain ⟨a, ha, -⟩ := conclude_of_inRange (by rwa [map_path_score]) hfit plan.timeout hrange
      rw [ha]
      exact .pure trivial
    · rw [conclude_of_not_inRange (by rwa [map_path_score]) hfit plan.timeout hrange]
      refine .error ?_
      rintro _ ⟨⟩
      refine ⟨rfl, fun hall => hrange fun x hx _ => ?_⟩
      obtain ⟨p, hp, rfl⟩ := List.mem_map.1 hx
      exact inRange_discovered hs hroutes hall hp

end Batch
end PathTriage
