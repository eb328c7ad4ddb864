import PathTriage.Proofs.Score.Formula
import PathTriage.Score.Intent
import PathTriage.Score.Risk

/-!
Both scores of a path over fit methods are computed.

A method is fit when its measures are integers within the range of machine numbers and its degrees
are counts. Each formula of the two scorers is followed part by part: every division is by a number
that is not zero, every quotient of counts is within the range, and every logarithm is of a positive
number.
-/

namespace PathTriage

open Outcome Scalar

/-- A number of things within the range of machine numbers. -/
def Json.IsCount (v : Json) : Prop := ∃ n : Nat, v = .ofInt n ∧ n < Number.machineBound

/-- A count within the range converts to a machine number. -/
theorem Json.IsCount.isWhole {v : Json} (h : v.IsCount) : v.IsWhole := by
  obtain ⟨n, rfl, hn⟩ := h
  exact ⟨n, rfl, by rwa [Int.natAbs_natCast]⟩

theorem Json.IsCount.isNumber {v : Json} (h : v.IsCount) : v.IsNumber := h.isWhole.isNumber

/-- What a method needs to be scored on any path. -/
structure Method.Fit (m : Method) : Prop where
  complexity : m.complexity.toJson.IsWhole
  inDegree : m.inDegree.IsCount
  outDegree : m.outDegree.IsCount
  signature : m.signature.memberFailure? = none

/-- What a changed method needs beyond that. -/
structure Method.FitForChange (m : Method) : Prop where
  linesOfCode : m.linesOfCode.IsWhole
  paramTypes : m.paramTypes.sizeFailure? = none
  paramCount : m.paramTypes.size < Number.machineBound

/-! ## Lengths -/

/-- Dropping repetitions makes no list longer, whatever counts as one. -/
theorem length_eraseDupsBy_le {β : Type} (r : β → β → Bool) (xs : List β) :
    (xs.eraseDupsBy r).length ≤ xs.length := by
  match xs with
  | [] => exact Nat.le_refl 0
  | x :: xs =>
    have hfilter := List.length_filter_le (fun y => r y x = false) xs
    have hrest := length_eraseDupsBy_le r (xs.filter fun y => r y x = false)
    rw [List.eraseDupsBy_cons, List.length_cons, List.length_cons]
    omega
termination_by xs.length
decreasing_by simp only [List.length_cons]; omega

/-- There is at most one call as evidence for each hop. -/
theorem CallPath.length_resolvedCalls_le (known : String → String → Bool) (p : CallPath) :
    (p.resolvedCalls known).length ≤ p.hops := by
  have hsteps : p.steps.length ≤ p.slots.length := by
    rw [CallPath.steps, List.length_zip]
    exact Nat.min_le_right _ _
  have hslots := p.slots_length
  have hcalls := List.length_filterMap_le
    (fun step : (Method × Method) × Option Call => step.2.filter fun c =>
      c.caller == step.1.1.id && c.callee == step.1.2.id && known c.caller c.callee) p.steps
  unfold CallPath.resolvedCalls CallPath.hops
  omega

/-! ## Intent -/

namespace Intent

section Methods

variable {methods : List Method} (hfit : ∀ m ∈ methods, m.Fit)
  (hlength : methods.length < Number.machineBound)

/-- The overlap with the history is a quotient of counts, so it asks nothing of the methods. -/
theorem computes_keywordOverlap (methods : List Method) (history : List Commit) :
    Computes (keywordOverlap methods history) := by
  unfold keywordOverlap
  split
  · exact computes_hundredths 50
  · have hle := List.length_filter_le (Lexicon.keywordsOfCommits history).contains
      (Lexicon.keywordsOf methods)
    exact computes_quotient_le (by omega) (by omega)

theorem computes_layerWeight (layer : Layer) : Computes (layerWeight layer) := by
  unfold layerWeight
  split <;> exact computes_hundredths _

include hlength in
/-- Layers have weights whatever the measures of a method are. -/
theorem computes_layerImportance : Computes (layerImportance methods) :=
  computes_mean_map (fun m _ => computes_layerWeight m.layer) hlength

include hfit

/-- Whether a method logs is a comparison of its number of callees, so that has to be a number. -/
theorem decides_logs {m : Method} (hm : m ∈ methods) : Decides (logs Json m) := by
  have hcalls := decides_test .above (.pure (hfit m hm).outDegree.isNumber) (isNumber_whole 0)
  exact Condition.decides_both hcalls (Condition.decides_pure _)

include hlength

/-- The activity takes the logarithm of a number of callers, which is a count. -/
theorem computes_activity : Computes (activity methods) := by
  refine computes_mean_map ?_ hlength
  intro m hm
  -- a count is not negative, so there is a logarithm
  obtain ⟨n, hn, -⟩ := (hfit m hm).inDegree
  rw [hn]
  exact computes_capped (computes_decadesOf (Int.natCast_nonneg n))

/-- Business value, from its four parts. -/
theorem computes_businessValue (history : List Commit) :
    Computes (businessValue methods history) := by
  have hoverlap := computes_mul (computes_hundredths 30) (computes_keywordOverlap methods history)
  have hmatch := computes_mul (computes_hundredths 25)
    (computes_meanWhere Lexicon.mentionsBusiness hlength)
  have hlayer := computes_mul (computes_hundredths 25) (computes_layerImportance hlength)
  have hactivity := computes_mul (computes_hundredths 20) (computes_activity hfit hlength)
  exact computes_unit
    (computes_add (computes_add (computes_add hoverlap hmatch) hlayer) hactivity)

/-- The shares of signs are machine numbers. -/
theorem gives_signs : Gives (fun s : Completeness Json => s.exceptionHandling.IsMachine ∧
    s.testCoverage.IsMachine ∧ s.parameterValidation.IsMachine ∧ s.logging.IsMachine ∧
    s.resourceManagement.IsMachine) (signs methods) := by
  refine (computes_meanWhere handlesExceptions hlength).bind fun _ hexceptions => ?_
  refine (computes_meanWhere Method.isTested hlength).bind fun _ htests => ?_
  refine (computes_meanWhere validatesParameters hlength).bind fun _ hparameters => ?_
  refine (computes_meanIf (fun _ hm => decides_logs hfit hm) hlength).bind fun _ hlogs => ?_
  refine (computes_meanWhere managesResources hlength).bind fun _ hresources => ?_
  exact .pure ⟨hexceptions, htests, hparameters, hlogs, hresources⟩

/-- Completeness weighs the shares of the five signs. -/
theorem computes_completeness : Computes (completeness methods) := by
  refine (gives_signs hfit hlength).bind ?_
  rintro s ⟨hexceptions, htests, hparameters, hlogs, hresources⟩
  refine computes_unit (computes_total ?_ (List.cons_ne_nil _ _))
  rw [List.forall_mem_cons, List.forall_mem_cons, List.forall_mem_cons, List.forall_mem_cons,
    List.forall_mem_singleton]
  refine ⟨?_, ?_, ?_, ?_, ?_⟩
  · exact computes_mul (computes_hundredths 30) (computes_pure hexceptions)
  · exact computes_mul (computes_hundredths 25) (computes_pure htests)
  · exact computes_mul (computes_hundredths 20) (computes_pure hparameters)
  · exact computes_mul (computes_hundredths 15) (computes_pure hlogs)
  · exact computes_mul (computes_hundredths 10) (computes_pure hresources)

omit hlength

/-- The mean complexity, on account of which complexities have to be within the range. -/
theorem computes_averageComplexity : Computes (averageComplexity methods) :=
  computes_mean_whole fun m hm => .pure (hfit m hm).complexity

/-- Every method can be told from the others in the search for duplicates. -/
theorem findSome?_memberFailure? : (methods.map identity).findSome? Json.memberFailure? = none := by
  rw [List.findSome?_eq_none_iff]
  intro v hv
  obtain ⟨m, hm, rfl⟩ := List.mem_map.1 hv
  unfold identity
  split
  · exact (hfit m hm).signature
  · rfl

/-- The search for duplicates needs signatures that can be members of a set. -/
theorem computes_duplicationPenalty : Computes (duplicationPenalty methods) := by
  unfold duplicationPenalty
  split
  · exact computes_zero
  · next hne =>
    rw [List.isEmpty_iff_length_eq_zero] at hne
    have hle := length_eraseDupsBy_le Json.sameMember (methods.map identity)
    rw [List.length_map] at hle
    have hshare : Computes (quotient ((methods.map identity).eraseDupsBy Json.sameMember).length
        methods.length) := computes_quotient_le (by omega) (by omega)
    dsimp only
    rw [findSome?_memberFailure? hfit]
    exact computes_mul (computes_sub computes_one hshare) (computes_hundredths 50)

end Methods

/-- There are no more resolved calls than hops, so the share is within the range with them. -/
theorem computes_connectivity (known : String → String → Bool) (p : CallPath) :
    Computes (connectivity known p) := by
  have hle := p.length_resolvedCalls_le known
  unfold connectivity
  split
  · exact computes_one
  · exact computes_quotient_le (by omega) (by omega)

/-- Grades compare a machine number with constants. -/
theorem gives_complexityGrade {v : Json} (hv : v.IsMachine) :
    Gives (fun _ => True) (complexityGrade v) := by
  have hv := isNumber_pure hv.isNumber
  refine (decides_test .atMost hv (isNumber_whole 5)).choose (.pure trivial) ?_
  exact (decides_test .atMost hv (isNumber_whole 10)).choose (.pure trivial) (.pure trivial)

theorem gives_coverageGrade {v : Json} (hv : v.IsMachine) :
    Gives (fun _ => True) (coverageGrade v) := by
  have hv := isNumber_pure hv.isNumber
  refine (decides_test .atLeast hv (isNumber_hundredths 80)).choose (.pure trivial) ?_
  exact (decides_test .atLeast hv (isNumber_hundredths 50)).choose (.pure trivial) (.pure trivial)

variable {p : CallPath} (hfit : ∀ m ∈ p.methods, m.Fit)
  (hlength : p.methods.length < Number.machineBound)

include hfit hlength

/-- Code quality, from its four parts. -/
theorem computes_codeQuality (known : String → String → Bool) : Computes (codeQuality known p) := by
  have hcomplexity := computes_mul (computes_hundredths 30)
    (computes_grade [(5, 0), (10, 20), (15, 50)] 80
      (Computes.isNumber (computes_averageComplexity hfit)))
  have hduplication := computes_mul (computes_hundredths 25) (computes_duplicationPenalty hfit)
  have hnaming := computes_mul (computes_hundredths 15)
    (computes_sub (computes_meanWhere (fun m => Lexicon.isCustomaryName m.name) hlength)
      (computes_hundredths 50))
  have hconnectivity := computes_mul (computes_hundredths 10)
    (computes_sub (computes_connectivity known p) (computes_hundredths 50))
  exact computes_unit (computes_add (computes_add (computes_sub (computes_sub computes_one
    hcomplexity) hduplication) hnaming) hconnectivity)

omit hfit in
theorem computes_confidence {historySize : Nat} (hhistory : historySize < Number.machineBound) :
    Computes (confidence p.methods historySize) := by
  have hthree : 3 < Number.machineBound := Number.lt_machineBound (by decide)
  refine computes_mean ?_ (by simpa using hthree)
  rw [List.forall_mem_cons, List.forall_mem_cons, List.forall_mem_singleton]
  refine ⟨?_, ?_, ?_⟩
  · exact computes_capped (computes_quotient (by decide) (by omega))
  · exact computes_capped (computes_quotient (by decide) (by omega))
  · exact computes_meanOf Method.isTested (computes_hundredths 50) hlength

end Intent

/-- The scores of an intent are machine numbers. -/
structure IntentWeight.IsMachine (w : IntentWeight Json) : Prop where
  total : w.total.IsMachine
  business : w.business.IsMachine
  completeness : w.completeness.IsMachine
  quality : w.quality.IsMachine
  confidence : w.confidence.IsMachine

/-- The intent of a path over fit methods is computed. -/
theorem Intent.gives_weigh {p : CallPath} (hfit : ∀ m ∈ p.methods, m.Fit)
    (hlength : p.methods.length < Number.machineBound) {history : List Commit}
    (hhistory : history.length < Number.machineBound) (known : String → String → Bool) :
    Gives IntentWeight.IsMachine (Intent.weigh known p history) := by
  refine (computes_businessValue hfit hlength history).bind fun _ hbusiness => ?_
  refine (gives_signs hfit hlength).bind fun _ _ => ?_
  refine (computes_completeness hfit hlength).bind fun _ hcomplete => ?_
  refine (computes_codeQuality hfit hlength known).bind fun _ hquality => ?_
  have htotal := computes_unit (computes_add (computes_add
    (computes_mul (computes_hundredths 40) (computes_pure hbusiness))
    (computes_mul (computes_hundredths 35) (computes_pure hcomplete)))
    (computes_mul (computes_hundredths 25) (computes_pure hquality)))
  refine htotal.bind fun _ htotal => ?_
  refine (computes_confidence hlength hhistory).bind fun _ hconfidence => ?_
  refine (computes_averageComplexity hfit).bind fun _ haverage => ?_
  refine (computes_meanWhere Method.isTested hlength).bind fun _ hcoverage => ?_
  refine (gives_complexityGrade haverage).bind fun _ _ => ?_
  refine (gives_coverageGrade hcoverage).bind fun _ _ => ?_
  exact .pure ⟨htotal, hbusiness, hcomplete, hquality, hconfidence⟩

/-! ## Risk -/

/-- The scores of a risk are machine numbers. -/
structure RiskWeight.IsMachine (w : RiskWeight Json) : Prop where
  total : w.total.IsMachine
  architectural : w.architectural.IsMachine
  blastRadius : w.blastRadius.IsMachine
  changeComplexity : w.changeComplexity.IsMachine
  confidence : w.confidence.IsMachine

namespace Risk

section Methods

variable {methods : List Method} (hfit : ∀ m ∈ methods, m.Fit)
  (hlength : methods.length < Number.machineBound)

/-- A sum of counts by the largest of them. -/
theorem totalCount_le {ns : List Nat} {bound : Nat} (h : ∀ n ∈ ns, n ≤ bound) :
    totalCount ns ≤ bound * ns.length := by
  induction ns with
  | nil => exact Nat.zero_le _
  | cons n ns ih =>
    have hn := h n List.mem_cons_self
    have hrest := ih fun m hm => h m (List.mem_cons_of_mem n hm)
    have hsum : totalCount (n :: ns) = n + totalCount ns := rfl
    rw [hsum, List.length_cons, Nat.mul_succ]
    omega

/-- A hop counts for two violations at most: one upwards and one across. -/
theorem violations_le (methods : List Method) : violations methods ≤ 2 * (methods.length - 1) := by
  have hhop : ∀ n ∈ (methods.zip methods.tail).map hopViolations, n ≤ 2 := by
    intro n hn
    obtain ⟨hop, -, rfl⟩ := List.mem_map.1 hn
    unfold hopViolations
    dsimp only
    split <;> split <;> decide
  have hle := totalCount_le hhop
  rw [List.length_map, List.length_zip, List.length_tail] at hle
  unfold violations
  omega

/-- Hence the violations per hop are a small quotient, for any path. -/
theorem computes_crossLayer (methods : List Method) : Computes (crossLayer methods) := by
  unfold crossLayer
  split
  · exact computes_zero
  · exact computes_capped (computes_quotient_le (by omega) (violations_le methods))

/-- Repetitions are no more than methods. -/
theorem computes_circular (methods : List Method) : Computes (circular methods) := by
  unfold circular
  split
  · exact computes_zero
  · next hne =>
    rw [List.isEmpty_iff_length_eq_zero] at hne
    refine computes_capped (computes_quotient_le (by omega) ?_)
    unfold repetitions
    omega

include hfit

/-- Hubs and high fan-in are told by comparing a number of callers. -/
theorem decides_calledOver (n : Int) {m : Method} (hm : m ∈ methods) :
    Decides (calledOver Json n m) :=
  decides_test .above (.pure (hfit m hm).inDegree.isNumber) (isNumber_whole n)

/-- The largest number of callers is one of them. -/
theorem gives_maxInDegree : Gives Json.IsWhole (maxInDegree methods) := by
  cases methods with
  | nil => exact gives_whole (Number.lt_machineBound (by decide))
  | cons first rest =>
    refine gives_largest (fun _ hv => hv.isNumber)
      (hfit first List.mem_cons_self).inDegree.isWhole ?_
    intro v hv
    obtain ⟨m, hm, rfl⟩ := List.mem_map.1 hv
    exact (hfit m (List.mem_cons_of_mem first hm)).inDegree.isWhole

/-- The share of hubs and the height of the highest one, or zero without hubs. -/
theorem computes_singlePoint : Computes (singlePoint methods) := by
  refine (Condition.gives_select fun m hm => decides_calledOver hfit 5 hm).bind fun hubs hhubs => ?_
  split
  · exact computes_zero
  · next hne =>
    rw [List.isEmpty_iff_length_eq_zero] at hne
    have hle := hhubs.length_le
    have hratio : Computes (quotient hubs.length methods.length) :=
      computes_quotient_le (by omega) (by omega)
    refine hratio.bind fun _ hratio => (gives_maxInDegree hfit).bind fun _ hhighest => ?_
    have hheight := computes_capped (computes_div_whole (n := 20) (.pure hhighest) (by decide))
    exact computes_div (computes_add (computes_pure hratio) hheight) (by decide) (by decide)

end Methods

/-! ### Coupling -/

/-- The number of pairs of methods, halved, is a divisor that is not zero. -/
theorem computes_density {calls pairs : Nat} (hcalls : calls < Number.machineBound)
    (hpairs : 2 ≤ pairs) (hrange : pairs < Number.machineBound) :
    Computes (whole (calls : Int) / (whole (pairs : Int) / whole 2)) := by
  have hhalf :
      Json.div (.ofInt pairs) (.ofInt 2) = .ok (.ofFloat (Binary64.nearest false pairs 2)) := by
    have hquotient :
        Number.div (.int pairs) (.int 2) = .ok (.float (Binary64.nearest false pairs 2)) :=
      Number.div_natCast (by decide : 0 < 2)
        (hrange.trans_le (Nat.le_mul_of_pos_right _ (by decide)))
    change (Number.div (.int pairs) (.int 2)).map Json.number = _
    rw [hquotient]
    rfl
  -- one or more is not rounded down to zero
  have hzero := Number.same_zero_nearest (by decide : 0 < 2) hpairs
  rw [whole_div_whole, hhalf]
  exact computes_div_ofFloat (gives_whole (by rwa [Int.natAbs_natCast])) hzero

section Path

variable {p : CallPath} (hfit : ∀ m ∈ p.methods, m.Fit) (hlength : p.methods.length < pow2 63)

include hfit hlength

/-- Coupling divides by the number of pairs of methods, which is why the length of the path has a
    bound of its own here. -/
theorem computes_coupling (known : String → String → Bool) : Computes (coupling known p) := by
  unfold coupling
  dsimp only
  split
  · exact computes_zero
  · next hmany =>
    have hout : Computes (mean (p.methods.map fun m => measured m.outDegree)) :=
      computes_mean_whole fun m hm => .pure (hfit m hm).outDegree.isWhole
    have hcalls := p.length_resolvedCalls_le known
    -- two methods make two ordered pairs, so half their number is not zero
    have hpairs : 2 ≤ p.methods.length * (p.methods.length - 1) := by
      have hle := Nat.mul_le_mul (by omega : 2 ≤ p.methods.length)
        (by omega : 1 ≤ p.methods.length - 1)
      omega
    -- the number of pairs is where the length needs a bound of its own
    have hrange : p.methods.length * (p.methods.length - 1) < pow2 63 * pow2 63 :=
      Nat.mul_lt_mul'' hlength (by omega)
    have hsquare : pow2 63 * pow2 63 = pow2 126 := by decide
    have hbound := Number.pow2_lt_machineBound
    have hhops : p.hops < Number.machineBound := by
      have hlt : pow2 63 < pow2 126 := pow2_lt (by decide)
      unfold CallPath.hops
      omega
    have hdensity := computes_density (hcalls.trans_lt hhops) hpairs (by omega)
    refine hout.bind fun _ hout => hdensity.bind fun _ hdensity => ?_
    exact computes_div (computes_add
      (computes_capped (computes_div (computes_pure hout) (by decide) (by decide)))
      (computes_capped (computes_pure hdensity))) (by decide) (by decide)

/-- Architectural risk, from its four parts. -/
theorem computes_architectural (known : String → String → Bool) :
    Computes (architectural known p) := by
  have hcross := computes_mul (computes_hundredths 30) (computes_crossLayer p.methods)
  have hcircular := computes_mul (computes_hundredths 25) (computes_circular p.methods)
  have hcoupling := computes_mul (computes_hundredths 25) (computes_coupling hfit hlength known)
  have hpoint := computes_mul (computes_hundredths 20) (computes_singlePoint hfit)
  exact computes_unit
    (computes_add (computes_add (computes_add hcross hcircular) hcoupling) hpoint)

end Path

/-! ### Changed methods -/

/-- A changed method of the path is on the path and changed, and comes from nowhere else. -/
theorem mem_changedOn {changed seen : List String} {methods : List Method} {m : Method}
    (hm : m ∈ changedOn changed seen methods) : m ∈ methods ∧ m.id ∈ changed := by
  induction methods generalizing seen with
  | nil => simp [changedOn] at hm
  | cons m' methods ih =>
    rw [changedOn] at hm
    split at hm
    · next hchanged =>
      rcases List.mem_cons.1 hm with rfl | hm
      · rw [Bool.and_eq_true, List.contains_iff_mem] at hchanged
        exact ⟨List.mem_cons_self, hchanged.1⟩
      · exact ⟨List.mem_cons_of_mem m' (ih hm).1, (ih hm).2⟩
    · exact ⟨List.mem_cons_of_mem m' (ih hm).1, (ih hm).2⟩

/-- Each method of the path is taken once at most, whatever has been seen before. -/
theorem length_changedOn_le (changed : List String) (methods : List Method) :
    ∀ seen, (changedOn changed seen methods).length ≤ methods.length := by
  induction methods with
  | nil =>
    intro seen
    exact Nat.le_refl 0
  | cons m methods ih =>
    intro seen
    have hnext := ih (m.id :: seen)
    have hsame := ih seen
    rw [changedOn, List.length_cons]
    split
    · rw [List.length_cons]
      omega
    · omega

/-- The impact of a changed method takes a logarithm and two quotients of its counts. -/
theorem computes_impact {m : Method} (hm : m.Fit) : Computes (impact m) := by
  obtain ⟨callers, hcallers, -⟩ := hm.inDegree
  have hreach : Computes (decadesOf m.inDegree) := by
    rw [hcallers]
    exact computes_decadesOf (Int.natCast_nonneg callers)
  have hcomplexity : Computes (measured m.complexity.toJson / whole 10) :=
    computes_div_whole (.pure hm.complexity) (by decide)
  have hcallees : Computes (measured m.outDegree / whole 5) :=
    computes_div_whole (.pure hm.outDegree.isWhole) (by decide)
  refine hreach.bind fun _ hreach => ?_
  refine (computes_capped (computes_div (computes_add hcomplexity hcallees) (by decide)
    (by decide))).bind fun _ hstructural => ?_
  exact computes_capped (computes_add (computes_pure hreach)
    (computes_mul (computes_hundredths 50) (computes_pure hstructural)))

section Changed

variable {changed : List Method} (hfit : ∀ m ∈ changed, m.Fit)
  (hlength : changed.length < Number.machineBound)

include hfit

include hlength in
/-- The mean impact, or zero if nothing on the path changed. -/
theorem computes_blastRadius : Computes (blastRadius changed) := by
  unfold blastRadius
  split
  · exact computes_zero
  · exact computes_capped (computes_mean_map (fun m hm => computes_impact (hfit m hm)) hlength)

/-- Only changed methods have to be fit for change: a size that is no number on an unchanged method
    does no harm. -/
theorem computes_changeComplexity (hchange : ∀ m ∈ changed, m.FitForChange) {pathLength : Nat}
    (hpath : pathLength < Number.machineBound) :
    Computes (changeComplexity changed pathLength) := by
  have hfour : 4 < Number.machineBound := Number.lt_machineBound (by decide)
  unfold changeComplexity
  split
  · exact computes_zero
  · refine computes_mean ?_ (by simpa using hfour)
    rw [List.forall_mem_cons, List.forall_mem_cons, List.forall_mem_cons, List.forall_mem_singleton]
    -- three means of integers within the range, each divided by a constant, and the path length
    have hcomplexity : ∀ m ∈ changed, Gives Json.IsWhole (measured m.complexity.toJson) := by
      intro m hm
      exact .pure (hfit m hm).complexity
    have hlines : ∀ m ∈ changed, Gives Json.IsWhole (measured m.linesOfCode) := by
      intro m hm
      exact .pure (hchange m hm).linesOfCode
    have hparams : ∀ m ∈ changed, Gives Json.IsWhole (Scalar.sizeOf m.paramTypes) := by
      intro m hm
      unfold Scalar.sizeOf
      rw [(hchange m hm).paramTypes]
      exact gives_whole (by rw [Int.natAbs_natCast]; exact (hchange m hm).paramCount)
    refine ⟨?_, ?_, ?_, ?_⟩
    · exact computes_capped (computes_div (computes_mean_whole hcomplexity) (by decide) (by decide))
    · exact computes_capped (computes_div (computes_mean_whole hlines) (by decide) (by decide))
    · exact computes_capped (computes_div (computes_mean_whole hparams) (by decide) (by decide))
    · exact computes_capped (computes_quotient (by decide) (by omega))

end Changed

/-! ### Data flow, details and confidence -/

theorem computes_consistency (methods : List Method) : Computes (consistency methods) := by
  unfold consistency
  dsimp only
  split
  · exact computes_hundredths 80
  · split
    · exact computes_hundredths 50
    · exact computes_hundredths 20

/-- Data-flow risk is made of shares of methods, so it asks for a length within the range only. -/
theorem computes_dataFlow {methods : List Method}
    (hlength : methods.length < Number.machineBound) : Computes (dataFlow methods) := by
  have hshared := computes_mul (computes_hundredths 40) (computes_meanWhere sharesState hlength)
  have hconcurrent := computes_mul (computes_hundredths 30)
    (computes_meanWhere isConcurrent hlength)
  have hconsistency := computes_mul (computes_hundredths 30) (computes_consistency methods)
  exact computes_unit (computes_add (computes_add hshared hconcurrent) hconsistency)

/-- A level is found for every number, by comparing it with one bound after the other. -/
theorem gives_levelBelow (bounds : List (Nat × Level)) {v : Json} (hv : v.IsNumber) :
    Gives (fun _ => True) (levelBelow bounds v) := by
  induction bounds with
  | nil => exact .pure trivial
  | cons bound bounds ih =>
    have hbelow := decides_test .below (isNumber_pure hv) (isNumber_hundredths bound.1)
    exact hbelow.choose (.pure trivial) ih

section Details

variable {methods : List Method} (hfit : ∀ m ∈ methods, m.Fit)
  (hlength : methods.length < Number.machineBound)

include hfit in
theorem decides_isComplex {m : Method} (hm : m ∈ methods) : Decides (isComplex Json m) :=
  decides_test .above (.pure (hfit m hm).complexity.isNumber) (isNumber_whole 15)

include hlength

include hfit in
/-- The texts about a risk follow from comparisons that all come out. -/
theorem gives_details {violations : Json} (hviolations : violations.IsMachine)
    (changed : List Method) : Gives (fun _ => True) (details violations methods changed) := by
  have hcritical : ∀ m ∈ methods, Decides (isCritical Json m) := by
    intro m hm
    exact Condition.decides_either (decides_calledOver hfit 5 hm)
      (Condition.decides_either (decides_isComplex hfit hm) (Condition.decides_pure _))
  have haverage := Computes.isNumber (Intent.computes_averageComplexity hfit)
  have htested := Computes.isNumber (computes_meanWhere Method.isTested hlength)
  refine (Condition.gives_select hcritical).bind fun _ _ => ?_
  refine (Condition.decides_anyOf fun m hm => decides_isComplex hfit hm).bind fun _ _ => ?_
  refine (Condition.decides_anyOf fun m hm => decides_calledOver hfit 10 hm).bind fun _ _ => ?_
  refine (decides_test .above (isNumber_pure hviolations.isNumber)
    (isNumber_hundredths 30)).bind fun _ _ => ?_
  refine (decides_test .above haverage (isNumber_whole 10)).bind fun _ _ => ?_
  refine (decides_test .below htested (isNumber_hundredths 70)).bind fun _ _ => ?_
  exact .pure trivial

theorem computes_confidence {changedCount : Nat} (hchanged : changedCount < Number.machineBound) :
    Computes (confidence methods changedCount) := by
  have hthree : 3 < Number.machineBound := Number.lt_machineBound (by decide)
  refine computes_mean ?_ (by simpa using hthree)
  rw [List.forall_mem_cons, List.forall_mem_cons, List.forall_mem_singleton]
  refine ⟨?_, ?_, ?_⟩
  · exact computes_capped (computes_quotient (by decide) (by omega))
  · exact computes_capped (computes_quotient (by decide) (by omega))
  · exact computes_meanOf _ (computes_hundredths 50) hlength

end Details

/-- The risk of a path over fit methods is computed. -/
theorem gives_weigh {p : CallPath} (hfit : ∀ m ∈ p.methods, m.Fit)
    (hlength : p.methods.length < pow2 63) {changed : List String}
    (hchange : ∀ m ∈ p.methods, m.id ∈ changed → m.FitForChange)
    (hchanged : changed.length < Number.machineBound) (known : String → String → Bool) :
    Gives RiskWeight.IsMachine (Risk.weigh known p changed) := by
  have hrange : p.methods.length < Number.machineBound :=
    Number.lt_machineBound (hlength.trans (pow2_lt (by decide)))
  -- only changed methods that are on the path are looked at
  have honPath := length_changedOn_le changed p.methods []
  have hfitOn : ∀ m ∈ changedOn changed [] p.methods, m.Fit := fun m hm =>
    hfit m (mem_changedOn hm).1
  have hchangeOn : ∀ m ∈ changedOn changed [] p.methods, m.FitForChange := fun m hm =>
    hchange m (mem_changedOn hm).1 (mem_changedOn hm).2
  have hscores : Gives (fun s : RiskScores Json => s.total.IsMachine ∧ s.architectural.IsMachine ∧
      s.blastRadius.IsMachine ∧ s.changeComplexity.IsMachine)
      (scores known p (changedOn changed [] p.methods)) := by
    refine (computes_architectural hfit hlength known).bind fun _ harchitectural => ?_
    refine (computes_blastRadius hfitOn (by omega)).bind fun _ hradius => ?_
    refine (computes_changeComplexity hfitOn hchangeOn hrange).bind fun _ hcomplexity => ?_
    refine (computes_dataFlow hrange).bind fun _ hflow => ?_
    have htotal := computes_unit (computes_add (computes_add (computes_add
      (computes_mul (computes_hundredths 35) (computes_pure harchitectural))
      (computes_mul (computes_hundredths 30) (computes_pure hradius)))
      (computes_mul (computes_hundredths 25) (computes_pure hcomplexity)))
      (computes_mul (computes_hundredths 10) (computes_pure hflow)))
    refine htotal.bind fun _ htotal => ?_
    exact .pure ⟨htotal, harchitectural, hradius, hcomplexity⟩
  have hdistinct : changed.eraseDups.length < Number.machineBound :=
    (length_eraseDupsBy_le (· == ·) changed).trans_lt hchanged
  refine hscores.bind ?_
  rintro s ⟨htotal, harchitectural, hradius, hcomplexity⟩
  refine (gives_levelBelow _ htotal.isNumber).bind fun _ _ => ?_
  refine (computes_confidence hrange hdistinct).bind fun _ hconfidence => ?_
  refine (computes_crossLayer p.methods).bind fun _ hviolations => ?_
  refine (gives_details hfit hrange hviolations _).bind fun _ _ => ?_
  exact .pure ⟨htotal, harchitectural, hradius, hcomplexity, hconfidence⟩

end Risk

end PathTriage
