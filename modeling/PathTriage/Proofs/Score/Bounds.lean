import PathTriage.Proofs.Score.Exact
import PathTriage.Proofs.Score.Weights
import PathTriage.Verdict

/-!
Scores stay in the unit interval.

In exact arithmetic, every score that the two scorers give to a path or a method lies between zero
and one, and so does the combined confidence in a path. Totals and most of their parts are cut off
at both ends. The others are means of capped numbers: they stay in the interval because what is
capped from above is never negative, and that rests on the counts of a method and on the logarithm
of a count.
-/

namespace PathTriage

open Scalar

/-- The counts that a method comes with are not negative. -/
structure Method.Counted (m : Method) : Prop where
  inDegree : 0 ≤ m.inDegree.value
  outDegree : 0 ≤ m.outDegree.value
  linesOfCode : 0 ≤ m.linesOfCode.value

section InUnit

variable {K : Type} [Field K] [LinearOrder K]

/-- All scores of a path's intent lie in the unit interval. -/
structure IntentWeight.InUnit (w : IntentWeight K) : Prop where
  total : w.total ∈ Set.Icc 0 1
  business : w.business ∈ Set.Icc 0 1
  completeness : w.completeness ∈ Set.Icc 0 1
  quality : w.quality ∈ Set.Icc 0 1
  confidence : w.confidence ∈ Set.Icc 0 1

/-- All scores of a path's risk lie in the unit interval. -/
structure RiskWeight.InUnit (w : RiskWeight K) : Prop where
  total : w.total ∈ Set.Icc 0 1
  architectural : w.architectural ∈ Set.Icc 0 1
  blastRadius : w.blastRadius ∈ Set.Icc 0 1
  changeComplexity : w.changeComplexity ∈ Set.Icc 0 1
  dataFlow : w.dataFlow ∈ Set.Icc 0 1
  confidence : w.confidence ∈ Set.Icc 0 1

/-- All scores of a method's intent lie in the unit interval. -/
structure MethodIntent.InUnit (w : MethodIntent K) : Prop where
  weight : w.weight ∈ Set.Icc 0 1
  business : w.business ∈ Set.Icc 0 1
  completeness : w.completeness ∈ Set.Icc 0 1
  quality : w.quality ∈ Set.Icc 0 1
  confidence : w.confidence ∈ Set.Icc 0 1

/-- All scores of a method's risk lie in the unit interval. -/
structure MethodRisk.InUnit (w : MethodRisk K) : Prop where
  total : w.total ∈ Set.Icc 0 1
  architectural : w.architectural ∈ Set.Icc 0 1
  complexity : w.complexity ∈ Set.Icc 0 1
  dependency : w.dependency ∈ Set.Icc 0 1
  changeHistory : w.changeHistory ∈ Set.Icc 0 1
  criticality : w.criticality ∈ Set.Icc 0 1

end InUnit

variable {K : Type} [Field K] [LinearOrder K] [IsStrictOrderedRing K] [Decades K]

/-- A complexity is never negative, whoever made the method. -/
theorem Scalar.measured_complexity_nonneg (m : Method) :
    0 ≤ (measured m.complexity.toJson : Id K).run :=
  measured_nonneg m.complexity.value_nonneg

/-! ## Intent -/

namespace Intent

theorem confidence_mem_unit (methods : List Method) (historySize : Nat) :
    (confidence methods historySize : Id K).run ∈ Set.Icc 0 1 := by
  apply mean_mem_unit
  rw [List.forall_mem_cons, List.forall_mem_cons, List.forall_mem_singleton]
  refine ⟨?_, ?_, ?_⟩
  · exact capped_mem_unit (quotient_nonneg methods.length 5)
  · exact capped_mem_unit (quotient_nonneg historySize 50)
  · exact meanOf_mem_unit Method.isTested (hundredths_mem_unit (by decide)) methods

theorem weigh_inUnit (known : String → String → Bool) (p : CallPath) (history : List Commit) :
    (weigh known p history : Id (IntentWeight K)).run.InUnit where
  total := unit_mem_unit _
  business := unit_mem_unit _
  completeness := unit_mem_unit _
  quality := unit_mem_unit _
  confidence := confidence_mem_unit p.methods history.length

/-- Raising a number that is not negative keeps it so. -/
theorem raised_nonneg (n : Nat) (condition : Id Bool) {c : Id K} (hc : 0 ≤ c.run) :
    0 ≤ (raised n condition c).run := by
  unfold raised
  rw [Id.run_bind, Id.run_bind]
  split
  · exact add_nonneg_run hc (hundredths_nonneg n)
  · exact hc

theorem methodConfidence_mem_unit (method : Method) :
    (methodConfidence method : Id K).run ∈ Set.Icc 0 1 := by
  apply capped_mem_unit
  apply raised_nonneg
  apply raised_nonneg
  apply raised_nonneg
  apply raised_nonneg
  exact hundredths_nonneg 50

theorem weighMethod_inUnit (method : Method) (history : List Commit) :
    (weighMethod method history : Id (MethodIntent K)).run.InUnit where
  weight := unit_mem_unit _
  business := unit_mem_unit _
  completeness := unit_mem_unit _
  quality := grade_mem_unit (by decide) (by decide) _
  confidence := methodConfidence_mem_unit method

end Intent

/-! ## Risk -/

namespace Risk

theorem confidence_mem_unit (methods : List Method) (changedCount : Nat) :
    (confidence methods changedCount : Id K).run ∈ Set.Icc 0 1 := by
  apply mean_mem_unit
  rw [List.forall_mem_cons, List.forall_mem_cons, List.forall_mem_singleton]
  refine ⟨?_, ?_, ?_⟩
  · exact capped_mem_unit (quotient_nonneg methods.length 10)
  · exact capped_mem_unit (quotient_nonneg changedCount 5)
  · exact meanOf_mem_unit _ (hundredths_mem_unit (by decide)) methods

/-- The impact of a changed method is not negative, because its reach among callers is not. -/
theorem impact_mem_unit (hdecades : ∀ n : K, 0 ≤ n → 0 ≤ Decades.decades n) {method : Method}
    (hm : method.Counted) : (impact method : Id K).run ∈ Set.Icc 0 1 := by
  have hreach : 0 ≤ (decadesOf method.inDegree : Id K).run :=
    hdecades _ (measured_nonneg hm.inDegree)
  have hcomplexity : 0 ≤ (measured method.complexity.toJson / whole 10 : Id K).run :=
    div_whole_nonneg 10 (measured_complexity_nonneg method)
  have hcallees : 0 ≤ (measured method.outDegree / whole 5 : Id K).run :=
    div_whole_nonneg 5 (measured_nonneg hm.outDegree)
  have hstructural := capped_mem_unit (div_whole_nonneg 2 (add_nonneg_run hcomplexity hcallees))
  exact capped_mem_unit (add_nonneg_run hreach (hundredths_mul_nonneg 50 hstructural.1))

section Changed

variable {changed : List Method} (hcounted : ∀ m ∈ changed, m.Counted)

include hcounted

/-- The mean impact is capped; it is not negative because decades of counts are not. -/
theorem blastRadius_mem_unit (hdecades : ∀ n : K, 0 ≤ n → 0 ≤ Decades.decades n) :
    (blastRadius changed : Id K).run ∈ Set.Icc 0 1 := by
  unfold blastRadius
  split
  · exact zero_mem_unit
  · have hmean : (mean (changed.map impact) : Id K).run ∈ Set.Icc 0 1 :=
      mean_map_mem_unit fun m hm => impact_mem_unit hdecades (hcounted m hm)
    exact capped_mem_unit hmean.1

/-- A mean of four capped parts, or zero if nothing changed. -/
theorem changeComplexity_mem_unit (pathLength : Nat) :
    (changeComplexity changed pathLength : Id K).run ∈ Set.Icc 0 1 := by
  have hcomplexity : 0 ≤ (mean (changed.map fun m => measured m.complexity.toJson) : Id K).run :=
    mean_map_nonneg fun m _ => measured_complexity_nonneg m
  have hlines : 0 ≤ (mean (changed.map fun m => measured m.linesOfCode) : Id K).run :=
    mean_map_nonneg fun m hm => measured_nonneg (hcounted m hm).linesOfCode
  have hparams : 0 ≤ (mean (changed.map fun m => Scalar.sizeOf m.paramTypes) : Id K).run :=
    mean_map_nonneg fun m _ => sizeOf_nonneg m.paramTypes
  unfold changeComplexity
  split
  · exact zero_mem_unit
  · apply mean_mem_unit
    rw [List.forall_mem_cons, List.forall_mem_cons, List.forall_mem_cons, List.forall_mem_singleton]
    refine ⟨?_, ?_, ?_, ?_⟩
    · exact capped_mem_unit (div_whole_nonneg 20 hcomplexity)
    · exact capped_mem_unit (div_whole_nonneg 100 hlines)
    · exact capped_mem_unit (div_whole_nonneg 10 hparams)
    · exact capped_mem_unit (quotient_nonneg pathLength 10)

end Changed

theorem weigh_inUnit (hdecades : ∀ n : K, 0 ≤ n → 0 ≤ Decades.decades n) {p : CallPath}
    (hcounted : ∀ m ∈ p.methods, m.Counted) (known : String → String → Bool)
    (changed : List String) : (weigh known p changed : Id (RiskWeight K)).run.InUnit := by
  have honPath : ∀ m ∈ changedOn changed [] p.methods, m.Counted :=
    fun m hm => hcounted m (mem_changedOn hm).1
  constructor
  · exact unit_mem_unit _
  · exact unit_mem_unit _
  · exact blastRadius_mem_unit honPath hdecades
  · exact changeComplexity_mem_unit honPath p.methods.length
  · exact unit_mem_unit _
  · exact confidence_mem_unit p.methods changed.eraseDups.length

theorem raised_nonneg (n : Nat) (condition : Bool) {risk : Id K} (hrisk : 0 ≤ risk.run) :
    0 ≤ (raised n condition risk).run := by
  unfold raised
  split
  · exact add_nonneg_run hrisk (hundredths_nonneg n)
  · exact hrisk

/-- The risk by history starts from a constant and is capped. -/
theorem historyRisk_mem_unit (method : Method) (past : Option ProjectHistory) :
    (historyRisk method past : Id K).run ∈ Set.Icc 0 1 := by
  cases past with
  | none => exact hundredths_mem_unit (by decide)
  | some history =>
    apply capped_mem_unit
    apply raised_nonneg
    apply raised_nonneg
    exact hundredths_nonneg 20

/-- A mean of two grades, so the measures may be anything. -/
theorem methodComplexity_mem_unit (method : Method) :
    (methodComplexity method : Id K).run ∈ Set.Icc 0 1 := by
  apply mean_mem_unit
  rw [List.forall_mem_cons, List.forall_mem_singleton]
  exact ⟨grade_mem_unit (by decide) (by decide) _, grade_mem_unit (by decide) (by decide) _⟩

section Method

variable {method : Method} (hm : method.Counted)

include hm

/-- Half the sum of two capped parts, neither of which is negative for counts. -/
theorem methodDependency_mem_unit : (methodDependency method : Id K).run ∈ Set.Icc 0 1 := by
  apply half_mem_unit
  · exact capped_mem_unit (div_whole_nonneg 10 (measured_nonneg hm.inDegree))
  · exact capped_mem_unit (div_whole_nonneg 8 (measured_nonneg hm.outDegree))

/-- A capped mean of four parts, none of which is negative for counts. -/
theorem criticality_mem_unit : (criticality method : Id K).run ∈ Set.Icc 0 1 := by
  apply capped_mem_unit
  apply mean_nonneg
  rw [List.forall_mem_cons, List.forall_mem_cons, List.forall_mem_cons, List.forall_mem_singleton]
  refine ⟨?_, ?_, ?_, ?_⟩
  · exact div_whole_nonneg 10 (measured_nonneg hm.inDegree)
  · split
    · exact one_mem_unit.1
    · exact hundredths_nonneg 50
  · exact div_whole_nonneg 20 (measured_complexity_nonneg method)
  · split
    · exact hundredths_nonneg 20
    · exact hundredths_nonneg 80

theorem weighMethod_inUnit (past : Option ProjectHistory) :
    (weighMethod method past : Id (MethodRisk K)).run.InUnit where
  total := unit_mem_unit _
  architectural := unit_mem_unit _
  complexity := methodComplexity_mem_unit method
  dependency := methodDependency_mem_unit hm
  changeHistory := historyRisk_mem_unit method past
  criticality := criticality_mem_unit hm

end Method

end Risk

/-! ## Paths and methods -/

/-- The combined confidence is a third of three numbers of the unit interval. -/
theorem Verdict.confidence_mem_unit (p : CallPath) {intent : IntentWeight K}
    (hintent : intent.InUnit)
    {risk : RiskWeight K} (hrisk : risk.InUnit) :
    (Verdict.confidence p intent risk : Id K).run ∈ Set.Icc 0 1 := by
  obtain ⟨hlength₀, hlength₁⟩ := capped_mem_unit (quotient_nonneg (K := K) p.methods.length 10)
  obtain ⟨hintent₀, hintent₁⟩ := hintent.confidence
  obtain ⟨hrisk₀, hrisk₁⟩ := hrisk.confidence
  rw [Verdict.confidence, run_div, run_add, run_add, Id.run_pure, Id.run_pure, run_whole,
    Int.cast_ofNat]
  constructor
  · positivity
  · linarith

/-- **Scores stay in the unit interval.** In exact arithmetic, with any function in the place of the
    logarithm that is not negative on counts: for every path whose methods have counts that are not
    negative, all scores of its intent and its risk and the combined confidence lie between zero and
    one, whatever the history, the changed methods and the known calls are. The same holds of all
    scores of a single method, whatever is known about the past. -/
theorem scores_mem_unit (hdecades : ∀ n : K, 0 ≤ n → 0 ≤ Decades.decades n) :
    (∀ p : CallPath, (∀ m ∈ p.methods, m.Counted) →
      ∀ (known : String → String → Bool) (history : List Commit) (changed : List String),
        let intent := (Intent.weigh known p history : Id (IntentWeight K)).run
        let risk := (Risk.weigh known p changed : Id (RiskWeight K)).run
        intent.InUnit ∧ risk.InUnit ∧
          (Verdict.confidence p intent risk : Id K).run ∈ Set.Icc 0 1) ∧
    (∀ m : Method, m.Counted → ∀ (history : List Commit) (past : Option ProjectHistory),
        (Intent.weighMethod m history : Id (MethodIntent K)).run.InUnit ∧
          (Risk.weighMethod m past : Id (MethodRisk K)).run.InUnit) := by
  constructor
  · intro p hcounted known history changed intent risk
    have hintent : intent.InUnit := Intent.weigh_inUnit known p history
    have hrisk : risk.InUnit := Risk.weigh_inUnit hdecades hcounted known changed
    exact ⟨hintent, hrisk, Verdict.confidence_mem_unit p hintent hrisk⟩
  · intro m hm history past
    exact ⟨Intent.weighMethod_inUnit m history, Risk.weighMethod_inUnit hm past⟩

/-- A controller that calls a long and complex service with many callers and callees. -/
def crowdedPath : CallPath where
  id := "p"
  methods :=
    [{ id := "a", name := "a", layer := .controller, outDegree := .ofInt 3 },
     { id := "b", name := "b", layer := .service, inDegree := .ofInt 40, outDegree := .ofInt 12
       complexity := .ofNumber (.int 30), linesOfCode := .ofInt 900 }]
  slots := [some { caller := "a", callee := "b" }]
  slots_length := rfl

theorem crowdedPath_counted : ∀ m ∈ crowdedPath.methods, m.Counted := by
  simp only [crowdedPath, List.forall_mem_cons]
  exact ⟨⟨by decide, by decide, by decide⟩, ⟨by decide, by decide, by decide⟩, nofun⟩

/-- Measures far beyond every bound, by the logarithm itself. -/
theorem scores_mem_unit_crowdedPath :
    (∀ n : ℝ, 0 ≤ n → 0 ≤ Decades.decades n) ∧ (∀ m ∈ crowdedPath.methods, m.Counted) ∧
      (Intent.weigh (fun _ _ => true) crowdedPath [] : Id (IntentWeight ℝ)).run.InUnit ∧
      (Risk.weigh (fun _ _ => true) crowdedPath ["b"] : Id (RiskWeight ℝ)).run.InUnit ∧
      ∀ m ∈ crowdedPath.methods, (Risk.weighMethod m none : Id (MethodRisk ℝ)).run.InUnit := by
  obtain ⟨hpath, hmethod⟩ := scores_mem_unit fun _ hn => Decades.logarithm_nonneg hn
  obtain ⟨hintent, hrisk, -⟩ := hpath crowdedPath crowdedPath_counted (fun _ _ => true) [] ["b"]
  exact ⟨fun _ hn => Decades.logarithm_nonneg hn, crowdedPath_counted, hintent, hrisk, fun m hm =>
    (hmethod m (crowdedPath_counted m hm) [] none).2⟩

end PathTriage
