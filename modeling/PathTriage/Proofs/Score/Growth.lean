import PathTriage.Proofs.Score.Exact
import PathTriage.Proofs.Score.Outline

/-!
Risk grows with what makes code risky.

A method grows when its measures do: callers, callees, complexity, lines or parameters. A path grows
when its methods do, hop by hop. In exact arithmetic, no part of the risk of a path gets lower when
the path grows, and neither does the risk of a method, as long as its file does not stop being one
that changes often. The argument follows the formulas: means, maxima, caps and bands go up with what
they are made of.
-/

namespace PathTriage

open Scalar

/-! ## Growth -/

/-- The same method with measures at least as high. -/
structure Method.Grows (m m' : Method) : Prop where
  id : m'.id = m.id
  name : m'.name = m.name
  layer : m'.layer = m.layer
  annotations : m'.annotations = m.annotations
  inDegree_nonneg : 0 ≤ m.inDegree.value
  inDegree : m.inDegree.value ≤ m'.inDegree.value
  outDegree : m.outDegree.value ≤ m'.outDegree.value
  complexity : m.complexity.toJson.value ≤ m'.complexity.toJson.value
  linesOfCode : m.linesOfCode.value ≤ m'.linesOfCode.value
  paramCount : m.paramTypes.size ≤ m'.paramTypes.size

/-- The same path over methods with measures at least as high. -/
structure CallPath.Grows (p p' : CallPath) : Prop where
  methods : List.Forall₂ Method.Grows p.methods p'.methods
  slots : p'.slots = p.slots

theorem Method.Grows.outline {m m' : Method} (h : m.Grows m') : m'.outline = m.outline := by
  unfold Method.outline
  rw [h.id, h.name, h.layer, h.annotations]

theorem CallPath.Grows.outline {p p' : CallPath} (h : p.Grows p') : p'.outline = p.outline :=
  CallPath.outline_eq (map_eq_of_forall₂ h.methods fun _ _ hm => hm.outline) h.slots

variable {K : Type} [Field K] [LinearOrder K] [IsStrictOrderedRing K] [Decades K]

namespace Risk

/-! ## Architectural risk -/

section Methods

variable {methods methods' : List Method}

theorem maxInDegree_mono (h : List.Forall₂ (fun m m' => m.inDegree.value ≤ m'.inDegree.value)
    methods methods') : (maxInDegree methods : Id K).run ≤ (maxInDegree methods' : Id K).run := by
  cases h with
  | nil => exact le_refl _
  | cons hfirst hrest =>
    refine largest_mono (.cons (Rat.cast_le.2 hfirst) ?_)
    rw [List.forall₂_map_left_iff, List.forall₂_map_right_iff]
    exact hrest.imp fun _ _ hm => Rat.cast_le.2 hm

omit [IsStrictOrderedRing K] in
theorem le_maxInDegree {m : Method} (hm : m ∈ methods) :
    (m.inDegree.value : K) ≤ (maxInDegree methods : Id K).run := by
  cases methods with
  | nil => simp at hm
  | cons first rest =>
    exact le_largest (List.mem_map_of_mem (f := fun m => (given m.inDegree : K)) hm)

/-- Whether a method is a hub, by its number of callers. -/
theorem run_isHub (m : Method) : (isHub K m).run = decide (5 < m.inDegree.value) := by
  have hcast : ((5 : Int) : K) < (m.inDegree.value : K) ↔ 5 < m.inDegree.value := by
    rw [Int.cast_ofNat]
    exact_mod_cast Iff.rfl
  change decide (((5 : Int) : K) < (m.inDegree.value : K)) = _
  exact decide_eq_decide.2 hcast

/-- The number of hubs. -/
def hubCount (methods : List Method) : Nat := methods.countP fun m => decide (5 < m.inDegree.value)

theorem hubCount_mono (h : List.Forall₂ (fun m m' => m.inDegree.value ≤ m'.inDegree.value)
    methods methods') : hubCount methods ≤ hubCount methods' := by
  apply countP_le_of_forall₂ h
  intro m m' hm hhub
  rw [decide_eq_true_eq] at hhub ⊢
  exact hhub.trans_le hm

theorem run_singlePoint (methods : List Method) :
    (singlePoint methods : Id K).run =
      if hubCount methods = 0 then 0
      else ((hubCount methods : K) / methods.length +
        min 1 ((maxInDegree methods : Id K).run / 20)) / 2 := by
  have hlength : ((Condition.select (isHub K) methods).run).length = hubCount methods := by
    rw [Condition.run_select, hubCount, List.countP_eq_length_filter]
    simp only [run_isHub]
  have hempty : (Condition.select (isHub K) methods).run.isEmpty = true ↔ hubCount methods = 0 := by
    rw [List.isEmpty_iff_length_eq_zero, hlength]
  unfold singlePoint
  rw [Id.run_bind]
  by_cases hnone : hubCount methods = 0
  · rw [if_pos hnone, if_pos (hempty.2 hnone), run_zero]
  · rw [if_neg hnone, if_neg (mt hempty.1 hnone), hlength]
    change ((quotient (hubCount methods) methods.length + capped (maxInDegree methods / whole 20)) /
      whole 2 : Id K).run = _
    rw [run_div, run_add, run_quotient, run_capped, run_div, run_whole, run_whole, Int.cast_ofNat,
      Int.cast_ofNat]

/-- Without hubs there is no single point of failure; with them, the height of the highest one
    counts as well, which is never negative. -/
theorem singlePoint_mono (h : List.Forall₂ (fun m m' => m.inDegree.value ≤ m'.inDegree.value)
    methods methods') : (singlePoint methods : Id K).run ≤ (singlePoint methods' : Id K).run := by
  have hcount := hubCount_mono h
  rw [run_singlePoint, run_singlePoint]
  by_cases hnone' : hubCount methods' = 0
  · rw [if_pos hnone', if_pos (by omega)]
  · rw [if_neg hnone']
    split
    · obtain ⟨m, hm, hhub⟩ := List.countP_pos_iff.1 (Nat.pos_of_ne_zero hnone')
      rw [decide_eq_true_eq] at hhub
      have hfive : (0 : K) ≤ m.inDegree.value := by
        exact_mod_cast (by linarith : 0 ≤ m.inDegree.value)
      have hheight := hfive.trans (le_maxInDegree hm)
      positivity
    · have hheight := maxInDegree_mono (K := K) h
      have hcount : (hubCount methods : K) ≤ hubCount methods' := by exact_mod_cast hcount
      rw [h.length_eq]
      gcongr

end Methods

section Path

variable {p p' : CallPath} (houtline : p'.outline = p.outline)

include houtline

/-- The density of resolved calls is a matter of outlines, so coupling follows the callees alone. -/
theorem coupling_mono (hout : List.Forall₂ (fun m m' => m.outDegree.value ≤ m'.outDegree.value)
    p.methods p'.methods) (known : String → String → Bool) :
    (coupling known p : Id K).run ≤ (coupling known p' : Id K).run := by
  have hlength := hout.length_eq
  have hcalls : p'.resolvedCalls known = p.resolvedCalls known := by
    rw [← p'.resolvedCalls_outline, houtline, p.resolvedCalls_outline]
  have haverage : (mean (p.methods.map fun m => measured m.outDegree) : Id K).run ≤
      (mean (p'.methods.map fun m => measured m.outDegree) : Id K).run :=
    mean_map_mono hout fun _ _ hm => measured_mono hm
  unfold coupling
  rw [← hlength, hcalls]
  dsimp only
  split
  · exact le_refl _
  · exact div_whole_mono 2 (add_mono (capped_mono (div_whole_mono 10 haverage)) (le_refl _))

/-- Architectural risk follows the callers and callees of the methods upwards. -/
theorem architectural_mono
    (hin : List.Forall₂ (fun m m' => m.inDegree.value ≤ m'.inDegree.value) p.methods p'.methods)
    (hout : List.Forall₂ (fun m m' => m.outDegree.value ≤ m'.outDegree.value) p.methods p'.methods)
    (known : String → String → Bool) :
    (architectural known p : Id K).run ≤ (architectural known p' : Id K).run := by
  have hmethods := CallPath.map_outline_eq houtline
  have hcross : (crossLayer p'.methods : Id K) = crossLayer p.methods := by
    rw [← crossLayer_outline, hmethods, crossLayer_outline]
  have hcircular : (circular p'.methods : Id K) = circular p.methods := by
    rw [← circular_outline, hmethods, circular_outline]
  have hcoupling := hundredths_mul_mono 25 (coupling_mono (K := K) houtline hout known)
  have hpoint := hundredths_mul_mono 20 (singlePoint_mono (K := K) hin)
  unfold architectural
  rw [hcross, hcircular]
  exact unit_mono (add_mono (add_mono (le_refl _) hcoupling) hpoint)

end Path

/-! ## Changed methods -/

section Changed

variable {changed changed' : List Method} (h : List.Forall₂ Method.Grows changed changed')

theorem impact_mono (hdecades : MonotoneOn Decades.decades (Set.Ici (0 : K))) {m m' : Method}
    (hm : m.Grows m') : (impact m : Id K).run ≤ (impact m' : Id K).run := by
  have hreach : (decadesOf m.inDegree : Id K).run ≤ (decadesOf m'.inDegree : Id K).run := by
    have hle : (m.inDegree.value : K) ≤ m'.inDegree.value := measured_mono hm.inDegree
    have hnonneg : (0 : K) ≤ m.inDegree.value := measured_nonneg hm.inDegree_nonneg
    exact hdecades hnonneg (hnonneg.trans hle) hle
  have hcomplexity : (measured m.complexity.toJson / whole 10 : Id K).run ≤
      (measured m'.complexity.toJson / whole 10 : Id K).run :=
    div_whole_mono 10 (measured_mono hm.complexity)
  have hcallees : (measured m.outDegree / whole 5 : Id K).run ≤
      (measured m'.outDegree / whole 5 : Id K).run :=
    div_whole_mono 5 (measured_mono hm.outDegree)
  have hstructural := capped_mono (div_whole_mono 2 (add_mono hcomplexity hcallees))
  exact capped_mono (add_mono hreach (hundredths_mul_mono 50 hstructural))

include h

theorem blastRadius_mono (hdecades : MonotoneOn Decades.decades (Set.Ici (0 : K))) :
    (blastRadius changed : Id K).run ≤ (blastRadius changed' : Id K).run := by
  unfold blastRadius
  rw [isEmpty_of_forall₂ h]
  split
  · exact le_refl _
  · exact capped_mono (mean_map_mono h fun _ _ hm => impact_mono hdecades hm)

theorem changeComplexity_mono (pathLength : Nat) :
    (changeComplexity changed pathLength : Id K).run ≤
      (changeComplexity changed' pathLength : Id K).run := by
  have hcomplexity : (mean (changed.map fun m => measured m.complexity.toJson) : Id K).run ≤
      (mean (changed'.map fun m => measured m.complexity.toJson) : Id K).run :=
    mean_map_mono h fun _ _ hm => measured_mono hm.complexity
  have hlines : (mean (changed.map fun m => measured m.linesOfCode) : Id K).run ≤
      (mean (changed'.map fun m => measured m.linesOfCode) : Id K).run :=
    mean_map_mono h fun _ _ hm => measured_mono hm.linesOfCode
  have hparams : (mean (changed.map fun m => Scalar.sizeOf m.paramTypes) : Id K).run ≤
      (mean (changed'.map fun m => Scalar.sizeOf m.paramTypes) : Id K).run :=
    mean_map_mono h fun _ _ hm => sizeOf_mono hm.paramCount
  unfold changeComplexity
  rw [isEmpty_of_forall₂ h]
  split
  · exact le_refl _
  · apply mean_mono
    refine .cons ?_ (.cons ?_ (.cons ?_ (.cons (le_refl _) .nil)))
    · exact capped_mono (div_whole_mono 20 hcomplexity)
    · exact capped_mono (div_whole_mono 100 hlines)
    · exact capped_mono (div_whole_mono 10 hparams)

end Changed

/-! ## Single methods -/

theorem methodComplexity_mono {m m' : Method} (hm : m.Grows m') :
    (methodComplexity m : Id K).run ≤ (methodComplexity m' : Id K).run := by
  apply mean_mono
  refine .cons ?_ (.cons ?_ .nil)
  · exact grade_mono (by decide) (measured_mono hm.complexity)
  · exact grade_mono (by decide) (measured_mono hm.linesOfCode)

theorem methodDependency_mono {m m' : Method} (hm : m.Grows m') :
    (methodDependency m : Id K).run ≤ (methodDependency m' : Id K).run := by
  have hcallers := capped_mono (div_whole_mono (K := K) 10 (measured_mono hm.inDegree))
  have hcallees := capped_mono (div_whole_mono (K := K) 8 (measured_mono hm.outDegree))
  exact div_whole_mono 2 (add_mono hcallers hcallees)

theorem raised_mono (n : Nat) {condition condition' : Bool} (hcondition : condition → condition')
    {risk risk' : Id K} (hrisk : risk.run ≤ risk'.run) :
    (raised n condition risk).run ≤ (raised n condition' risk').run := by
  unfold raised
  by_cases hholds : condition = true
  · rw [if_pos hholds, if_pos (hcondition hholds)]
    exact add_mono hrisk (le_refl _)
  · rw [if_neg hholds]
    split
    · rw [run_add]
      exact hrisk.trans (le_add_of_nonneg_right (hundredths_nonneg n))
    · exact hrisk

/-- What the past says about a method depends on its id, which stays, and on its file. -/
theorem historyRisk_mono {m m' : Method} (hm : m.Grows m') {past : Option ProjectHistory}
    (hfile : ∀ history ∈ past, history.frequentFiles.any m.isIn →
      history.frequentFiles.any m'.isIn) :
    (historyRisk m past : Id K).run ≤ (historyRisk m' past : Id K).run := by
  cases past with
  | none => exact le_refl _
  | some history =>
    have hspot : history.hotspotMethods.contains m.id → history.hotspotMethods.contains m'.id := by
      rw [hm.id]
      exact id
    exact capped_mono (raised_mono 40 (hfile history rfl) (raised_mono 40 hspot (le_refl _)))

end Risk

/-! ## Paths and methods -/

/-- **Risk grows with what makes code risky.** In exact arithmetic, with any function in the place
    of the logarithm that does not fall on counts: when a path grows, its architectural risk, its
    blast radius, its change complexity and its total risk do not get lower, whatever is known and
    changed. When a method grows, its total risk does not get lower, whatever the past of the
    project is, provided that its file does not change less often by it. -/
theorem risk_mono_of_grows (hdecades : MonotoneOn Decades.decades (Set.Ici (0 : K))) :
    (∀ p p' : CallPath, p.Grows p' → ∀ (known : String → String → Bool) (changed : List String),
      let risk := (Risk.weigh known p changed : Id (RiskWeight K)).run
      let risk' := (Risk.weigh known p' changed : Id (RiskWeight K)).run
      risk.architectural ≤ risk'.architectural ∧ risk.blastRadius ≤ risk'.blastRadius ∧
        risk.changeComplexity ≤ risk'.changeComplexity ∧ risk.total ≤ risk'.total) ∧
    (∀ m m' : Method, m.Grows m' → ∀ past : Option ProjectHistory,
      (∀ history ∈ past, history.frequentFiles.any m.isIn → history.frequentFiles.any m'.isIn) →
        (Risk.weighMethod m past : Id (MethodRisk K)).run.total ≤
          (Risk.weighMethod m' past : Id (MethodRisk K)).run.total) := by
  constructor
  · intro p p' h known changed risk risk'
    have honPath := Risk.forall₂_changedOn (fun _ _ hm => hm.id) h.methods changed []
    have harchitectural : (Risk.architectural known p : Id K).run ≤
        (Risk.architectural known p' : Id K).run :=
      Risk.architectural_mono h.outline (h.methods.imp fun _ _ hm => hm.inDegree)
        (h.methods.imp fun _ _ hm => hm.outDegree) known
    have hblast := Risk.blastRadius_mono honPath hdecades
    have hcomplexity :
        (Risk.changeComplexity (Risk.changedOn changed [] p.methods) p.methods.length : Id K).run ≤
          (Risk.changeComplexity (Risk.changedOn changed [] p'.methods) p'.methods.length :
            Id K).run := by
      rw [← h.methods.length_eq]
      exact Risk.changeComplexity_mono honPath p.methods.length
    -- data flow is read off outlines, which a path keeps when it grows
    have hflow : (Risk.dataFlow p.methods : Id K).run ≤ (Risk.dataFlow p'.methods : Id K).run := by
      rw [← Risk.dataFlow_outline p'.methods, CallPath.map_outline_eq h.outline,
        Risk.dataFlow_outline]
    refine ⟨harchitectural, hblast, hcomplexity, ?_⟩
    exact unit_mono (add_mono (add_mono (add_mono (hundredths_mul_mono 35 harchitectural)
      (hundredths_mul_mono 30 hblast)) (hundredths_mul_mono 25 hcomplexity))
      (hundredths_mul_mono 10 hflow))
  · intro m m' hm past hfile
    have harchitectural : (Risk.methodArchitectural m : Id K).run ≤
        (Risk.methodArchitectural m' : Id K).run := by
      rw [← Risk.methodArchitectural_outline m', hm.outline, Risk.methodArchitectural_outline]
    have hcomplexity := Risk.methodComplexity_mono (K := K) hm
    have hdependency := Risk.methodDependency_mono (K := K) hm
    have hhistory := Risk.historyRisk_mono (K := K) hm hfile
    exact unit_mono (add_mono (add_mono (add_mono (hundredths_mul_mono 30 harchitectural)
      (hundredths_mul_mono 25 hcomplexity)) (hundredths_mul_mono 25 hdependency))
      (hundredths_mul_mono 20 hhistory))

/-- A controller that calls a service. -/
def quietPath : CallPath where
  id := "p"
  methods :=
    [{ id := "shop.Desk#open()", name := "open", layer := .controller },
     { id := "shop.Till#sell(Item)", name := "sell", layer := .service, inDegree := .ofInt 5
       linesOfCode := .ofInt 12, paramTypes := .ofStrings ["Item"] }]
  slots := [some { caller := "shop.Desk#open()", callee := "shop.Till#sell(Item)" }]
  slots_length := rfl

/-- The same path after the service has got callers, lines and a parameter. -/
def busyPath : CallPath where
  id := "p"
  methods :=
    [{ id := "shop.Desk#open()", name := "open", layer := .controller, outDegree := .ofInt 2 },
     { id := "shop.Till#sell(Item)", name := "sell", layer := .service, inDegree := .ofInt 9
       complexity := .ofNumber (.int 11), linesOfCode := .ofInt 80
       paramTypes := .ofStrings ["Item", "Price"], filePath := .string "till" }]
  slots := [some { caller := "shop.Desk#open()", callee := "shop.Till#sell(Item)" }]
  slots_length := rfl

theorem quietPath_grows : quietPath.Grows busyPath where
  methods :=
    .cons ⟨rfl, rfl, rfl, rfl, by decide, by decide, by decide, by decide, by decide, by decide⟩
      (.cons ⟨rfl, rfl, rfl, rfl, by decide, by decide, by decide, by decide, by decide, by decide⟩
        .nil)
  slots := rfl

/-- The growth of a path whose service becomes a hub, by the logarithm itself. -/
theorem risk_mono_of_grows_busyPath :
    MonotoneOn Decades.decades (Set.Ici (0 : ℝ)) ∧ quietPath.Grows busyPath ∧
      (Risk.weigh (fun _ _ => true) quietPath ["shop.Till#sell(Item)"] :
          Id (RiskWeight ℝ)).run.total ≤
        (Risk.weigh (fun _ _ => true) busyPath ["shop.Till#sell(Item)"] :
          Id (RiskWeight ℝ)).run.total ∧
      ∀ m m' : Method, m.Grows m' →
        (Risk.weighMethod m none : Id (MethodRisk ℝ)).run.total ≤
          (Risk.weighMethod m' none : Id (MethodRisk ℝ)).run.total := by
  obtain ⟨hpath, hmethod⟩ := risk_mono_of_grows Decades.logarithm_monotoneOn
  have htotal := (hpath quietPath busyPath quietPath_grows (fun _ _ => true)
    ["shop.Till#sell(Item)"]).2.2.2
  exact ⟨Decades.logarithm_monotoneOn, quietPath_grows, htotal, fun m m' hm =>
    hmethod m m' hm none nofun⟩

/-- A method of a file that changes often. -/
def frequentMethod : Method := { id := "a", name := "a", filePath := .string "hot" }

/-- The same method in another file. -/
def movedMethod : Method := { id := "a", name := "a", filePath := .string "cold" }

/-- A project one of whose files changes often. -/
def unevenPast : ProjectHistory := { frequentFiles := ["hot"] }

/-- What counts towards the risk of the method apart from its past. -/
theorem frequentMethod_parts :
    (hundredths 30 * Risk.methodArchitectural frequentMethod
      + hundredths 25 * Risk.methodComplexity frequentMethod
      + hundredths 25 * Risk.methodDependency frequentMethod : Id ℝ).run = 7 / 100 := by
  have harchitectural : (Risk.methodArchitectural frequentMethod : Id ℝ).run = 15 / 100 := by
    change (unit (hundredths 30 * hundredths 50 + zero) : Id ℝ).run = _
    simp only [run_unit, run_add, run_mul, run_hundredths, run_zero]
    norm_num
  have hcomplexity : (Risk.methodComplexity frequentMethod : Id ℝ).run = 10 / 100 := by
    have hone : (measured frequentMethod.complexity.toJson : Id ℝ).run = 1 := Rat.cast_one
    have hnone : (measured frequentMethod.linesOfCode : Id ℝ).run = 0 := Rat.cast_zero
    simp [Risk.methodComplexity, run_grade_cons, hone, hnone]
  have hdependency : (Risk.methodDependency frequentMethod : Id ℝ).run = 0 := by
    change ((capped (whole 0 / whole 10) + capped (whole 0 / whole 8)) / whole 2 : Id ℝ).run = _
    simp
  simp only [run_add, run_mul, run_hundredths, harchitectural, hcomplexity, hdependency]
  norm_num

/-- Without the proviso on files the risk of a method can get lower: no measure of the method falls,
    but it has left the file that changes often. -/
theorem moved_method_loses_risk :
    frequentMethod.Grows movedMethod ∧
      (Risk.weighMethod movedMethod (some unevenPast) : Id (MethodRisk ℝ)).run.total <
        (Risk.weighMethod frequentMethod (some unevenPast) : Id (MethodRisk ℝ)).run.total := by
  have hfrequent : (Risk.historyRisk frequentMethod (some unevenPast) : Id ℝ).run = 60 / 100 := by
    change (capped (hundredths 20 + hundredths 40) : Id ℝ).run = _
    simp only [run_capped, run_add, run_hundredths]
    norm_num
  have hmoved : (Risk.historyRisk movedMethod (some unevenPast) : Id ℝ).run = 20 / 100 := by
    change (capped (hundredths 20) : Id ℝ).run = _
    simp only [run_capped, run_hundredths]
    norm_num
  refine ⟨⟨rfl, rfl, rfl, rfl, by decide, by decide, by decide, by decide, by decide,
    by decide⟩, ?_⟩
  -- the parts other than the past are the same for both methods
  change (unit (hundredths 30 * Risk.methodArchitectural frequentMethod
      + hundredths 25 * Risk.methodComplexity frequentMethod
      + hundredths 25 * Risk.methodDependency frequentMethod
      + hundredths 20 * Risk.historyRisk movedMethod (some unevenPast)) : Id ℝ).run <
    (unit (hundredths 30 * Risk.methodArchitectural frequentMethod
      + hundredths 25 * Risk.methodComplexity frequentMethod
      + hundredths 25 * Risk.methodDependency frequentMethod
      + hundredths 20 * Risk.historyRisk frequentMethod (some unevenPast)) : Id ℝ).run
  rw [run_unit, run_unit, run_add _ (hundredths 20 * _), run_add _ (hundredths 20 * _),
    frequentMethod_parts, run_mul, run_mul, hfrequent, hmoved, run_hundredths]
  norm_num

end PathTriage
