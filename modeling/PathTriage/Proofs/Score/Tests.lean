import PathTriage.Proofs.Score.Growth
import PathTriage.Proofs.Verdict

/-!
Tests never hurt.

Tests are added to some methods of a path, which stays the same otherwise. No score of its risk
looks at tests, and neither do its business value and its code quality, so these do not move. Its
completeness, its confidences and its coverage count the methods with tests, so they can only rise.
What follows from the scores, the class and the priority of a review, gets no worse.
-/

namespace PathTriage

open Scalar

/-! ## Adding tests -/

/-- A method with tests. -/
def Method.withTests (m : Method) : Method := { m with hasTests := .bool true }

/-- A path with tests for the methods at the chosen positions. -/
def CallPath.withTests (p : CallPath) (chosen : Nat → Bool) : CallPath :=
  { p with
    methods := p.methods.mapIdx fun i m => if chosen i then m.withTests else m
    slots_length := by rw [List.length_mapIdx, p.slots_length] }

/-- The same method, or the same with tests. -/
def Method.GainsTests (m m' : Method) : Prop := m' = m ∨ m' = m.withTests

namespace Method.GainsTests

variable {m m' : Method} (h : m.GainsTests m')

include h

/-- What does not look at tests is the same. -/
theorem apply_eq {β : Type} {f : Method → β} (hf : ∀ m : Method, f m.withTests = f m) :
    f m' = f m := by
  rcases h with rfl | rfl
  · rfl
  · exact hf m

/-- Tests are never lost. -/
theorem isTested (htested : m.isTested = true) : m'.isTested = true := by
  rcases h with rfl | rfl
  · exact htested
  · rfl

end Method.GainsTests

theorem forall₂_gainsTests (methods : List Method) (chosen : Nat → Bool) :
    List.Forall₂ Method.GainsTests methods
      (methods.mapIdx fun i m => if chosen i then m.withTests else m) := by
  induction methods generalizing chosen with
  | nil => exact .nil
  | cons m methods ih =>
    rw [List.mapIdx_cons]
    refine .cons ?_ (ih fun i => chosen (i + 1))
    split
    · exact .inr rfl
    · exact .inl rfl

/-- Hop by hop, a path with tests has the methods of the path, some of them with tests. -/
theorem CallPath.forall₂_withTests (p : CallPath) (chosen : Nat → Bool) :
    List.Forall₂ Method.GainsTests p.methods (p.withTests chosen).methods :=
  forall₂_gainsTests p.methods chosen

section Methods

variable {methods methods' : List Method} (h : List.Forall₂ Method.GainsTests methods methods')

include h

/-- What does not look at tests is the same for all methods. -/
theorem map_eq_of_gainsTests {β : Type} {f : Method → β} (hf : ∀ m : Method, f m.withTests = f m) :
    methods'.map f = methods.map f :=
  map_eq_of_forall₂ h fun _ _ hm => hm.apply_eq hf

/-- Tests are no part of an outline. -/
theorem outline_of_gainsTests : methods'.map Method.outline = methods.map Method.outline :=
  map_eq_of_gainsTests h fun _ => rfl

/-! ## What does not look at tests -/

section Frame

variable {m : Type → Type} [Monad m] {α : Type} [Scalar m α]

theorem meanWhere_of_gainsTests {f : Method → Bool} (hf : ∀ m : Method, f m.withTests = f m) :
    meanWhere f methods' = (meanWhere f methods : m α) := by
  unfold meanWhere meanOf
  rw [map_eq_of_gainsTests h]
  intro method
  rw [hf]

/-- Business value looks at names, layers and callers. -/
theorem Intent.businessValue_of_gainsTests (history : List Commit) :
    businessValue methods' history = (businessValue methods history : m α) := by
  have hkeywords : keywordOverlap methods' history = (keywordOverlap methods history : m α) := by
    rw [← keywordOverlap_outline, outline_of_gainsTests h, keywordOverlap_outline]
  unfold businessValue semanticMatch layerImportance activity
  rw [hkeywords, meanWhere_of_gainsTests h fun _ => rfl, map_eq_of_gainsTests h fun _ => rfl,
    map_eq_of_gainsTests h fun _ => rfl]

theorem Intent.complexityPenalty_of_gainsTests :
    complexityPenalty methods' = (complexityPenalty methods : m α) := by
  unfold complexityPenalty averageComplexity
  rw [map_eq_of_gainsTests h fun _ => rfl]

/-- Duplicates are told by signatures and ids. -/
theorem Intent.duplicationPenalty_of_gainsTests :
    duplicationPenalty methods' = (duplicationPenalty methods : m α) := by
  unfold duplicationPenalty
  rw [isEmpty_of_forall₂ h, map_eq_of_gainsTests h fun _ => rfl, h.length_eq]

theorem Intent.naming_of_gainsTests : naming methods' = (naming methods : m α) :=
  meanWhere_of_gainsTests h fun _ => rfl

/-- The reach of a change is that of its callers and callees. -/
theorem Risk.blastRadius_of_gainsTests : blastRadius methods' = (blastRadius methods : m α) := by
  unfold blastRadius
  rw [isEmpty_of_forall₂ h, map_eq_of_gainsTests h fun _ => rfl]

/-- The size of a change does not depend on its tests. -/
theorem Risk.changeComplexity_of_gainsTests (pathLength : Nat) :
    changeComplexity methods' pathLength = (changeComplexity methods pathLength : m α) := by
  unfold changeComplexity
  rw [isEmpty_of_forall₂ h, map_eq_of_gainsTests h fun _ => rfl,
    map_eq_of_gainsTests h fun _ => rfl,
    map_eq_of_gainsTests h fun _ => rfl]

end Frame

/-! ## What counts tests -/

variable {K : Type} [Field K] [LinearOrder K] [IsStrictOrderedRing K] [Decades K]

/-- Of the five signs of completeness, tests are one; the others stay. -/
theorem Intent.completeness_mono :
    (completeness methods : Id K).run ≤ (completeness methods' : Id K).run := by
  have htested : (meanWhere Method.isTested methods : Id K).run ≤
      (meanWhere Method.isTested methods' : Id K).run :=
    meanOf_mono h (fun _ _ hm => hm.isTested) zero_mem_unit.2
  -- the other signs are read off annotations, names and calls
  have hshare {f : Method → Bool} (hf : ∀ m : Method, f m.withTests = f m) :
      (meanWhere f methods : Id K).run ≤ (meanWhere f methods' : Id K).run := by
    rw [meanWhere_of_gainsTests h hf]
  have hlogging : (meanIf (logs K) methods : Id K).run ≤ (meanIf (logs K) methods' : Id K).run := by
    unfold meanIf
    rw [map_eq_of_gainsTests h fun _ => rfl]
  apply unit_mono
  apply total_mono
  refine .cons ?_ (.cons ?_ (.cons ?_ (.cons ?_ (.cons ?_ .nil))))
  · exact hundredths_mul_mono 30 (hshare fun _ => rfl)
  · exact hundredths_mul_mono 25 htested
  · exact hundredths_mul_mono 20 (hshare fun _ => rfl)
  · exact hundredths_mul_mono 15 hlogging
  · exact hundredths_mul_mono 10 (hshare fun _ => rfl)

/-- Tests make an intent more trustworthy. -/
theorem Intent.confidence_mono (historySize : Nat) :
    (confidence methods historySize : Id K).run ≤ (confidence methods' historySize : Id K).run := by
  unfold confidence
  rw [← h.length_eq]
  apply mean_mono
  refine .cons (le_refl _) (.cons (le_refl _) (.cons ?_ .nil))
  exact meanOf_mono h (fun _ _ hm => hm.isTested) (hundredths_mem_unit (by decide)).2

/-- A risk is more trustworthy for methods that have both tests and annotations. -/
theorem Risk.confidence_mono (changedCount : Nat) :
    (confidence methods changedCount : Id K).run ≤
      (confidence methods' changedCount : Id K).run := by
  have hcounts : ∀ m m' : Method, m.GainsTests m' → (m.isTested && !m.annotations.isEmpty) = true →
      (m'.isTested && !m'.annotations.isEmpty) = true := by
    intro m m' hm hcounts
    rw [Bool.and_eq_true] at hcounts ⊢
    rw [hm.apply_eq (f := Method.annotations) fun _ => rfl]
    exact ⟨hm.isTested hcounts.1, hcounts.2⟩
  unfold confidence
  rw [← h.length_eq]
  apply mean_mono
  refine .cons (le_refl _) (.cons (le_refl _) (.cons ?_ .nil))
  exact meanOf_mono h hcounts (hundredths_mem_unit (by decide)).2

end Methods

/-! ## Paths -/

section Path

variable (p : CallPath) (chosen : Nat → Bool)

theorem CallPath.outline_withTests : (p.withTests chosen).outline = p.outline :=
  CallPath.outline_eq (outline_of_gainsTests (p.forall₂_withTests chosen)) rfl

/-- Code quality does not look at tests. -/
theorem Intent.codeQuality_withTests {m : Type → Type} [Monad m] {α : Type} [Scalar m α]
    (known : String → String → Bool) :
    codeQuality known (p.withTests chosen) = (codeQuality known p : m α) := by
  have h := p.forall₂_withTests chosen
  have hconnectivity : connectivity known (p.withTests chosen) = (connectivity known p : m α) := by
    rw [← connectivity_outline, p.outline_withTests, connectivity_outline]
  unfold codeQuality
  rw [complexityPenalty_of_gainsTests h, duplicationPenalty_of_gainsTests h, naming_of_gainsTests h,
    hconnectivity]

variable {K : Type} [Field K] [LinearOrder K] [IsStrictOrderedRing K] [Decades K]

/-- The test coverage grows, or stays if the chosen methods had tests before. -/
theorem Verdict.coverage_withTests : coverage K p ≤ coverage K (p.withTests chosen) := by
  have h := p.forall₂_withTests chosen
  have hcount :
      p.methods.countP Method.isTested ≤ (p.withTests chosen).methods.countP Method.isTested :=
    countP_le_of_forall₂ h fun _ _ hm => hm.isTested
  unfold coverage Signal.testCoverage
  rw [run_share, run_share, h.length_eq]
  exact div_le_div_of_nonneg_right (Nat.cast_le.2 hcount) (Nat.cast_nonneg _)

/-- Callers and callees are the same on both paths, so architectural risk is at most and at least
    what it was. -/
theorem Risk.architectural_withTests (known : String → String → Bool) :
    (architectural known (p.withTests chosen) : Id K).run = (architectural known p : Id K).run := by
  have h := p.forall₂_withTests chosen
  have houtline := p.outline_withTests chosen
  have hin (m m' : Method) (hm : m.GainsTests m') : m'.inDegree.value = m.inDegree.value :=
    hm.apply_eq (f := fun m => m.inDegree.value) fun _ => rfl
  have hout (m m' : Method) (hm : m.GainsTests m') : m'.outDegree.value = m.outDegree.value :=
    hm.apply_eq (f := fun m => m.outDegree.value) fun _ => rfl
  apply le_antisymm
  · exact architectural_mono houtline.symm (h.flip.imp fun _ _ hm => (hin _ _ hm).le)
      (h.flip.imp fun _ _ hm => (hout _ _ hm).le) known
  · exact architectural_mono houtline (h.imp fun _ _ hm => (hin _ _ hm).ge)
      (h.imp fun _ _ hm => (hout _ _ hm).ge) known

/-- None of the scores of a risk looks at tests. -/
theorem Risk.scores_withTests (known : String → String → Bool) (changed : List String) :
    (weigh known (p.withTests chosen) changed : Id (RiskWeight K)).run.toRiskScores =
      (weigh known p changed : Id (RiskWeight K)).run.toRiskScores := by
  have h := p.forall₂_withTests chosen
  have honPath :=
    forall₂_changedOn (fun _ _ hm => hm.apply_eq (f := Method.id) fun _ => rfl) h changed []
  have harchitectural : (architectural known (p.withTests chosen) : Id K) = architectural known p :=
    architectural_withTests (K := K) p chosen known
  have hblast : (blastRadius (changedOn changed [] (p.withTests chosen).methods) : Id K) =
      blastRadius (changedOn changed [] p.methods) := blastRadius_of_gainsTests honPath
  have hcomplexity (n : Nat) :
      (changeComplexity (changedOn changed [] (p.withTests chosen).methods) n : Id K) =
        changeComplexity (changedOn changed [] p.methods) n :=
    changeComplexity_of_gainsTests honPath n
  have hflow : (dataFlow (p.withTests chosen).methods : Id K) = dataFlow p.methods := by
    rw [← dataFlow_outline, CallPath.map_outline_eq (p.outline_withTests chosen), dataFlow_outline]
  change (scores known (p.withTests chosen) (changedOn changed [] (p.withTests chosen).methods) :
      Id (RiskScores K)).run =
    (scores known p (changedOn changed [] p.methods) : Id (RiskScores K)).run
  unfold scores
  rw [harchitectural, hblast, ← h.length_eq, hcomplexity, hflow]

/-- So the intent grows with its completeness alone. -/
theorem Intent.total_withTests (known : String → String → Bool) (history : List Commit) :
    (weigh known p history : Id (IntentWeight K)).run.total ≤
      (weigh known (p.withTests chosen) history : Id (IntentWeight K)).run.total := by
  have h := p.forall₂_withTests chosen
  have hbusiness : (businessValue p.methods history : Id K).run ≤
      (businessValue (p.withTests chosen).methods history : Id K).run :=
    (congrArg Id.run (businessValue_of_gainsTests (α := K) h history)).ge
  have hcomplete : (completeness p.methods : Id K).run ≤
      (completeness (p.withTests chosen).methods : Id K).run := completeness_mono h
  have hquality :
      (codeQuality known p : Id K).run ≤ (codeQuality known (p.withTests chosen) : Id K).run :=
    (congrArg Id.run (codeQuality_withTests (α := K) p chosen known)).ge
  exact unit_mono (add_mono (add_mono (hundredths_mul_mono 40 hbusiness)
    (hundredths_mul_mono 35 hcomplete)) (hundredths_mul_mono 25 hquality))

/-- A path with added tests does at least as well in everything that classes look at. -/
theorem Verdict.improves_withTests (known : String → String → Bool) (history : List Commit)
    (changed : List String) :
    Improves p (p.withTests chosen) (Intent.weigh known p history : Id (IntentWeight K)).run
      (Intent.weigh known (p.withTests chosen) history : Id (IntentWeight K)).run
      (Risk.weigh known p changed : Id (RiskWeight K)).run
      (Risk.weigh known (p.withTests chosen) changed : Id (RiskWeight K)).run := by
  have h := p.forall₂_withTests chosen
  have houtline := p.outline_withTests chosen
  have hscores := Risk.scores_withTests (K := K) p chosen known changed
  constructor
  -- what is read off outlines is the same on both paths
  case valuable =>
    rw [← isValuable_outline p, ← houtline, isValuable_outline]
    exact id
  case faulty =>
    rw [← isFaulty_outline p, ← houtline, isFaulty_outline]
    exact id
  case mixes =>
    rw [← mixesTransaction_outline p, ← houtline, mixesTransaction_outline]
    exact id
  case coverage => exact coverage_withTests p chosen
  case intentTotal => exact Intent.total_withTests p chosen known history
  case business =>
    exact (congrArg Id.run (Intent.businessValue_of_gainsTests (α := K) h history)).ge
  case quality => exact (congrArg Id.run (Intent.codeQuality_withTests (α := K) p chosen known)).ge
  case riskTotal => exact (congrArg RiskScores.total hscores).le
  case architectural => exact (congrArg RiskScores.architectural hscores).le
  case blastRadius => exact (congrArg RiskScores.blastRadius hscores).le
  case changeComplexity => exact (congrArg RiskScores.changeComplexity hscores).le

/-- **Tests never hurt.** In exact arithmetic, adding tests to some methods of a path keeps its
    total risk and does not lower its total intent, the confidences in both, the priority of a
    review and the standing of its class, whatever is known, changed, in the history and demanded by
    thresholds. -/
theorem withTests_never_hurts (known : String → String → Bool) (history : List Commit)
    (changed : List String) (t : Thresholds K) :
    let p' := p.withTests chosen
    let intent := (Intent.weigh known p history : Id (IntentWeight K)).run
    let intent' := (Intent.weigh known p' history : Id (IntentWeight K)).run
    let risk := (Risk.weigh known p changed : Id (RiskWeight K)).run
    let risk' := (Risk.weigh known p' changed : Id (RiskWeight K)).run
    risk'.total = risk.total ∧ intent.total ≤ intent'.total ∧
      intent.confidence ≤ intent'.confidence ∧ risk.confidence ≤ risk'.confidence ∧
      (Verdict.priority intent risk : Id Level).run.rank ≤
        (Verdict.priority intent' risk' : Id Level).run.rank ∧
      (Verdict.classify t p intent risk : Id PathClass).run.standing ≤
        (Verdict.classify t p' intent' risk' : Id PathClass).run.standing := by
  intro p' intent intent' risk risk'
  have h := p.forall₂_withTests chosen
  have himproves : Verdict.Improves p p' intent intent' risk risk' :=
    Verdict.improves_withTests p chosen known history changed
  refine ⟨congrArg RiskScores.total (Risk.scores_withTests p chosen known changed),
    himproves.intentTotal, ?_, ?_, ?_, himproves.standing_le t⟩
  · exact Intent.confidence_mono h history.length
  · exact Risk.confidence_mono h changed.eraseDups.length
  · exact Verdict.rank_priority_mono himproves.intentTotal himproves.riskTotal

end Path

/-- Tests for the second method of a path none of whose methods has any. -/
theorem withTests_never_hurts_quietPath :
    quietPath.methods.map Method.isTested = [false, false] ∧
      (quietPath.withTests (· == 1)).methods.map Method.isTested = [false, true] ∧
      (Intent.weigh (fun _ _ => true) quietPath [] : Id (IntentWeight ℝ)).run.total ≤
        (Intent.weigh (fun _ _ => true) (quietPath.withTests (· == 1)) [] :
          Id (IntentWeight ℝ)).run.total ∧
      ∀ t : Thresholds ℝ,
        (Verdict.classify t quietPath
            (Intent.weigh (fun _ _ => true) quietPath [] : Id (IntentWeight ℝ)).run
            (Risk.weigh (fun _ _ => true) quietPath [] : Id (RiskWeight ℝ)).run :
              Id PathClass).run.standing ≤
          (Verdict.classify t (quietPath.withTests (· == 1))
            (Intent.weigh (fun _ _ => true) (quietPath.withTests (· == 1)) [] :
              Id (IntentWeight ℝ)).run
            (Risk.weigh (fun _ _ => true) (quietPath.withTests (· == 1)) [] :
              Id (RiskWeight ℝ)).run : Id PathClass).run.standing := by
  have h := withTests_never_hurts (K := ℝ) quietPath (· == 1) (fun _ _ => true) [] []
  exact ⟨rfl, rfl, (h fun _ => 0).2.1, fun t => (h t).2.2.2.2.2⟩

end PathTriage
