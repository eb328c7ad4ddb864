import PathTriage.Proofs.Score.Exact
import PathTriage.Verdict

/-!
Verdicts in exact arithmetic.

The conditions of the classes are read as statements about scores, coverage and structure
(`isGolden_iff`, `isRisky_iff`). A path fares better than another when each of these speaks for it
at least as much: then it has a class of at least the same standing, although golden is tried before
risk, and a review of it has at least the same priority.
-/

namespace PathTriage

open Scalar

/-- The standing of a class: golden paths are ahead of neutral and critical ones, risk paths
    behind. -/
def PathClass.standing : PathClass → Nat
  | .golden => 2
  | .neutral => 1
  | .critical => 1
  | .risk => 0

namespace Verdict

/-! ## Conditions -/

section Conditions

variable {K : Type} [Field K] [LinearOrder K] [Decades K]

/-- The test coverage of a path. -/
def coverage (K : Type) [Field K] [LinearOrder K] [Decades K] (p : CallPath) : K :=
  (Signal.testCoverage p : Id K).run

/-- What a golden path needs, as a proposition about its scores. -/
theorem isGolden_iff (t : Thresholds K) (p : CallPath) (intent : IntentWeight K)
    (risk : RiskWeight K) :
    (isGolden t p intent risk).run = true ↔
      (t .goldenIntent ≤ intent.total ∧ risk.total ≤ t .goldenRisk) ∧
        ((t .goldenBusinessValue ≤ intent.business ∧ t .goldenCodeQuality ≤ intent.quality) ∨
          isValuable p = true ∨ t .testCoverage ≤ coverage K p) := by
  unfold isGolden coverageMeets meets
  simp only [Condition.run_both, Condition.run_either, Condition.run_contrary, run_holds, run_test,
    Id.run_pure, Bool.and_eq_true, Bool.or_eq_true, Bool.not_eq_true', Bool.or_eq_false_iff,
    decide_eq_true_eq, decide_eq_false_iff_not, or_assoc]
  simp only [Relation.Holds, not_lt, coverage]

/-- What makes a path risky, likewise. -/
theorem isRisky_iff (t : Thresholds K) (p : CallPath) (risk : RiskWeight K) :
    (isRisky t p risk).run = true ↔
      t .riskRisk ≤ risk.total ∨ t .architecturalRisk ≤ risk.architectural ∨
        t .blastRadius ≤ risk.blastRadius ∨ t .changeComplexity ≤ risk.changeComplexity ∨
          isFaulty p = true ∨ coverage K p < t .lowTestCoverage ∨ mixesTransaction p = true := by
  unfold isRisky coverageMeets meets
  simp only [Condition.run_either, run_holds, run_test, Id.run_pure, Bool.or_eq_true,
    decide_eq_true_eq]
  simp only [Relation.Holds, coverage]

/-- Golden comes first, then risk, then critical. -/
theorem run_classify (t : Thresholds K) (p : CallPath) (intent : IntentWeight K)
    (risk : RiskWeight K) :
    (classify t p intent risk).run =
      if (isGolden t p intent risk).run then .golden
      else if (isRisky t p risk).run then .risk
      else if (isCritical intent risk).run then .critical
      else .neutral := by
  unfold classify
  rw [Id.run_bind, apply_ite Id.run, Id.run_bind, apply_ite Id.run, Id.run_bind, apply_ite Id.run]
  rfl

/-- A path that meets the golden condition has the highest standing, whatever its risks are. -/
theorem standing_of_isGolden {t : Thresholds K} {p : CallPath} {intent : IntentWeight K}
    {risk : RiskWeight K} (h : (isGolden t p intent risk).run = true) :
    (classify t p intent risk).run.standing = 2 := by
  rw [run_classify, if_pos h]
  rfl

/-- Among the others, a path has the lowest standing if it meets the risk condition. -/
theorem standing_of_not_isGolden {t : Thresholds K} {p : CallPath} {intent : IntentWeight K}
    {risk : RiskWeight K} (h : ¬(isGolden t p intent risk).run = true) :
    (classify t p intent risk).run.standing = if (isRisky t p risk).run then 0 else 1 := by
  rw [run_classify, if_neg h]
  split
  · rfl
  · split <;> rfl

end Conditions

/-! ## Comparison -/

section Comparison

variable {K : Type} [Field K] [LinearOrder K] [Decades K]

/-- The second of two scored paths does at least as well as the first in everything that classes
    look at. -/
structure Improves (p p' : CallPath) (intent intent' : IntentWeight K) (risk risk' : RiskWeight K) :
    Prop where
  valuable : isValuable p = true → isValuable p' = true
  faulty : isFaulty p' = true → isFaulty p = true
  mixes : mixesTransaction p' = true → mixesTransaction p = true
  coverage : coverage K p ≤ coverage K p'
  intentTotal : intent.total ≤ intent'.total
  business : intent.business ≤ intent'.business
  quality : intent.quality ≤ intent'.quality
  riskTotal : risk'.total ≤ risk.total
  architectural : risk'.architectural ≤ risk.architectural
  blastRadius : risk'.blastRadius ≤ risk.blastRadius
  changeComplexity : risk'.changeComplexity ≤ risk.changeComplexity

variable {p p' : CallPath} {intent intent' : IntentWeight K} {risk risk' : RiskWeight K}

/-- An improved path stays golden. -/
theorem Improves.isGolden (h : Improves p p' intent intent' risk risk') {t : Thresholds K}
    (hgolden : (isGolden t p intent risk).run = true) :
    (Verdict.isGolden t p' intent' risk').run = true := by
  rw [isGolden_iff] at hgolden ⊢
  obtain ⟨⟨hintent, hrisk⟩, hreason⟩ := hgolden
  refine ⟨⟨hintent.trans h.intentTotal, h.riskTotal.trans hrisk⟩, ?_⟩
  rcases hreason with ⟨hbusiness, hquality⟩ | hvaluable | hcoverage
  · exact .inl ⟨hbusiness.trans h.business, hquality.trans h.quality⟩
  · exact .inr (.inl (h.valuable hvaluable))
  · exact .inr (.inr (hcoverage.trans h.coverage))

/-- And does not become risky. -/
theorem Improves.isRisky (h : Improves p p' intent intent' risk risk') {t : Thresholds K}
    (hrisky : (isRisky t p' risk').run = true) : (Verdict.isRisky t p risk).run = true := by
  rw [isRisky_iff] at hrisky ⊢
  rcases hrisky with hrisk | harchitectural | hblast | hcomplexity | hfaulty | hcoverage | hmixes
  · exact .inl (hrisk.trans h.riskTotal)
  · exact .inr (.inl (harchitectural.trans h.architectural))
  · exact .inr (.inr (.inl (hblast.trans h.blastRadius)))
  · exact .inr (.inr (.inr (.inl (hcomplexity.trans h.changeComplexity))))
  · exact .inr (.inr (.inr (.inr (.inl (h.faulty hfaulty)))))
  · exact .inr (.inr (.inr (.inr (.inr (.inl (h.coverage.trans_lt hcoverage))))))
  · exact .inr (.inr (.inr (.inr (.inr (.inr (h.mixes hmixes))))))

/-- Doing at least as well gives a class of at least the same standing. -/
theorem Improves.standing_le (h : Improves p p' intent intent' risk risk') (t : Thresholds K) :
    (classify t p intent risk).run.standing ≤ (classify t p' intent' risk').run.standing := by
  by_cases hgolden : (Verdict.isGolden t p intent risk).run = true
  · rw [standing_of_isGolden hgolden, standing_of_isGolden (h.isGolden hgolden)]
  · by_cases hgolden' : (Verdict.isGolden t p' intent' risk').run = true
    · -- golden is tried first, so new risks would not matter
      rw [standing_of_isGolden hgolden', standing_of_not_isGolden hgolden]
      split <;> decide
    · rw [standing_of_not_isGolden hgolden, standing_of_not_isGolden hgolden']
      by_cases hrisky' : (Verdict.isRisky t p' risk').run = true
      · rw [if_pos hrisky', if_pos (h.isRisky hrisky')]
      · rw [if_neg hrisky']
        split <;> decide

end Comparison

/-! ## Priority -/

section Priority

variable {K : Type} [Field K] [LinearOrder K] [Decades K]

theorem run_priorityOf (urgency : K) :
    (priorityOf urgency : Id Level).run =
      if (hundredths 80 : Id K).run ≤ urgency then .critical
      else if (hundredths 60 : Id K).run ≤ urgency then .high
      else if (hundredths 40 : Id K).run ≤ urgency then .medium
      else .low := by
  unfold priorityOf
  rw [Id.run_bind, apply_ite Id.run, Id.run_bind, apply_ite Id.run, Id.run_bind, apply_ite Id.run]
  simp only [run_test, Id.run_pure, decide_eq_true_eq]
  rfl

/-- More urgency is no lower priority. -/
theorem rank_priorityOf_mono {urgency urgency' : K} (h : urgency ≤ urgency') :
    (priorityOf urgency : Id Level).run.rank ≤ (priorityOf urgency' : Id Level).run.rank := by
  have hreaches (limit : K) : limit ≤ urgency → limit ≤ urgency' := fun hl => hl.trans h
  rw [run_priorityOf, run_priorityOf]
  grind [Level.rank]

variable [IsStrictOrderedRing K]

/-- More intent and less risk never lower the priority of a review. -/
theorem rank_priority_mono {intent intent' : IntentWeight K}
    (hintent : intent.total ≤ intent'.total)
    {risk risk' : RiskWeight K} (hrisk : risk'.total ≤ risk.total) :
    (priority intent risk).run.rank ≤ (priority intent' risk').run.rank := by
  apply rank_priorityOf_mono
  have hvalue : (hundredths 60 * pure intent.total : Id K).run ≤
      (hundredths 60 * pure intent'.total : Id K).run := hundredths_mul_mono 60 hintent
  have hsafety : (one - pure risk.total : Id K).run ≤ (one - pure risk'.total : Id K).run :=
    sub_le_sub_left hrisk _
  exact add_mono hvalue (hundredths_mul_mono 40 hsafety)

end Priority

end Verdict
end PathTriage
