import PathTriage.Score.Intent
import PathTriage.Score.Risk
import PathTriage.Settings.Threshold
import PathTriage.Signal

/-!
Classes of paths, the priority of a review and the combined confidence.

The classes are tried in a fixed order and the first match wins: golden, then risk, then critical,
then neutral. A path that meets both the golden and the risk conditions is golden. Conditions are
evaluated from left to right and only as far as needed.
-/

namespace PathTriage

/-- A path with its scores and what follows from them. -/
structure Analyzed (α : Type) where
  path : CallPath
  intent : IntentWeight α
  risk : RiskWeight α
  pathClass : PathClass := .neutral
  priority : Level := .medium
  confidence : α

namespace Verdict

open Condition Scalar

variable {m : Type → Type} [Monad m] {α : Type} [Scalar m α]

/-- Whether a score stands in a relation to a threshold. -/
def meets (r : Relation) (score bound : α) : m Bool := Scalar.holds r score bound

/-- The structure of the path marks it as valuable. -/
def isValuable (p : CallPath) : Bool :=
  Signal.hasNewEndpoint p || Signal.touchesCoreEntity p || Signal.changesDataModel p

/-- The structure of the path marks it as faulty. -/
def isFaulty (p : CallPath) : Bool := Signal.hasLayerViolation p || Signal.isCircular p

/-- The path runs in a transaction and reaches outside it. -/
def mixesTransaction (p : CallPath) : Bool :=
  Signal.isTransactional p && (Signal.callsOutside p || Signal.accessesData p)

/-- Whether the test coverage of the path stands in a relation to a threshold. -/
def coverageMeets (r : Relation) (p : CallPath) (bound : α) : m Bool :=
  test r (Signal.testCoverage p) (pure bound)

/-- A path is golden when intent is high and risk low, and strong scores, its structure or its tests
    speak for it. -/
def isGolden (t : Thresholds α) (p : CallPath) (intent : IntentWeight α) (risk : RiskWeight α) :
    m Bool :=
  both
    (contrary (either (meets .below intent.total (t .goldenIntent))
      (meets .above risk.total (t .goldenRisk))))
    (either
      (either
        (both (meets .atLeast intent.business (t .goldenBusinessValue))
          (meets .atLeast intent.quality (t .goldenCodeQuality)))
        (pure (isValuable p)))
      (coverageMeets .atLeast p (t .testCoverage)))

/-- A path is risky when one of its risks is high, its structure is faulty, it is barely tested, or
    it mixes a transaction with outside effects. -/
def isRisky (t : Thresholds α) (p : CallPath) (risk : RiskWeight α) : m Bool :=
  either (meets .atLeast risk.total (t .riskRisk))
    (either (meets .atLeast risk.architectural (t .architecturalRisk))
      (either (meets .atLeast risk.blastRadius (t .blastRadius))
        (either (meets .atLeast risk.changeComplexity (t .changeComplexity))
          (either (pure (isFaulty p))
            (either (coverageMeets .below p (t .lowTestCoverage))
              (pure (mixesTransaction p)))))))

/-- A path is critical when it is valuable but moderately risky. -/
def isCritical (intent : IntentWeight α) (risk : RiskWeight α) : m Bool :=
  both (test .atLeast (pure intent.total) (hundredths 50 : m α))
    (both (test .atMost (hundredths 40 : m α) (pure risk.total))
      (test .atMost (pure risk.total) (hundredths 60 : m α)))

/-- The class of a path. -/
def classify (t : Thresholds α) (p : CallPath) (intent : IntentWeight α) (risk : RiskWeight α) :
    m PathClass := do
  if ← isGolden t p intent risk then pure .golden
  else if ← isRisky t p risk then pure .risk
  else if ← isCritical intent risk then pure .critical
  else pure .neutral

/-- The urgency of a review: value and safety combined 0.6 / 0.4. -/
def urgency (intent : IntentWeight α) (risk : RiskWeight α) : m α :=
  hundredths 60 * pure intent.total + hundredths 40 * (one - pure risk.total)

/-- The priority of a review with an urgency. -/
def priorityOf (urgency : α) : m Level := do
  let reaches := fun (n : Nat) => test .atLeast (pure urgency) (hundredths n : m α)
  if ← reaches 80 then pure .critical
  else if ← reaches 60 then pure .high
  else if ← reaches 40 then pure .medium
  else pure .low

/-- The priority of a review. -/
def priority (intent : IntentWeight α) (risk : RiskWeight α) : m Level := do
  priorityOf (← urgency intent risk)

/-- The combined confidence in a path. -/
def confidence (p : CallPath) (intent : IntentWeight α) (risk : RiskWeight α) : m α :=
  (capped (quotient p.methods.length 10) + pure intent.confidence + pure risk.confidence) / whole 3

end Verdict
end PathTriage
