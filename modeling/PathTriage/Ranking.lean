import PathTriage.Order
import PathTriage.Verdict

/-!
The order of analysed paths within each class. Every path has a key of scores, and ranks before the
paths with a larger key; a larger score ranks first where the key holds its negative. Every order
ends with the path id, so it does not hang on the order in which the paths were given.
-/

namespace PathTriage.Ranking

open Scalar

variable {m : Type → Type} [Monad m] {α : Type} [Scalar m α]

/-- What a path is ranked by. -/
structure Key (α : Type) where
  scores : List α
  id : String

/-- The value by which golden paths are ranked. -/
def goldenScore (p : Analyzed α) : m α :=
  hundredths 40 * pure p.intent.business + hundredths 30 * pure p.intent.completeness
    + hundredths 30 * pure p.intent.quality

/-- The severity by which risk paths are ranked. -/
def severity (p : Analyzed α) : m α :=
  hundredths 40 * pure p.risk.architectural + hundredths 30 * pure p.risk.blastRadius
    + hundredths 30 * pure p.risk.changeComplexity

/-- The negative of a number. -/
def negative (x : m α) : m α := do Scalar.sub (ofInt 0) (← x)

/-- Golden paths: more valuable, then more confident, then less risky, then by id. -/
def goldenKey (p : Analyzed α) : m (Key α) := do
  let score ← negative (goldenScore p)
  let confidence ← negative (pure p.confidence)
  pure ⟨[score, confidence, p.risk.total], p.path.id⟩

/-- Risk paths: more severe, then more valuable, then more confident, then by id. -/
def riskKey (p : Analyzed α) : m (Key α) := do
  let score ← negative (severity p)
  let business ← negative (pure p.intent.business)
  let confidence ← negative (pure p.confidence)
  pure ⟨[score, business, confidence], p.path.id⟩

/-- Neutral paths: larger margin of intent over risk, then more valuable, then more confident, then
    by id. -/
def neutralKey (p : Analyzed α) : m (Key α) := do
  let margin ← negative (pure p.intent.total - pure p.risk.total)
  let business ← negative (pure p.intent.business)
  let confidence ← negative (pure p.confidence)
  pure ⟨[margin, business, confidence], p.path.id⟩

/-- Smaller first. -/
def ascending (x y : α) : Ordering :=
  if Scalar.lt x y then .lt else if Scalar.lt y x then .gt else .eq

/-- The first difference of two lists of numbers decides. -/
def compareScores : List α → List α → Ordering
  | x :: xs, y :: ys => (ascending x y).then (compareScores xs ys)
  | _, _ => .eq

/-- Keys by their scores, then by id. -/
def compareKeys (a b : Key α) : Ordering :=
  (compareScores a.scores b.scores).then (compare a.id b.id)

/-- The paths in the order of their keys. All keys are computed first. -/
def rankBy (key : Analyzed α → m (Key α)) (paths : List (Analyzed α)) : m (List (Analyzed α)) := do
  let keyed ← paths.mapM fun p => do pure (← key p, p)
  pure ((Order.sortBy (fun a b => compareKeys a.1 b.1) keyed).map (·.2))

/-- Golden paths in order. -/
def golden (paths : List (Analyzed α)) : m (List (Analyzed α)) := rankBy goldenKey paths

/-- Risk paths in order. -/
def risk (paths : List (Analyzed α)) : m (List (Analyzed α)) := rankBy riskKey paths

/-- Neutral paths in order. -/
def neutral (paths : List (Analyzed α)) : m (List (Analyzed α)) := rankBy neutralKey paths

end PathTriage.Ranking
