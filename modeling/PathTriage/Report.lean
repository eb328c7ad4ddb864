import PathTriage.Decimal.Fixed
import PathTriage.Json.Literal
import PathTriage.Ranking

/-!
The report over classified paths: summary, findings, recommendations, risk factors, opportunities
and quality metrics.
-/

namespace PathTriage

/-- Counts and means over all paths. -/
structure Summary where
  totalPaths : Nat := 0
  goldenCount : Nat := 0
  riskCount : Nat := 0
  neutralCount : Nat := 0
  goldenRatio : Json := .ofFloat 0
  riskRatio : Json := .ofFloat 0
  averageIntent : Json := .ofFloat 0
  averageRisk : Json := .ofFloat 0
  averageConfidence : Json := .ofFloat 0

/-- The quality of the paths as a whole. -/
structure QualityMetrics where
  codeQuality : Json := .ofFloat 0
  architecturalHealth : Json := .ofFloat 0
  testMaturity : Json := .ofFloat 0
  businessAlignment : Json := .ofFloat 0
  overall : Json := .ofFloat 0

/-- The report of an analysis. -/
structure Report where
  summary : Summary := {}
  keyFindings : List String := []
  recommendations : List String := []
  riskFactors : List String := []
  opportunityAreas : List String := []
  quality : QualityMetrics := {}

namespace Report

open Scalar

/-- Values with two places. -/
def twoPlaces : Decimal.Fixed := { places := 2 }

/-- A number with two places. -/
def twoPlacesText (v : Json) : Except Failure String := do
  pure (twoPlaces.text (← v.toFloat (.noLayout 'f')))

/-- A share as a whole percentage. -/
def percentText (v : Json) : Except Failure String := do
  pure (Decimal.percentText (← v.toFloat (.noLayout '%')))

/-- A list of texts in one line. -/
def listed (texts : List String) : String := ", ".intercalate texts

/-! ## Frequency tables -/

/-- How often each text occurs. -/
def counts (texts : List String) : List (String × Nat) :=
  texts.eraseDups.map fun t => (t, texts.count t)

/-- More frequent first, then by name. -/
def compareCounts (a b : String × Nat) : Ordering := (compare b.2 a.2).then (compare a.1 b.1)

/-- The texts by frequency. -/
def frequencies (texts : List String) : List (String × Nat) :=
  Order.sortBy compareCounts (counts texts)

/-- The risk factors of the paths by frequency. -/
def factorCounts (paths : List (Analyzed Json)) : List (String × Nat) :=
  frequencies (paths.flatMap fun p => p.risk.details.factors)

/-- The ten most frequent risk factors. -/
def riskFactorSummary (paths : List (Analyzed Json)) : List String :=
  ((factorCounts paths).take 10).map fun f => s!"{f.1} ({f.2} occurrences)"

/-! ## Sections -/

/-- The mean of a score over paths. -/
def meanScore (score : Analyzed Json → Json) (paths : List (Analyzed Json)) : Except Failure Json :=
  mean (paths.map fun p => pure (score p))

/-- The mean test coverage of paths. -/
def meanCoverage (paths : List (Analyzed Json)) : Except Failure Json :=
  mean (paths.map fun p => Signal.testCoverage p.path)

/-- The summary of three lists of paths. -/
def summarize (golden risk neutral : List (Analyzed Json)) : Except Failure Summary := do
  let all := golden ++ risk ++ neutral
  let goldenRatio ← share golden.length all.length
  let riskRatio ← share risk.length all.length
  let averageIntent ← meanScore (·.intent.total) all
  let averageRisk ← meanScore (·.risk.total) all
  let averageConfidence ← meanScore (·.confidence) all
  pure
    { totalPaths := all.length
      goldenCount := golden.length
      riskCount := risk.length
      neutralCount := neutral.length
      goldenRatio, riskRatio, averageIntent, averageRisk, averageConfidence }

/-- A finding that counts paths, when there are any. -/
def countFinding (n : Nat) (text : String) : List String :=
  if n = 0 then [] else [toString n ++ " path(s) " ++ text]

/-- A finding about the largest of some scores, when there are any. -/
def topFinding (text : String) (write : Json → Except Failure String) :
    List Json → Except Failure (List String)
  | [] => .ok []
  | v :: rest => do
    let top ← largest v rest
    let shown ← write top
    pure ["Found " ++ toString (rest.length + 1) ++ text ++ shown]

/-- The finding about the most frequent risk factors. -/
def dominantFinding (paths : List (Analyzed Json)) : List String :=
  let dominant := ((factorCounts paths).take 3).map (·.1)
  if dominant.isEmpty then [] else ["Dominant risk factors: " ++ listed dominant]

/-- The finding about test coverage, when there are paths. -/
def coverageFinding (paths : List (Analyzed Json)) : Except Failure (List String) :=
  if paths.isEmpty then .ok []
  else do
    let shown ← percentText (← meanCoverage paths)
    pure ["Overall test coverage across analyzed paths: " ++ shown]

/-- The key findings. -/
def findings (golden risk neutral : List (Analyzed Json)) : Except Failure (List String) := do
  let all := golden ++ risk ++ neutral
  let goldenFinding ← topFinding " golden path(s); top business value " percentText
    (golden.map (·.intent.business))
  let riskFinding ← topFinding " risk path(s); highest risk score " twoPlacesText
    (risk.map (·.risk.total))
  let coverage ← coverageFinding all
  pure (goldenFinding ++ riskFinding ++ dominantFinding all ++ coverage
    ++ countFinding (all.countP fun p => Signal.hasLayerViolation p.path) "contain layer violations"
    ++ countFinding (all.countP fun p => Signal.isRestful p.path) "pass through REST endpoints"
    ++ countFinding (all.countP fun p => Signal.isSensitive p.path)
        "touch security-sensitive methods")

/-- Whether a path has a mean complexity above a limit. -/
def isComplex (limit : Json) (p : Analyzed Json) : Except Failure Bool :=
  test .above (Signal.averageComplexity p.path) (.ok limit)

/-- Whether the methods of a path are long. -/
def isLong (p : Analyzed Json) : Except Failure Bool :=
  test .above (Signal.averageLength p.path) (whole 50 : Except Failure Json)

/-- Whether a path is barely tested. -/
def isUntested (p : Analyzed Json) : Except Failure Bool :=
  test .below (Signal.testCoverage p.path) (hundredths 50 : Except Failure Json)

/-- Whether a path could become golden. -/
def isPromotable (p : Analyzed Json) : Except Failure Bool :=
  Condition.both (test .atLeast (.ok p.intent.total) (hundredths 40 : Except Failure Json))
    (test .atMost (.ok p.risk.total) (hundredths 50 : Except Failure Json))

/-- A recommendation that counts paths, when there are any. -/
def countAdvice (before : String) (n : Nat) (after : String) : List String :=
  if n = 0 then [] else [before ++ toString n ++ after]

/-- The advice on the first risk paths. -/
def reviewAdvice (risk : List (Analyzed Json)) : List String :=
  let top := risk.take 5
  if risk.isEmpty then []
  else ["Review the top " ++ toString top.length ++ " risk path(s) first: "
    ++ listed (top.map (·.path.id))]

/-- The advice on golden paths. -/
def goldenAdvice (golden : List (Analyzed Json)) : List String :=
  if golden.isEmpty then []
  else
    ["Protect " ++ toString golden.length
        ++ " golden path(s) with regression tests and careful review",
     "Propagate golden path patterns (layering, validation, tests) to related code"]

/-- The recommendations, with the limit for a mean complexity. -/
def recommend (limit : Json) (golden risk neutral : List (Analyzed Json)) :
    Except Failure (List String) := do
  let all := golden ++ risk ++ neutral
  let complexPaths ← Condition.count (isComplex limit) all
  let long ← Condition.count isLong all
  let untested ← Condition.count isUntested risk
  let promotable ← Condition.count isPromotable neutral
  pure (reviewAdvice risk
    ++ countAdvice "Refactor high-complexity methods on " complexPaths
        (" path(s) (average complexity above " ++ limit.plain ++ ")")
    ++ countAdvice "Split long methods on " long " path(s) (average above 50 lines)"
    ++ countAdvice "Add tests to " untested
        (" risk path(s) with coverage below " ++ Decimal.percentText 0.5)
    ++ goldenAdvice golden
    ++ countAdvice "" promotable " neutral path(s) show golden path potential")

/-- The five most frequent keywords of the golden paths. -/
def topKeywords (golden : List (Analyzed Json)) : List String :=
  ((frequencies (golden.flatMap fun p => p.intent.keywords)).take 5).map (·.1)

/-- Whether a path is tested well. -/
def isWellTested (p : Analyzed Json) : Except Failure Bool :=
  test .atLeast (Signal.testCoverage p.path) (hundredths 80 : Except Failure Json)

/-- What the golden paths offer to the rest of the code. -/
def opportunities (golden : List (Analyzed Json)) : Except Failure (List String) := do
  let keywords := topKeywords golden
  let wellTested ← Condition.count isWellTested golden
  let terms := Order.sortedSet (golden.flatMap fun p => Signal.businessTerms p.path)
  let mentioned := if keywords.isEmpty then []
    else ["Business keywords in golden paths: " ++ listed keywords]
  pure (mentioned
    ++ countAdvice "" wellTested
        " well-tested golden path(s) can serve as reference implementations"
    ++ (if terms.isEmpty then []
        else ["Business operations covered by golden paths: " ++ listed terms]))

/-- The quality metrics; all zero without paths. -/
def measure (paths : List (Analyzed Json)) : Except Failure QualityMetrics :=
  if paths.isEmpty then .ok {}
  else do
    let codeQuality ← meanScore (·.intent.quality) paths
    let architecturalHealth ← one - meanScore (·.risk.architectural) paths
    let testMaturity ← meanCoverage paths
    let businessAlignment ← meanScore (·.intent.business) paths
    let overall ← mean [pure codeQuality, pure architecturalHealth, pure testMaturity,
      pure businessAlignment]
    pure { codeQuality, architecturalHealth, testMaturity, businessAlignment, overall }

/-- The report over sorted golden, risk and neutral paths. -/
def generate (t : Thresholds Json) (golden risk neutral : List (Analyzed Json)) :
    Except Failure Report := do
  let all := golden ++ risk ++ neutral
  let summary ← summarize golden risk neutral
  let keyFindings ← findings golden risk neutral
  let recommendations ← recommend (t .complexity) golden risk neutral
  let opportunityAreas ← opportunities golden
  let quality ← measure all
  pure
    { summary, keyFindings, recommendations, opportunityAreas, quality
      riskFactors := riskFactorSummary all }

end Report
end PathTriage
