import PathTriage.Json.Value
import PathTriage.Model.Named

/-!
The thresholds that separate the classes of paths.

A threshold is a JSON value, kept as it was given. Whether a score can be compared with it at all is
found out only when the comparison is made.
-/

namespace PathTriage

/-- The named thresholds. -/
inductive Threshold where
  | goldenIntent
  | goldenRisk
  | riskRisk
  | testCoverage
  | complexity
  | goldenBusinessValue
  | goldenCodeQuality
  | architecturalRisk
  | blastRadius
  | changeComplexity
  | lowTestCoverage
deriving Repr, DecidableEq, Inhabited

instance : Named Threshold where
  all := [.goldenIntent, .goldenRisk, .riskRisk, .testCoverage, .complexity, .goldenBusinessValue,
    .goldenCodeQuality, .architecturalRisk, .blastRadius, .changeComplexity, .lowTestCoverage]
  name
    | .goldenIntent => "golden_path_intent_threshold"
    | .goldenRisk => "golden_path_risk_threshold"
    | .riskRisk => "risk_path_risk_threshold"
    | .testCoverage => "test_coverage_threshold"
    | .complexity => "complexity_threshold"
    | .goldenBusinessValue => "golden_business_value_min"
    | .goldenCodeQuality => "golden_code_quality_min"
    | .architecturalRisk => "architectural_risk_threshold"
    | .blastRadius => "blast_radius_threshold"
    | .changeComplexity => "change_complexity_threshold"
    | .lowTestCoverage => "low_test_coverage_threshold"

/-- A value for every threshold. -/
abbrev Thresholds (τ : Type) := Threshold → τ

namespace Thresholds

/-- The values that hold when nothing is configured. -/
def initial : Thresholds Json
  | .goldenIntent => .ofFloat 0.7
  | .goldenRisk => .ofFloat 0.3
  | .riskRisk => .ofFloat 0.6
  | .testCoverage => .ofFloat 0.7
  | .complexity => .ofInt 15
  | .goldenBusinessValue => .ofFloat 0.6
  | .goldenCodeQuality => .ofFloat 0.6
  | .architecturalRisk => .ofFloat 0.7
  | .blastRadius => .ofFloat 0.6
  | .changeComplexity => .ofFloat 0.7
  | .lowTestCoverage => .ofFloat 0.3

/-- The thresholds with one value replaced. -/
def set {τ : Type} (t : Thresholds τ) (name : Threshold) (value : τ) : Thresholds τ :=
  fun n => if n = name then value else t n

/-- The thresholds with the values of a table in place of their own; unknown names are ignored. -/
def override (t : Thresholds Json) (table : Fields Json) : Thresholds Json :=
  fun n => (Fields.get? (Named.name n) table).getD (t n)

/-- The thresholds given by a table; the others have their initial values. -/
def ofFields (table : Fields Json) : Thresholds Json := initial.override table

/-- All thresholds by name. -/
def toJson (t : Thresholds Json) : Json :=
  .object ((Named.all : List Threshold).map fun n => (Named.name n, t n))

end Thresholds

end PathTriage
