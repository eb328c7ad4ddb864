import PathTriage.Json.Arithmetic
import PathTriage.Telemetry.Severity
import PathTriage.Text.Quoted

/-!
What the library reports while it works. An event is a fact; `Event.row` gives it its severity, its
source, its wording and the fields that are attached to it.
-/

namespace PathTriage

/-- The two scorings of a path. -/
inductive TaskKind where
  | intent
  | risk
deriving Repr, DecidableEq, Inhabited

/-- The name of a scoring. -/
def TaskKind.name : TaskKind → String
  | .intent => "intent"
  | .risk => "risk"

/-- Something worth reporting. -/
inductive Event where
  | skippedLink (label : String)
  | updateFailed (filePath reason : String)
  | pathRisk (pathId : String) (total : Json)
  | candidateLimit (limit : Int) (count : Nat)
  | candidates (count : Nat)
  | timedOut (seconds : Json) (outstanding paths : Nat)
  | scoringFailed (kind : TaskKind) (pathId reason : String)
  | analyzed (paths done golden risk neutral : Nat)
  | unknownSetting (key : String)
  | unreadableSettings (path reason : String)
  | settingsNotObject (path : String)
  | settingsNotFound (path : String)
  | invalidVariable (name value : String)
deriving Repr

/-- A row of the log. -/
structure LogRow where
  severity : Severity
  source : String
  message : String
  pathId : Option String := none
  filePath : Option String := none
  pathCount : Option Nat := none
deriving Repr, DecidableEq

namespace Event

/-- A number with some places. -/
def placesText (places : Nat) (v : Json) : String :=
  match v.toFloat .notDecimal with
  | .ok x => ({ places } : Decimal.Fixed).text x
  | .error _ => ""

/-- The message of a scoring that failed. -/
def scoringMessage (kind : TaskKind) (pathId reason : String) : String :=
  kind.name ++ " scoring failed for " ++ pathId ++ ": " ++ reason

/-- The row that an event leaves in the log. -/
def row : Event → LogRow
  | .skippedLink label =>
    { severity := .debug, source := "goldenpath.graph"
      message := "Skipping edge " ++ label ++ ": unknown endpoint" }
  | .updateFailed filePath reason =>
    { severity := .warning, source := "goldenpath.graph"
      message := "Incremental update failed for " ++ filePath ++ ": " ++ reason
      filePath := some filePath }
  | .pathRisk pathId total =>
    { severity := .debug, source := "goldenpath.scoring"
      message := "Path " ++ pathId ++ " risk " ++ placesText 3 total
      pathId := some pathId }
  | .candidateLimit limit count =>
    { severity := .info, source := "goldenpath.paths"
      message := "Candidate path limit " ++ toString limit ++ " reached"
      pathCount := some count }
  | .candidates count =>
    { severity := .debug, source := "goldenpath.paths"
      message := "Discovered " ++ toString count ++ " candidate paths"
      pathCount := some count }
  | .timedOut seconds outstanding paths =>
    { severity := .warning, source := "goldenpath.paths"
      message := "Path analysis timed out after " ++ placesText 1 seconds
        ++ "s with " ++ toString outstanding ++ " task(s) outstanding"
      pathCount := some paths }
  | .scoringFailed kind pathId reason =>
    { severity := .warning, source := "goldenpath.paths"
      message := scoringMessage kind pathId reason
      pathId := some pathId }
  | .analyzed paths done golden risk neutral =>
    { severity := .info, source := "goldenpath.paths"
      message := s!"Analyzed {done} paths: {golden} golden, {risk} risk, {neutral} neutral"
      pathCount := some paths }
  | .unknownSetting key =>
    { severity := .debug, source := "goldenpath.config"
      message := "Ignoring unknown config key " ++ key }
  | .unreadableSettings path reason =>
    { severity := .warning, source := "goldenpath.config"
      message := "Ignoring unreadable config file " ++ path ++ ": " ++ reason }
  | .settingsNotObject path =>
    { severity := .warning, source := "goldenpath.config"
      message := "Ignoring config file " ++ path ++ ": top-level value is not an object" }
  | .settingsNotFound path =>
    { severity := .warning, source := "goldenpath.config"
      message := "Config file " ++ path ++ " not found, using defaults" }
  | .invalidVariable name value =>
    { severity := .warning, source := "goldenpath.config"
      message := "Ignoring invalid " ++ name ++ "=" ++ Text.Quoted.render value }

end Event
end PathTriage
