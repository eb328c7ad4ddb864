import PathTriage.Json.Literal
import PathTriage.Json.Arithmetic

/-!
Counters over the lifetime of a program, and their text exposition.
-/

namespace PathTriage

/-- Counters of analyses and store updates. The counters by class appear only once an analysis has
    been recorded. What is added to a counter is a number as it was given. -/
structure Metrics where
  complete : Nat := 0
  incomplete : Nat := 0
  duration : Json := .ofFloat 0
  golden : Json := .ofInt 0
  risk : Json := .ofInt 0
  neutral : Json := .ofInt 0
  updates : Nat := 0
  affectedNodes : Json := .ofInt 0
  updateErrors : Json := .ofInt 0

namespace Metrics

/-- Counts an analysis. -/
def recordAnalysis (m : Metrics) (duration golden risk neutral : Json) (isIncomplete : Bool) :
    Except Failure Metrics := do
  let duration ← m.duration.add duration
  let golden ← m.golden.add golden
  let risk ← m.risk.add risk
  let neutral ← m.neutral.add neutral
  pure
    { m with
      complete := if isIncomplete then m.complete else m.complete + 1
      incomplete := if isIncomplete then m.incomplete + 1 else m.incomplete
      duration, golden, risk, neutral }

/-- Counts an update of a store. -/
def recordUpdate (m : Metrics) (affectedNodes errors : Json) : Except Failure Metrics := do
  let affectedNodes ← m.affectedNodes.add affectedNodes
  let updateErrors ← m.updateErrors.add errors
  pure { m with updates := m.updates + 1, affectedNodes, updateErrors }

/-- The number of analyses. -/
def analyses (m : Metrics) : Nat := m.complete + m.incomplete

/-- Durations have six places. -/
def seconds : Decimal.Fixed := { places := 6 }

/-- A counter with a label. -/
def labelled (counter label value count : String) : String :=
  counter ++ "\x7b" ++ label ++ "=\"" ++ value ++ "\"\x7d " ++ count

/-- A counter of analyses by outcome, once there is one. -/
def outcomeLine (outcome : String) (count : Nat) : List String :=
  if count = 0 then []
  else [labelled "goldenpath_analyses_total" "outcome" outcome (toString count)]

/-- The counters of paths by class, once there is an analysis. -/
def classLines (m : Metrics) : List String :=
  if m.analyses = 0 then []
  else
    [("golden", m.golden), ("neutral", m.neutral), ("risk", m.risk)].map fun c =>
      labelled "goldenpath_paths_classified_total" "path_type" c.1 c.2.plain

/-- The lines of the exposition, with the given text in the place of the total duration. -/
def linesWith (m : Metrics) (duration : String) : List String :=
  ["# HELP goldenpath_analyses_total Path analysis batches by outcome.",
   "# TYPE goldenpath_analyses_total counter"]
  ++ outcomeLine "complete" m.complete
  ++ outcomeLine "incomplete" m.incomplete
  ++ ["# HELP goldenpath_analysis_duration_seconds Path analysis batch duration.",
   "# TYPE goldenpath_analysis_duration_seconds summary",
   "goldenpath_analysis_duration_seconds_sum " ++ duration,
   "goldenpath_analysis_duration_seconds_count " ++ toString m.analyses,
   "# HELP goldenpath_paths_classified_total Analyzed paths by classification.",
   "# TYPE goldenpath_paths_classified_total counter"]
  ++ m.classLines
  ++ ["# HELP goldenpath_graph_updates_total Incremental graph updates applied.",
   "# TYPE goldenpath_graph_updates_total counter",
   "goldenpath_graph_updates_total " ++ toString m.updates,
   "goldenpath_graph_affected_nodes_total " ++ m.affectedNodes.plain,
   "goldenpath_graph_update_errors_total " ++ m.updateErrors.plain]

/-- The lines of the exposition. -/
def lines (m : Metrics) : Except Failure (List String) := do
  pure (m.linesWith (seconds.text (← m.duration.toFloat (.noLayout 'f'))))

/-- The text exposition, each line ended by a line feed. -/
def text (m : Metrics) : Except Failure String := do
  pure (String.join ((← m.lines).map (· ++ "\n")))

end Metrics
end PathTriage
