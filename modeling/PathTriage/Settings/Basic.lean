import PathTriage.Settings.Threshold
import PathTriage.Telemetry.Event

/-!
The settings of an analysis: eight named values, the thresholds, and for each overridden name the
place where its value came from. Values are kept as they were given.
-/

namespace PathTriage

/-- The named settings. -/
inductive Setting where
  | maxPathDepth
  | maxPaths
  | impactRadiusDepth
  | propagationDepth
  | maxWorkers
  | batchTimeout
  | hotspotLimit
  | logLevel
deriving Repr, DecidableEq, Inhabited

instance : Named Setting where
  all := [.maxPathDepth, .maxPaths, .impactRadiusDepth, .propagationDepth, .maxWorkers,
    .batchTimeout, .hotspotLimit, .logLevel]
  name
    | .maxPathDepth => "max_path_depth"
    | .maxPaths => "max_paths"
    | .impactRadiusDepth => "impact_radius_depth"
    | .propagationDepth => "propagation_depth"
    | .maxWorkers => "max_workers"
    | .batchTimeout => "batch_timeout_seconds"
    | .hotspotLimit => "hotspot_limit"
    | .logLevel => "log_level"

/-- Where an overriding value came from. -/
inductive Origin where
  | file
  | environment
deriving Repr, DecidableEq, Inhabited

instance : Named Origin where
  all := [.file, .environment]
  name
    | .file => "config"
    | .environment => "env"

/-- All settings. -/
structure Settings where
  value : Setting → Json
  thresholds : Thresholds Json
  sources : Fields Origin

namespace Settings

/-- The depth of a search for paths when nothing is configured. -/
def usualPathDepth : Int := 5

/-- The number of paths to look for when nothing is configured. -/
def usualMaxPaths : Int := 500

/-- The reach of an impact when nothing is configured. -/
def usualImpactDepth : Int := 3

/-- The reach of a propagation when nothing is configured. -/
def usualPropagationDepth : Int := 3

/-- The number of hubs to list when nothing is configured. -/
def usualHotspots : Int := 10

/-- The settings that hold when nothing is configured. -/
def initial : Settings where
  value
    | .maxPathDepth => .ofInt usualPathDepth
    | .maxPaths => .ofInt usualMaxPaths
    | .impactRadiusDepth => .ofInt usualImpactDepth
    | .propagationDepth => .ofInt usualPropagationDepth
    | .maxWorkers => .ofInt 8
    | .batchTimeout => .ofFloat 30
    | .hotspotLimit => .ofInt usualHotspots
    | .logLevel => .string "INFO"
  thresholds := .initial
  sources := []

/-- The key under which the thresholds stand in a file. -/
def thresholdsKey : String := "thresholds"

/-- The name of a threshold among the sources. -/
def thresholdSource (name : String) : String := thresholdsKey ++ "." ++ name

/-- Gives a setting a value from a place. -/
def set (s : Settings) (name : Setting) (value : Json) (origin : Origin) : Settings :=
  { s with
    value := fun n => if n = name then value else s.value n
    sources := s.sources.put (Named.name name) origin }

/-- Gives a threshold a value from a place. -/
def setThreshold (s : Settings) (name : Threshold) (value : Json) (origin : Origin) : Settings :=
  { s with
    thresholds := s.thresholds.set name value
    sources := s.sources.put (thresholdSource (Named.name name)) origin }

/-- Overrides thresholds by a table from a place. Every name of the table is recorded. -/
def overrideThresholds (s : Settings) (table : Fields Json) (origin : Origin) : Settings :=
  { s with
    thresholds := s.thresholds.override table
    sources := table.keys.foldl (fun sources name => sources.put (thresholdSource name) origin)
      s.sources }

/-- Takes in one field of a file; a field that means nothing is reported. -/
def applyField (s : Settings) (field : String × Json) : Settings × List Event :=
  match (Named.ofName? field.1 : Option Setting), field.2 with
  | some name, value => (s.set name value .file, [])
  | none, .object table =>
    if field.1 = thresholdsKey then (s.overrideThresholds table .file, [])
    else (s, [.unknownSetting field.1])
  | none, _ => (s, [.unknownSetting field.1])

/-- Takes in the fields of a file in order. There is one field for each key that was read, and keys
    that differ in unpaired surrogate halves only were read as one (`Json.Token.unitChar`). -/
def applyFields (s : Settings) (fields : Fields Json) : Settings × List Event :=
  fields.foldl (fun acc field =>
    let step := acc.1.applyField field
    (step.1, acc.2 ++ step.2)) (s, [])

/-- The settings as a document. -/
def toJson (s : Settings) : Json :=
  .object <|
    (Named.all : List Setting).map (fun n => (Named.name n, s.value n))
    ++ [(thresholdsKey, s.thresholds.toJson),
        ("sources", .object (s.sources.map fun e => (e.1, .string (Named.name e.2))))]

end Settings
end PathTriage
