import PathTriage.Files
import PathTriage.Reading
import PathTriage.Settings.Basic

/-!
Loading the settings: the initial values, then a file, then the environment, each overriding what
came before. A file or a variable that cannot be used is reported and changes nothing.
-/

namespace PathTriage.Settings

/-- The variables of the environment, by name. -/
abbrev Environment := Fields String

/-- What a variable overrides. -/
inductive Target where
  | setting (name : Setting)
  | threshold (name : Threshold)
deriving Repr, DecidableEq

/-- A variable of the environment. -/
structure Variable where
  name : String
  target : Target
  reading : Reading
deriving Repr, DecidableEq

/-- The variables that override settings. -/
def knownVariables : List Variable :=
  [⟨"GOLDENPATH_MAX_WORKERS", .setting .maxWorkers, .int⟩,
   ⟨"GOLDENPATH_BATCH_TIMEOUT", .setting .batchTimeout, .float⟩,
   ⟨"GOLDENPATH_MAX_PATH_DEPTH", .setting .maxPathDepth, .int⟩,
   ⟨"GOLDENPATH_MAX_PATHS", .setting .maxPaths, .int⟩,
   ⟨"GOLDENPATH_LOG_LEVEL", .setting .logLevel, .text⟩,
   ⟨"GOLDENPATH_GOLDEN_INTENT_THRESHOLD", .threshold .goldenIntent, .float⟩,
   ⟨"GOLDENPATH_GOLDEN_RISK_THRESHOLD", .threshold .goldenRisk, .float⟩,
   ⟨"GOLDENPATH_RISK_THRESHOLD", .threshold .riskRisk, .float⟩]

/-- Overrides what a variable is for. -/
def override (s : Settings) (target : Target) (value : Json) : Settings :=
  match target with
  | .setting name => s.set name value .environment
  | .threshold name => s.setThreshold name value .environment

/-- Takes in one variable, if it is set. -/
def applyVariable (env : Environment) (s : Settings) (v : Variable) : Settings × List Event :=
  match env.get? v.name with
  | none => (s, [])
  | some raw =>
    match v.reading.value? raw with
    | some value => (s.override v.target value, [])
    | none => (s, [.invalidVariable v.name raw])

/-- Takes in the environment. -/
def applyEnvironment (env : Environment) (s : Settings) : Settings × List Event :=
  knownVariables.foldl (fun acc v =>
    let step := applyVariable env acc.1 v
    (step.1, acc.2 ++ step.2)) (s, [])

/-- Takes in a file that is there. -/
def applyFile (path : String) (entry : FileEntry) (s : Settings) :
    Except FileFault (Settings × List Event) :=
  match entry.readJson path with
  | .ok (.object fields) => .ok (s.applyFields fields)
  | .ok _ => .ok (s, [.settingsNotObject path])
  | .error (.file e) => .ok (s, [.unreadableSettings path e.message])
  | .error (.json e) => .ok (s, [.unreadableSettings path e.message])
  | .error (.fault e) => .error e

/-- The files that are looked for when none is named. -/
def usualFiles : List String := [".goldenpath/config.json", "goldenpath.json"]

/-- The first path that leads anywhere, with what it leads to. -/
def firstThere {m : Type → Type} [Monad m] (look : String → m FileEntry) :
    List String → m (Except FileFault (Option (String × FileEntry)))
  | [] => pure (.ok none)
  | path :: rest => do
    let entry ← look path
    match entry.isThere with
    | .error e => pure (.error e)
    | .ok true => pure (.ok (some (path, entry)))
    | .ok false => firstThere look rest

/-- The settings after the file, if there is one. An empty name counts as none. -/
def fromFile {m : Type → Type} [Monad m] (look : String → m FileEntry) (named : Option String) :
    m (Except FileFault (Settings × List Event)) := do
  let named := named.filter fun path => !path.isEmpty
  let candidates := match named with
    | some path => [Path.tidy path]
    | none => usualFiles
  match ← firstThere look candidates with
  | .error e => pure (.error e)
  | .ok (some (path, entry)) => pure (applyFile path entry initial)
  | .ok none =>
    match named with
    | some path => pure (.ok (initial, [.settingsNotFound path]))
    | none => pure (.ok (initial, []))

/-- The settings of a program that runs with the given files and environment. -/
def load {m : Type → Type} [Monad m] (look : String → m FileEntry) (env : Environment)
    (named : Option String) : m (Except FileFault (Settings × List Event)) := do
  match ← fromFile look named with
  | .error e => pure (.error e)
  | .ok (s, events) =>
    let (s, more) := applyEnvironment env s
    pure (.ok (s, events ++ more))

end PathTriage.Settings
