import PathTriage.Discovery
import PathTriage.Report
import PathTriage.Settings.Basic
import PathTriage.Telemetry.Metrics

/-!
Analysis of a batch of paths.

Every path has two scoring tasks, intent and risk. A task ends with a score, fails, or is still
outstanding at the time limit. A path whose two tasks have scores is classified and ranked; every
other path is skipped. `Batch.conclude` turns outcomes into an analysis; `Batch.run` computes the
outcomes and reports what happened.

When the tasks of a run end is not computed here: it is a parameter, the `Course` of the run. The
time limit is looked at only when some task has not ended by the time that the run begins to wait.
-/

namespace PathTriage

/-- How a scoring task ended. -/
inductive Outcome (β : Type) where
  | scored (weight : β)
  | failed (reason : String)
  | outstanding

/-- The score of a task that has one. -/
def Outcome.weight? {β : Type} : Outcome β → Option β
  | .scored weight => some weight
  | _ => none

/-- Why a task failed. -/
def Outcome.failure? {β : Type} : Outcome β → Option String
  | .failed reason => some reason
  | _ => none

/-- Whether a task is still outstanding. -/
def Outcome.isOutstanding {β : Type} : Outcome β → Bool
  | .outstanding => true
  | _ => false

/-- A path with the outcomes of its two tasks, and the total risk that was reported on the way. -/
structure ScoredPath where
  path : CallPath
  intent : Outcome (IntentWeight Json)
  risk : Outcome (RiskWeight Json)
  reported : Option Json := none

/-- The result of an analysis. -/
structure Analysis where
  golden : List (Analyzed Json) := []
  risk : List (Analyzed Json) := []
  neutral : List (Analyzed Json) := []
  report : Report := {}
  incomplete : Bool := false
  skipped : List String := []
  errors : List String := []

namespace Analysis

/-- The number of analysed paths. -/
def total (a : Analysis) : Nat := a.golden.length + a.risk.length + a.neutral.length

/-- All analysed paths: golden, risk, neutral. -/
def all (a : Analysis) : List (Analyzed Json) := a.golden ++ a.risk ++ a.neutral

end Analysis

/-- How a batch is to be analysed. The values are kept as they were configured. -/
structure Plan where
  thresholds : Thresholds Json
  timeout : Json
  workers : Json
  maxDepth : Json
  maxPaths : Json

/-- The plan that settings ask for. -/
def Settings.plan (s : Settings) : Plan where
  thresholds := s.thresholds
  timeout := s.value .batchTimeout
  workers := s.value .maxWorkers
  maxDepth := s.value .maxPathDepth
  maxPaths := s.value .maxPaths

/-- What is known about a change: the changed methods and the commits. -/
structure ChangeContext where
  changed : List String := []
  commits : List Commit := []

/-- Something that keeps a task from its score. -/
inductive Interruption where
  | failure (reason : String)
  | stall
deriving Repr, DecidableEq

/-- How the tasks of a run go: what keeps a task from its score, and whether some task has not ended
    when the run begins to wait for all of them. -/
structure Batch.Course where
  interrupt : TaskKind → String → Option Interruption := fun _ _ => none
  awaited : Bool := false

/-- Why a batch cannot be analysed. -/
inductive BatchError where
  | empty
  | withoutMethods (pathId : String)
  | failed (cause : Failure)
deriving Repr, DecidableEq

/-- The message of a batch that cannot be analysed. -/
def BatchError.message : BatchError → String
  | .empty => "path batch is empty"
  | .withoutMethods pathId => "path " ++ pathId ++ " has no methods"
  | .failed cause => cause.message

namespace Batch

/-- A batch has at least one path, and every path has methods. -/
def check (paths : List CallPath) : Except BatchError Unit :=
  if paths.isEmpty then .error .empty
  else
    match paths.find? fun p => p.methods.isEmpty with
    | some p => .error (.withoutMethods p.id)
    | none => .ok ()

/-! ## Scoring -/

/-- The outcome of a task that may be interrupted. -/
def outcome {β : Type} (interruption : Option Interruption) (result : Except Failure β) :
    Outcome β :=
  match interruption with
  | some (.failure reason) => .failed reason
  | some .stall => .outstanding
  | none =>
    match result with
    | .ok weight => .scored weight
    | .error cause => .failed cause.message

/-- The total risk that the scoring of a path reports, unless it is interrupted. -/
def reportedRisk (known : String → String → Bool) (changed : List String)
    (interruption : Option Interruption) (p : CallPath) : Option Json :=
  match interruption with
  | some _ => none
  | none =>
    let scores : Except Failure (RiskScores Json) :=
      Risk.scores known p (Risk.changedOn changed [] p.methods)
    scores.toOption.map (·.total)

/-- Scores one path. -/
def score (known : String → String → Bool) (context : ChangeContext)
    (interrupt : TaskKind → String → Option Interruption) (p : CallPath) : ScoredPath where
  path := p
  intent := outcome (interrupt .intent p.id) (Intent.weigh known p context.commits)
  risk := outcome (interrupt .risk p.id) (Risk.weigh known p context.changed)
  reported := reportedRisk known context.changed (interrupt .risk p.id) p

/-- The tasks of a path that failed, intent first. -/
def failures (s : ScoredPath) : List (TaskKind × String) :=
  (s.intent.failure?.map fun reason => (TaskKind.intent, reason)).toList
    ++ (s.risk.failure?.map fun reason => (TaskKind.risk, reason)).toList

/-- The number of outstanding tasks of a path. -/
def outstanding (s : ScoredPath) : Nat :=
  (if s.intent.isOutstanding then 1 else 0) + (if s.risk.isOutstanding then 1 else 0)

/-- The number of outstanding tasks of a batch. -/
def pending (scored : List ScoredPath) : Nat := Scalar.totalCount (scored.map outstanding)

/-- The messages of all failed tasks, by position, intent first. -/
def errorMessages (scored : List ScoredPath) : List String :=
  scored.flatMap fun s => (failures s).map fun f => Event.scoringMessage f.1 s.path.id f.2

/-- What is reported about the scoring of one path. -/
def scoreEvents (s : ScoredPath) : List Event :=
  (s.reported.map fun total => Event.pathRisk s.path.id total).toList
    ++ (failures s).map fun f => .scoringFailed f.1 s.path.id f.2

/-- What is reported about the scoring of a batch with a time limit. -/
def scoringEvents (seconds : Json) (scored : List ScoredPath) : List Event :=
  scored.flatMap scoreEvents
    ++ if pending scored = 0 then [] else [.timedOut seconds (pending scored) scored.length]

/-! ## Classification -/

/-- A path with its class, priority and confidence. -/
def judge (t : Thresholds Json) (p : CallPath) (intent : IntentWeight Json)
    (risk : RiskWeight Json) : Except Failure (Analyzed Json) := do
  let pathClass ← Verdict.classify t p intent risk
  let priority ← Verdict.priority intent risk
  let confidence ← Verdict.confidence p intent risk
  pure
    { path := { p with pathClass, totalWeight := intent.total }
      intent, risk, pathClass, priority, confidence }

/-- The scores of a path both of whose tasks have one. -/
def scores? (s : ScoredPath) : Option (IntentWeight Json × RiskWeight Json) := do
  let intent ← s.intent.weight?
  let risk ← s.risk.weight?
  pure (intent, risk)

/-- Judges all paths with two scores, in order. -/
def judgeAll (t : Thresholds Json) : List ScoredPath → Except Failure (List (Analyzed Json))
  | [] => .ok []
  | s :: rest =>
    match scores? s with
    | none => judgeAll t rest
    | some (intent, risk) => do
      let analyzed ← judge t s.path intent risk
      let more ← judgeAll t rest
      pure (analyzed :: more)

/-- The ids of the paths that lack a score, in order. -/
def skippedIds (scored : List ScoredPath) : List String :=
  (scored.filter fun s => (scores? s).isNone).map (·.path.id)

/-- The judged paths of a batch, ranked within their classes, without a report. -/
def rank (scored : List ScoredPath) (judged : List (Analyzed Json)) : Except Failure Analysis := do
  let golden ← Ranking.golden (judged.filter fun a => a.pathClass == .golden)
  let risk ← Ranking.risk (judged.filter fun a => a.pathClass == .risk)
  let neutral ← Ranking.neutral
    (judged.filter fun a => a.pathClass != .golden && a.pathClass != .risk)
  pure
    { golden, risk, neutral
      incomplete := pending scored != 0 || !(skippedIds scored).isEmpty
      skipped := skippedIds scored
      errors := errorMessages scored }

/-- The ranked paths that follow from the outcomes of all tasks. -/
def rankAll (t : Thresholds Json) (scored : List ScoredPath) : Except Failure Analysis := do
  rank scored (← judgeAll t scored)

/-- An analysis with its report. -/
def withReport (t : Thresholds Json) (a : Analysis) : Except Failure Analysis := do
  let report ← Report.generate t a.golden a.risk a.neutral
  pure { a with report }

/-! ## Runs -/

/-- What a run leaves behind: its answer, its reports, and the ranked paths once there are any. -/
structure Run where
  answer : Except BatchError Analysis
  events : List Event := []
  ranked : Option Analysis := none

/-- The counters after a run. Its duration is not part of the model. -/
def Run.record (r : Run) (m : Metrics) : Except Failure Metrics :=
  match r.ranked with
  | none => .ok m
  | some a => m.recordAnalysis (.ofFloat 0) (.ofInt a.golden.length) (.ofInt a.risk.length)
      (.ofInt a.neutral.length) a.incomplete

/-- The report of a finished ranking. -/
def analyzedEvent (paths : Nat) (a : Analysis) : Event :=
  .analyzed paths (paths - a.skipped.length) a.golden.length a.risk.length a.neutral.length

/-- The run over scored paths. -/
def conclude (t : Thresholds Json) (seconds : Json) (scored : List ScoredPath) : Run :=
  let events := scoringEvents seconds scored
  match rankAll t scored with
  | .error cause => { answer := .error (.failed cause), events }
  | .ok ranked =>
    { answer := (withReport t ranked).mapError .failed
      events := events ++ [analyzedEvent scored.length ranked]
      ranked := some ranked }

/-- Why a number of workers cannot be used, if it cannot. -/
def workersFailure? (workers : Json) : Option Failure :=
  match Json.holds .above workers (.ofInt 1) with
  | .ok _ => none
  | .error cause => some cause

/-- The number of ticks of the clock in a second. -/
def ticks : Int := 1000000000

/-- The least number of ticks beyond the clock, which is a signed word of 64 bits. -/
def clockBound : Int := 9223372036854775808

/-- Whether a number of seconds is beyond the clock. -/
def isBeyondClock : Number → Bool
  | .int n => clockBound ≤ n * ticks
  | .float x => !(x * Binary64.ofInt ticks < Binary64.ofInt clockBound)

/-- Why a time limit cannot be waited for, if it cannot. There may be no limit, and one that is not
    positive is over at once. -/
def limitFailure? : Json → Option Failure
  | .null => none
  | limit =>
    match Json.holds .above limit (.ofInt 0) with
    | .error cause => some cause
    | .ok positive =>
      if positive && limit.number?.any isBeyondClock then some (.limitRange limit.kind) else none

/-- Why a run cannot wait for its tasks, if it has to wait and cannot. -/
def waitFailure? (limit : Json) (awaited : Bool) (scored : List ScoredPath) : Option Failure :=
  if awaited || pending scored != 0 then limitFailure? limit else none

/-- Analyses a batch of paths. The number of workers has to be a number, and so has the time limit
    once it is needed. What the tasks have reported when a run cannot wait is left out. -/
def run (plan : Plan) (known : String → String → Bool) (context : ChangeContext) (course : Course)
    (paths : List CallPath) : Run :=
  match check paths with
  | .error e => { answer := .error e }
  | .ok () =>
    match workersFailure? plan.workers with
    | some cause => { answer := .error (.failed cause) }
    | none =>
      let scored := paths.map (score known context course.interrupt)
      match waitFailure? plan.timeout course.awaited scored with
      | some cause => { answer := .error (.failed cause) }
      | none => conclude plan.thresholds plan.timeout scored

/-- Discovers the candidate paths of a change in a store and analyses them against the store. -/
def runChange (plan : Plan) (s : Store) (context : ChangeContext) (course : Course) : Run :=
  match Discovery.candidates s context.changed plan.maxDepth plan.maxPaths with
  | .error cause => { answer := .error (.failed cause) }
  | .ok (paths, events) =>
    let r := run plan s.hasCall context course paths
    { r with events := events ++ r.events }

end Batch
end PathTriage
