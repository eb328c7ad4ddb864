import PathTriage.Batch
import PathTriage.Command.Request
import PathTriage.Document.Node
import PathTriage.Document.Result
import PathTriage.Payload.Analysis
import PathTriage.Payload.Change
import PathTriage.Payload.Commit
import PathTriage.Settings.Load
import PathTriage.Store.Bundle
import PathTriage.Store.Query
import PathTriage.Store.Update

/-!
Running the program on a command line. Files are looked up through a function of any monad, and what
the run leaves behind is data: its exit code, what it prints, and what it logs.
-/

namespace PathTriage.Command

/-- Why a run breaks off. -/
inductive Fault where
  | file (e : FileFault)
  | logLevelNotText
  | level (e : Severity.LevelError)
  | failed (cause : Failure)
deriving Repr, DecidableEq

/-- The message of a run that breaks off. -/
def Fault.message : Fault → String
  | .file e => e.message
  | .logLevelNotText => "the configured log level is not a text"
  | .level e => e.message
  | .failed cause => cause.message

/-- What a run prints. -/
inductive Printed where
  | nothing
  | help (usage : String)
  | document (value : Json)
  | measured (value : Json) (metrics : Metrics)

/-- What a run leaves behind. `notices` come before logging is set up; of `events` those of at least
    `level` are logged. -/
structure Transcript where
  exit : Nat
  printed : Printed := .nothing
  usageError : Option String := none
  notices : List Event := []
  level : Int := Severity.info.number
  events : List Event := []

/-- The events that are logged. -/
def Transcript.logged (t : Transcript) : List LogRow :=
  (t.events.map Event.row).filter fun row => decide (t.level ≤ row.severity.number)

/-- The notices that are shown, which have to be warnings at least. -/
def Transcript.shown (t : Transcript) : List String :=
  ((t.notices.map Event.row).filter fun row =>
    decide (Severity.warning.number ≤ row.severity.number)).map (·.message)

/-- The answer to a request. -/
structure Reply where
  exit : Nat := 0
  printed : Printed
  events : List Event := []

/-- The answer to a request that cannot be met. -/
def Reply.refusal (message : String) (events : List Event) : Reply where
  exit := 1
  printed := .document (.object [("error", .string message)])
  events := events

/-! ## Loading -/

/-- Why a file cannot be used. -/
inductive LoadError where
  | fault (e : FileFault)
  | refused (message : String)
deriving Repr, DecidableEq

/-- The load error of a file that holds no value. -/
def LoadError.ofDocument : DocumentError → LoadError
  | .file e => .refused e.message
  | .json e => .refused e.message
  | .fault e => .fault e

/-- The message of a payload with problems: their number and the name of the payload. -/
def validationMessage (title : String) (count : Nat) : String :=
  toString count ++
    (if count = 1 then " validation error for " else " validation errors for ") ++ title

/-- The records of a file. A bare list stands for a payload with only the field `field`. -/
def records {α : Type} (title field : String) (check : Payload.Check α) (path : String)
    (entry : FileEntry) : Except LoadError α :=
  match entry.readJson path with
  | .error e => .error (.ofDocument e)
  | .ok v =>
    let payload := match v with
      | .array items => .object [(field, .array items)]
      | v => v
    match check payload with
    | .valid a => .ok a
    | c => .error (.refused (validationMessage title c.problems.length))

/-- The analyses in a file. -/
def analyses (path : String) (entry : FileEntry) : Except LoadError (List FileAnalysis) :=
  records "AnalysisBundleBody" "files" Payload.bundle path entry

/-- The changes in a file. -/
def changes (path : String) (entry : FileEntry) : Except LoadError (List FileChange) :=
  records "FileChangeBatchBody" "changes" Payload.changeBatch path entry

/-- The commits in a file. -/
def commits (path : String) (entry : FileEntry) : Except LoadError (List Commit) :=
  records "CommitHistoryBody" "commits" Payload.commitHistory path entry

/-- The changed methods listed in a file, one on a line; blank lines and lines that start with `#`
    are skipped. -/
def changedMethods (path : String) (entry : FileEntry) : Except LoadError (List String) :=
  match entry.readChars path with
  | .error e => .error (.ofDocument e)
  | .ok cs =>
    let lines := (Text.Lines.split (String.ofList cs)).map Text.strip
    .ok (lines.filter fun line => !line.isEmpty && !line.startsWith "#")

/-- The analyzer that answers from analyses by file path; a later analysis of a file replaces an
    earlier one. -/
def analyzerOf (files : List FileAnalysis) : Analyzer := fun path =>
  match files.reverse.find? fun a => a.filePath == path with
  | some a => .ok a
  | none => .error ("no analysis for " ++ path)

section

variable {m : Type → Type} [Monad m] (look : String → m FileEntry)

/-- What is read from a file with a name, or `usual` where the name is empty. -/
def loadOr {α : Type} (usual : α) (read : String → FileEntry → Except LoadError α) (path : String) :
    ExceptT LoadError m α :=
  if path.isEmpty then pure usual
  else do
    let entry ← (look path : m FileEntry)
    (read path entry : Except LoadError α)

/-- What is read from a file. -/
def load {α : Type} (read : String → FileEntry → Except LoadError α) (path : String) :
    ExceptT LoadError m α := do
  let entry ← (look path : m FileEntry)
  (read path entry : Except LoadError α)

/-- The changed methods listed in a file, or none where the name is empty. -/
def loadListed (path : String) : ExceptT LoadError m (List String) :=
  if path.isEmpty then pure [] else load look changedMethods (Path.tidy path)

/-- Goes on with what was loaded, or refuses the request. -/
def withLoaded {α : Type} (complaint : String) (events : List Event)
    (loaded : ExceptT LoadError m α) (next : α → ExceptT Fault m Reply) :
    ExceptT Fault m Reply := do
  match ← (loaded.run : m (Except LoadError α)) with
  | .ok a => next a
  | .error (.fault e) => throw (.file e)
  | .error (.refused message) => pure (.refusal (complaint ++ ": " ++ message) events)

/-! ## Requests -/

/-- The answer about paths between two methods. -/
def pathsDocument (source target : String) (depth : Json) (paths : List CallPath) : Json := .object
  [("source", .string source), ("target", .string target), ("max_depth", depth),
   ("count", .ofInt paths.length), ("paths", .array (paths.map (·.toJson)))]

/-- The answer about the impact of a method. -/
def impactDocument (method : String) (depth : Json) (methods : List Method) : Json := .object
  [("method_id", .string method), ("depth", depth), ("count", .ofInt methods.length),
   ("methods", .ofStrings (methods.map (·.id)))]

/-- The answer about the risk that spreads from a method. -/
def propagationDocument (method : String) (depth : Json) (risks : List (String × Json)) : Json :=
  .object
    [("method_id", .string method), ("depth", depth),
     ("risk", .object (risks.map fun e => (e.1, .ofScore e.2)))]

/-- Goes on with a computation, which may make the run break off. -/
def attempt {α : Type} (e : Except Failure α) : ExceptT Fault m α :=
  (e.mapError .failed : Except Fault α)

/-- The answer to a question that needs a known method. -/
def aboutMethod (s : Store) (method : String) (events : List Event)
    (document : Except Failure Json) : ExceptT Fault m Reply :=
  if s.hasMethod method then do
    let document ← attempt document
    pure { printed := .document document, events }
  else pure (.refusal ("Method " ++ method ++ " not found") events)

/-- The risk that spreads from a method once all risks are up to date. -/
def spreadRisk (s : Store) (method : String) (depth : Json) :
    Except Failure (List (String × Json)) := do
  let (s, refreshed) := s.refreshRisks none
  let _ ← refreshed
  s.propagateRisk method depth

/-- The changes of an update, and the analyzer that it has if analyses are given. -/
def updateInputs (changesFile analysisFile : String) :
    ExceptT LoadError m (List FileChange × Option Analyzer) := do
  let changes ← load look changes changesFile
  let analyzer ← loadOr look none (fun path entry =>
    (analyses path entry).map fun files => some (analyzerOf files)) analysisFile
  pure (changes, analyzer)

/-- The answer to an update: what it did, and the figures of the store after it. -/
def answerUpdate (s : Store) (events : List Event) (top : Json) (changes : List FileChange)
    (analyzer : Option Analyzer) : ExceptT Fault m Reply := do
  let u := s.update analyzer changes
  let statistics ← attempt (u.store.statistics top)
  let document := Json.object
    [("update", u.result.toJson), ("statistics", statistics.toJson)]
  pure { printed := .document document, events := events ++ u.events }

/-- Answers a question about a call graph. -/
def answerQuery (settings : Settings) (s : Store) (events : List Event) :
    GraphQuery → ExceptT Fault m Reply
  | .statistics top => do
    let statistics ← attempt (s.statistics top)
    pure { printed := .document statistics.toJson, events }
  | .paths source target maxDepth => do
    let depth := maxDepth.getD (settings.value .maxPathDepth)
    let paths ← attempt (s.findPaths source target depth (settings.value .maxPaths))
    pure { printed := .document (pathsDocument source target depth paths), events }
  | .impact method depth =>
    aboutMethod s method events ((s.impactOf method depth).map (impactDocument method depth))
  | .propagation method depth =>
    aboutMethod s method events ((spreadRisk s method depth).map (propagationDocument method depth))
  | .update changesFile analysisFile top =>
    withLoaded "Invalid change file" events (updateInputs look changesFile analysisFile)
      fun (changes, analyzer) => answerUpdate s events top changes analyzer

/-- The plan of an analysis: the configured one with what the request overrides. -/
def AnalysisRequest.plan (r : AnalysisRequest) (settings : Settings) : Plan :=
  let plan := settings.plan
  { plan with maxDepth := r.maxDepth.getD plan.maxDepth, timeout := r.timeout.getD plan.timeout }

/-- The analyses of the files, and what is known about the change. -/
def analysisInputs (r : AnalysisRequest) :
    ExceptT LoadError m (List FileAnalysis × ChangeContext) := do
  let files ← load look analyses r.graph
  let commits ← loadOr look [] commits r.commits
  let listed ← loadListed look r.changedFile
  pure (files, { changed := (r.changed ++ listed).eraseDups, commits })

/-- The answer to an analysis of a change in a project. `now` is the time that the answer bears, and
    `course` is how the tasks of the analysis go. -/
def answerChange (now : String) (course : Batch.Course) (settings : Settings) (r : AnalysisRequest)
    (files : List FileAnalysis) (context : ChangeContext) : ExceptT Fault m Reply :=
  let events := Store.danglingCalls files
  if context.changed.isEmpty then
    pure (.refusal "No changed methods given (use --changed or --changed-file)" events)
  else
    let run := Batch.runChange (r.plan settings) (Store.ofFiles files) context course
    let events := events ++ run.events
    match run.answer with
    | .error (.failed cause) => throw (.failed cause)
    | .error e => pure (.refusal ("Nothing to analyze: " ++ e.message) events)
    | .ok analysis => do
      let document := analysis.toJson now
      if r.metrics then
        let metrics ← attempt (run.record {})
        pure { printed := .measured document metrics, events }
      else pure { printed := .document document, events }

/-- Answers a request for an analysis. -/
def answerAnalysis (now : String) (course : Batch.Course) (settings : Settings)
    (r : AnalysisRequest) : ExceptT Fault m Reply :=
  withLoaded "Invalid input" [] (analysisInputs look r) fun (files, context) =>
    answerChange now course settings r files context

/-- Answers a request. -/
def answer (now : String) (course : Batch.Course) (settings : Settings) :
    Request → ExceptT Fault m Reply
  | .analysis r => answerAnalysis look now course settings r
  | .graph file query =>
    withLoaded "Invalid graph file" [] (load look analyses file) fun files =>
      answerQuery look settings (Store.ofFiles files) (Store.danglingCalls files) query
  | .settings => pure { printed := .document settings.toJson }

/-! ## Runs -/

/-- The least level that is logged: the given name, or the configured one where it is empty. -/
def levelOf (given : String) (settings : Settings) : Except Fault Int :=
  if given.isEmpty then
    match settings.value .logLevel with
    | .string name => (Severity.leastLevel name).mapError .level
    | _ => .error .logLevelNotText
  else (Severity.leastLevel given).mapError .level

/-- Follows an invocation. Settings are loaded once some command is named. -/
def follow (env : Settings.Environment) (now : String) (course : Batch.Course) (i : Invocation) :
    ExceptT Fault m Transcript :=
  if !i.isNamed then pure { exit := 1, printed := .help grammar.usage }
  else do
    match ← (Settings.load look env i.settingsFile : m _) with
    | .error e => throw (.file e)
    | .ok (settings, notices) =>
      let level ← (levelOf i.logLevel settings : Except Fault Int)
      match i.request with
      | none => pure { exit := 1, printed := .help grammar.usage, notices, level }
      | some request =>
        if i.isComplete then
          let reply ← answer look now course settings request
          pure
            { exit := reply.exit, printed := reply.printed, notices, level, events := reply.events }
        else throw (.failed (.noMember .list))

/-- Runs the program on a command line. -/
def run (env : Settings.Environment) (now : String) (course : Batch.Course) (args : List String) :
    m (Except Fault Transcript) :=
  match invocation args with
  | .error (.help usage) => pure (.ok { exit := 0, printed := .help usage })
  | .error (.usage program message) =>
    pure (.ok { exit := 2, usageError := some (program ++ ": error: " ++ message) })
  | .ok i => (follow look env now course i).run

end

end PathTriage.Command
