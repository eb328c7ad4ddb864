import PathTriage.Command.Choice
import PathTriage.Document.Field
import PathTriage.Settings.Basic

/-!
The command line of the program and the requests that it can make.
-/

namespace PathTriage.Command

/-- A question about a call graph. -/
inductive GraphQuery where
  | statistics (top : Json)
  | paths (source target : String) (maxDepth : Option Json)
  | impact (method : String) (depth : Json)
  | propagation (method : String) (depth : Json)
  | update (changes analysis : String) (top : Json)
deriving Repr

/-- The analysis of a change. -/
structure AnalysisRequest where
  graph : String
  commits : String
  changed : List String
  changedFile : String
  maxDepth : Option Json
  timeout : Option Json
  metrics : Bool
deriving Repr

/-- What the program is asked for. -/
inductive Request where
  | analysis (r : AnalysisRequest)
  | graph (file : String) (query : GraphQuery)
  | settings
deriving Repr

/-- A run of the program: where its settings are, how much it logs, and what it is asked for.
    Without a request its use is explained; `isNamed` tells whether some command was given, and
    `isComplete` whether all required options have a text. -/
structure Invocation where
  settingsFile : Option String
  logLevel : String
  isNamed : Bool
  isComplete : Bool
  request : Option Request
deriving Repr

/-! ## Grammar -/

/-- The option that explains the use of the program. -/
def help : Opt := { names := ["-h", "--help"], arity := .help }

/-- An option with a text. -/
def textOption (name : String) : Opt := { names := [name], arity := .one .text }

/-- An option with a text that has to be given. -/
def requiredText (name : String) : Opt := { textOption name with required := true }

/-- An option with an integer. -/
def intOption (name : String) : Opt := { names := [name], arity := .one .int }

/-- The option with the file of the call graph. -/
def graphFile : Opt := requiredText "--graph"

/-- The grammar of a command without commands of its own. -/
def leaf (program : String) (options : List Opt) : Grammar := .mk program (help :: options) "" []

/-- The grammar of `analyze`. -/
def analyzeGrammar : Grammar := leaf "goldenpath analyze"
  [graphFile, textOption "--commits", { names := ["--changed"], arity := .many },
   textOption "--changed-file", intOption "--max-depth",
   { names := ["--timeout"], arity := .one .float }, { names := ["--metrics"], arity := .flag }]

/-- The grammar of `graph`. -/
def graphGrammar : Grammar := .mk "goldenpath graph" [help] "graph_cmd"
  [("stats", leaf "goldenpath graph stats" [graphFile, intOption "--top"]),
   ("paths", leaf "goldenpath graph paths"
     [graphFile, requiredText "--source", requiredText "--target", intOption "--max-depth"]),
   ("impact", leaf "goldenpath graph impact"
     [graphFile, requiredText "--method-id", intOption "--depth"]),
   ("propagate", leaf "goldenpath graph propagate"
     [graphFile, requiredText "--method-id", intOption "--depth"]),
   ("update", leaf "goldenpath graph update"
     [graphFile, requiredText "--changes", textOption "--analysis", intOption "--top"])]

/-- The grammar of `config`. -/
def configGrammar : Grammar := .mk "goldenpath config" [help] "config_cmd"
  [("show", leaf "goldenpath config show" [])]

/-- The grammar of the program. -/
def grammar : Grammar :=
  .mk "goldenpath" [help, textOption "--config", textOption "--log-level"] "command"
    [("analyze", analyzeGrammar), ("graph", graphGrammar), ("config", configGrammar)]

/-! ## Requests -/

/-- The request of a choice, if its commands are complete. -/
def Choice.request? (c : Choice) : Option Request :=
  let v := Json.object c.values
  let graph := v.textAt "--graph"
  let top := v.valueOr "--top" (.ofInt Settings.usualHotspots)
  match c.commands with
  | ["analyze"] => some <| .analysis
      { graph
        commits := v.textAt "--commits"
        changed := v.textsAt "--changed"
        changedFile := v.textAt "--changed-file"
        maxDepth := v.get? "--max-depth"
        timeout := v.get? "--timeout"
        metrics := v.flagAt "--metrics" }
  | ["graph", "stats"] => some (.graph graph (.statistics top))
  | ["graph", "paths"] =>
    some (.graph graph
      (.paths (v.textAt "--source") (v.textAt "--target") (v.get? "--max-depth")))
  | ["graph", "impact"] =>
    some (.graph graph
      (.impact (v.textAt "--method-id") (v.valueOr "--depth" (.ofInt Settings.usualImpactDepth))))
  | ["graph", "propagate"] =>
    some (.graph graph
      (.propagation (v.textAt "--method-id")
        (v.valueOr "--depth" (.ofInt Settings.usualPropagationDepth))))
  | ["graph", "update"] =>
    some (.graph graph (.update (v.textAt "--changes") (v.textAt "--analysis") top))
  | ["config", "show"] => some .settings
  | _ => none

/-- The options that have to be texts. -/
def requiredTexts : List String := ["--graph", "--source", "--target", "--method-id", "--changes"]

/-- The invocation that a command line asks for. -/
def invocation (args : List String) : Except Stop Invocation :=
  (read grammar args).map fun c =>
    let v := Json.object c.values
    { settingsFile := v.text? "--config"
      logLevel := v.textAt "--log-level"
      isNamed := !c.commands.isEmpty
      isComplete := requiredTexts.all fun key => (v.get? key).isNone || (v.text? key).isSome
      request := c.request? }

end PathTriage.Command
