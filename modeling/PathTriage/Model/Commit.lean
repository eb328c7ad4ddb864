import PathTriage.Model.Named

/-!
Commits, as an analysis of the project's history reports them.
-/

namespace PathTriage

/-- What a commit is for. -/
inductive CommitKind where
  | feature
  | bugfix
  | refactor
  | performance
  | test
  | docs
  | style
  | build
  | ci
  | chore
  | other
deriving Repr, DecidableEq, Inhabited

instance : Named CommitKind where
  all := [.feature, .bugfix, .refactor, .performance, .test, .docs, .style, .build, .ci, .chore,
    .other]
  name
    | .feature => "FEATURE"
    | .bugfix => "BUGFIX"
    | .refactor => "REFACTOR"
    | .performance => "PERFORMANCE"
    | .test => "TEST"
    | .docs => "DOCS"
    | .style => "STYLE"
    | .build => "BUILD"
    | .ci => "CI"
    | .chore => "CHORE"
    | .other => "OTHER"

/-- How a commit was rated. -/
structure CommitIntent where
  businessValue : Float := 0.5
  riskLevel : Float := 0.5
  urgency : Float := 0.5
deriving Repr

/-- A commit. A missing timestamp stands for the time of reading. -/
structure Commit where
  hash : String
  message : String := ""
  author : String := ""
  keywords : List String := []
  kind : CommitKind := .other
  intent : CommitIntent := {}
  filesChanged : List String := []
  linesAdded : Int := 0
  linesDeleted : Int := 0
  timestamp : Option String := none
deriving Repr

end PathTriage
