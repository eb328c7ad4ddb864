import PathTriage.Text.Quoted

/-!
How serious a log row is.
-/

namespace PathTriage

/-- The severity of a log row. -/
inductive Severity where
  | debug
  | info
  | warning
  | error
  | critical
deriving Repr, DecidableEq, Inhabited

namespace Severity

/-- The name of a severity. -/
def name : Severity → String
  | .debug => "DEBUG"
  | .info => "INFO"
  | .warning => "WARNING"
  | .error => "ERROR"
  | .critical => "CRITICAL"

/-- The number of a severity; more serious is larger. -/
def number : Severity → Int
  | .debug => 10
  | .info => 20
  | .warning => 30
  | .error => 40
  | .critical => 50

/-- The name of a level number, which need not be that of a severity. -/
def levelName (n : Int) : String :=
  match [debug, info, warning, error, critical].find? fun s => s.number == n with
  | some s => s.name
  | none => if n = 0 then "NOTSET" else "Level " ++ toString n

/-- The numbers of the levels that can be asked for by name. -/
def levels : List (String × Int) :=
  [("DEBUG", 10), ("INFO", 20), ("WARNING", 30), ("WARN", 30), ("ERROR", 40), ("CRITICAL", 50),
   ("FATAL", 50), ("NOTSET", 0)]

/-- The capitals of a letter, as far as they can occur in the name of a level. -/
def capitals (c : Char) : List Char :=
  if c = 'ı' then ['I']
  else if c = 'ſ' then ['S']
  else if c = 'ﬅ' ∨ c = 'ﬆ' then ['S', 'T']
  else [c.toUpper]

/-- Why a name gives no level. -/
inductive LevelError where
  /-- A text stands in place of a level. -/
  | unknown (text : String)
  /-- A value that is neither a number nor a text stands in place of a level. -/
  | notLevel
deriving Repr, DecidableEq

/-- The message of a name that gives no level. -/
def LevelError.message : LevelError → String
  | .unknown text => "Unknown level: " ++ Text.Quoted.render text
  | .notLevel => "Level not an integer or a valid string"

/-- The least level number that is logged under a name, in any case. A name that is not known stands
    for `INFO`, except the two that are taken by the layout of a plain row and by the table of
    styles. -/
def leastLevel (name : String) : Except LevelError Int :=
  let name := String.ofList (name.toList.flatMap capitals)
  if name = "BASIC_FORMAT" then .error (.unknown "%(levelname)s:%(name)s:%(message)s")
  else if name = "_STYLES" then .error .notLevel
  else .ok (((levels.find? fun l => l.1 == name).map (·.2)).getD info.number)

end Severity
end PathTriage
