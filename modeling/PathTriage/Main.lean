import PathTriage.Command.Run
import PathTriage.Json.Writer
import PathTriage.Telemetry.LogRecord
import Std.Time.DateTime

/-!
The program: its command line on the files, the environment and the clock of the machine.
-/

namespace PathTriage.Main

open Std.Time

/-- A number with at least `width` digits. -/
def padded (n : Int) (width : Nat) : String := String.ofList (Decimal.paddedDigits n.toNat width)

/-- The current time. -/
def now : IO PlainDateTime := do
  let t ← Timestamp.now
  pure (PlainDateTime.ofWallTime (t.toWallTime TimeZone.Offset.zero))

/-- The date of a time. -/
def dateText (t : PlainDateTime) : String :=
  padded t.year 4 ++ "-" ++ padded t.month.val 2 ++ "-" ++ padded t.day.val 2

/-- The time of day to the second. -/
def clockText (t : PlainDateTime) : String :=
  padded t.hour.val 2 ++ ":" ++ padded t.minute.val 2 ++ ":" ++ padded t.second.val 2

/-- A time as documents bear it. -/
def timestamp (t : PlainDateTime) : String :=
  dateText t ++ "T" ++ clockText t ++ "." ++ padded (t.nanosecond.val / 1000) 6 ++ "+00:00"

/-- A time as log rows bear it. -/
def logTime (t : PlainDateTime) : String :=
  dateText t ++ " " ++ clockText t ++ "," ++ padded (t.nanosecond.val / 1000000) 3

/-- The code of the error for reading a directory. -/
def directoryCode : UInt32 := 21

/-- The code of the error for a name that is too long. -/
def longNameCode : UInt32 := 36

/-- What a path leads to on the disk. -/
def look (path : String) : IO FileEntry := do
  if path.toList.contains '\x00' then
    return .invalidName
  try
    let bytes ← IO.FS.readBinFile path
    pure (.file bytes)
  catch
    | .inappropriateType _ code _ =>
      pure (if code == directoryCode then .directory else .notDirectory)
    | .invalidArgument _ code _ =>
      pure (if code == longNameCode then .nameTooLong else .missing)
    | _ => pure .missing

/-- The variables of the environment that matter. -/
def environment : IO Settings.Environment := do
  let entries ← Settings.knownVariables.mapM fun v => do
    pure ((← IO.getEnv v.name).map fun value => (v.name, value))
  pure (entries.filterMap fun entry => entry)

/-- Prints a log row. -/
def printRow (row : LogRow) : IO Unit := do
  match row.record.toJson (.string (logTime (← now))) with
  | .ok document => IO.eprintln document.line
  | .error _ => pure ()

/-- Prints the counters of a run that took some seconds. -/
def printMetrics (metrics : Metrics) (seconds : Float) : IO Unit := do
  match { metrics with duration := .ofFloat seconds }.text with
  | .ok text => IO.print text
  | .error _ => pure ()

/-- Prints what a run leaves behind; `seconds` is the time that it took. -/
def printTranscript (t : Command.Transcript) (seconds : Float) : IO Unit := do
  for notice in t.shown do
    IO.eprintln notice
  for row in t.logged do
    printRow row
  match t.usageError with
  | some message => IO.eprintln message
  | none => pure ()
  match t.printed with
  | .nothing => pure ()
  | .help usage => IO.println usage
  | .document value => IO.println value.pretty
  | .measured value metrics =>
    IO.println value.pretty
    printMetrics metrics seconds

end PathTriage.Main

/-- Runs the program on the command line. -/
def main (args : List String) : IO UInt32 := do
  let time := PathTriage.Main.timestamp (← PathTriage.Main.now)
  let started ← IO.monoMsNow
  let env ← PathTriage.Main.environment
  match ← PathTriage.Command.run PathTriage.Main.look env time { awaited := true } args with
  | .error fault =>
    IO.eprintln (fault.message)
    pure 1
  | .ok t =>
    let finished ← IO.monoMsNow
    PathTriage.Main.printTranscript t (PathTriage.Binary64.ofRatio (finished - started : Nat) 1000)
    pure (UInt32.ofNat t.exit)
