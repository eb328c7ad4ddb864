import PathTriage.Telemetry.Event
import PathTriage.Text.Template.Fill

/-!
Log records and the documents that are printed for them.

A record has a template for its message and the values to fill it with. Of the fields attached to a
record only five are known, and a field without a value is left out.
-/

namespace PathTriage

/-- A record of the log, of any level and source. -/
structure LogRecord where
  source : String
  level : Int
  template : String
  values : List Json := []
  failure : Option String := none
  attached : Fields Json := []

namespace LogRecord

/-- The attached fields that are printed. -/
def knownFields : List String := ["path_id", "method_id", "file_path", "duration_ms", "path_count"]

/-- A known field, if it has a value. -/
def attachedField (r : LogRecord) (key : String) : Option (String × Json) :=
  match Fields.get? key r.attached with
  | none => none
  | some .null => none
  | some v => some (key, v)

/-- The document of a record printed at a time. -/
def toJson (r : LogRecord) (time : Json) : Except Text.Template.FillError Json :=
  (Text.Template.fill r.template r.values).map fun message => .object <|
    [("timestamp", time), ("level", .string (Severity.levelName r.level)),
     ("logger", .string r.source), ("message", .string message)]
      ++ (r.failure.map fun text => ("exception", Json.string text)).toList
      ++ knownFields.filterMap r.attachedField

end LogRecord

/-- The record of a row. Its message stands for itself. -/
def LogRow.record (row : LogRow) : LogRecord where
  source := row.source
  level := row.severity.number
  template := row.message
  attached :=
    (row.pathId.map fun id => ("path_id", Json.string id)).toList
      ++ (row.filePath.map fun path => ("file_path", Json.string path)).toList
      ++ (row.pathCount.map fun n => ("path_count", Json.ofInt n)).toList

end PathTriage
