import PathTriage.Model.Change
import PathTriage.Payload.Field

/-!
Payloads of file changes.
-/

namespace PathTriage.Payload

/-- A change to a file. -/
def fileChange : Check FileChange :=
  object "FileChangeBody" fun f =>
    FileChange.mk
      <$> required f "file_path" nonEmptyText
      <*> required f "change_type" (member ChangeKind)
      <*> optional f "modified_methods" [] (list text)
      <*> optional f "added_methods" [] (list text)
      <*> optional f "deleted_methods" [] (list text)
      <*> optional f "old_path" none textOrNull

/-- A list of changes. -/
def changeBatch : Check (List FileChange) :=
  object "FileChangeBatchBody" fun f => optional f "changes" [] (list fileChange)

end PathTriage.Payload
