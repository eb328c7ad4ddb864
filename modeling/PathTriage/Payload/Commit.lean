import PathTriage.Model.Commit
import PathTriage.Payload.Field

/-!
Payloads of commit histories.
-/

namespace PathTriage.Payload

/-- The rating of a commit. -/
def commitIntent : Check CommitIntent :=
  object "CommitIntentBody" fun f =>
    CommitIntent.mk
      <$> optional f "business_value" 0.5 unitNumber
      <*> optional f "risk_level" 0.5 unitNumber
      <*> optional f "urgency" 0.5 unitNumber

/-- A timestamp; null and the empty text stand for none. -/
def timestamp : Check (Option String) := fun v =>
  (textOrNull v).map fun t => t.filter fun s => !s.isEmpty

/-- A commit, with each keyword once. -/
def commit : Check Commit :=
  object "CommitAnalysisBody" fun f =>
    Commit.mk
      <$> required f "hash" nonEmptyText
      <*> optional f "message" "" text
      <*> optional f "author" "" text
      <*> (List.eraseDups <$> optional f "keywords" [] (list text))
      <*> optional f "commit_type" .other (member CommitKind)
      <*> optional f "intent" {} commitIntent
      <*> optional f "files_changed" [] (list text)
      <*> optional f "lines_added" 0 (integerFrom 0)
      <*> optional f "lines_deleted" 0 (integerFrom 0)
      <*> optional f "timestamp" none timestamp

/-- A list of commits. -/
def commitHistory : Check (List Commit) :=
  object "CommitHistoryBody" fun f => optional f "commits" [] (list commit)

end PathTriage.Payload
