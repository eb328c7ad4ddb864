import PathTriage.Model.Named

/-!
Changes to source files.
-/

namespace PathTriage

/-- What happened to a file. -/
inductive ChangeKind where
  | added
  | modified
  | deleted
  | renamed
deriving Repr, DecidableEq, Inhabited

instance : Named ChangeKind where
  all := [.added, .modified, .deleted, .renamed]
  name
    | .added => "ADDED"
    | .modified => "MODIFIED"
    | .deleted => "DELETED"
    | .renamed => "RENAMED"

/-- A change to one file, with the methods it lists. Only a renamed file has an old path. -/
structure FileChange where
  filePath : String
  kind : ChangeKind
  modifiedMethods : List String := []
  addedMethods : List String := []
  deletedMethods : List String := []
  oldPath : Option String := none
deriving Repr

end PathTriage
