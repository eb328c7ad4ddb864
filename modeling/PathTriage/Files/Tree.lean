import PathTriage.Files
import PathTriage.Json.Value

/-!
A tree of files held in memory, as a table from relative paths to files and directories. Every path
that leads to an entry makes directories of the places on its way. Around the tree there is nothing
but the directories above it.

A path is followed part by part. A part that is empty or a dot stays where it is, two dots lead to
the directory above, and any other part leads to an entry of the directory. Only a directory can be
followed further.
-/

namespace PathTriage

/-- A table of files and directories. -/
structure FileTree where
  entries : List (List String × FileEntry)

/-- A directory on the way: one of the tree, by its parts with the last one first, or one above
    it. -/
inductive Place where
  | inside (above : List String)
  | outside
deriving Repr, DecidableEq

namespace Path

/-- The most bytes that the name of an entry may have. -/
def maxName : Nat := 255

/-- The most bytes that a path may have. -/
def maxLength : Nat := 4095

end Path

namespace FileTree

/-- The tree of a table by path. -/
def ofFields (table : Fields FileEntry) : FileTree := ⟨table.map fun e => (Path.parts e.1, e.2)⟩

/-- The entry at a place of the tree. -/
def entry (t : FileTree) (place : List String) : FileEntry :=
  match t.entries.find? fun e => e.1 == place with
  | some e => e.2
  | none => if t.entries.any fun e => place.isPrefixOf e.1 then .directory else .missing

/-- The directory above a place. -/
def above : Place → Place
  | .inside (_ :: rest) => .inside rest
  | _ => .outside

/-- Follows the parts of a path from a place on. -/
def follow (t : FileTree) : Place → List String → FileEntry
  | _, [] => .directory
  | place, part :: rest =>
    if part == "" || part == "." then follow t place rest
    else if part == ".." then follow t (above place) rest
    else if Path.maxName < part.utf8ByteSize then .nameTooLong
    else
      match place with
      | .outside => .missing
      | .inside names =>
        match t.entry (part :: names).reverse with
        | .directory => follow t (.inside (part :: names)) rest
        | .file bytes => if rest.isEmpty then .file bytes else .notDirectory
        | other => other

/-- What a path leads to. A path that starts with a slash starts above the tree. -/
def look (t : FileTree) (path : String) : FileEntry :=
  if path.toList.contains '\x00' then .invalidName
  else if path.isEmpty then .missing
  else if Path.maxLength < path.utf8ByteSize then .nameTooLong
  else
    follow t (if path.startsWith "/" then .outside else .inside []) (path.splitOn "/")

end FileTree
end PathTriage
