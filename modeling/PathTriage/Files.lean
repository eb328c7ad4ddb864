import PathTriage.Json.Reader
import PathTriage.Text.Lines
import PathTriage.Text.Quoted

/-!
Files as the library sees them: a path leads nowhere, to a directory or to bytes. How a path is
looked up is left to the caller, so that the same program runs on a disk and on a table of files.
-/

namespace PathTriage

/-- What a path leads to. -/
inductive FileEntry where
  | missing
  | notDirectory
  | nameTooLong
  | invalidName
  | directory
  | file (bytes : ByteArray)

/-- Why the text of a file is not available. -/
inductive FileError where
  | missing (path : String)
  | notDirectory (path : String)
  | isDirectory (path : String)
  | nameTooLong (path : String)
deriving Repr, DecidableEq

/-- The message of a file that cannot be read. -/
def FileError.message : FileError → String
  | .missing path => "[Errno 2] No such file or directory: " ++ Text.Quoted.render path
  | .notDirectory path => "[Errno 20] Not a directory: " ++ Text.Quoted.render path
  | .isDirectory path => "[Errno 21] Is a directory: " ++ Text.Quoted.render path
  | .nameTooLong path => "[Errno 36] File name too long: " ++ Text.Quoted.render path

/-- What makes a program break off over a file. -/
inductive FileFault where
  /-- The bytes of the file are no UTF-8 text. -/
  | notText
  /-- The file exceeds a limit of the reader. -/
  | limit (l : Json.Limit)
  /-- The name of the file holds a character that no name may hold. -/
  | invalidName
  /-- The name of the file is too long to be looked up. -/
  | nameTooLong
deriving Repr, DecidableEq

/-- The message of a fault. -/
def FileFault.message : FileFault → String
  | .notText => "a file is not UTF-8 text"
  | .limit l => l.message
  | .invalidName => "embedded null byte"
  | .nameTooLong => "a file name is too long"

/-- Why a JSON file gives no value. -/
inductive DocumentError where
  | file (e : FileError)
  | json (e : Json.ReadError)
  | fault (e : FileFault)
deriving Repr, DecidableEq

/-- The error of a text that gives no value. -/
def DocumentError.ofRead : Json.ReadFailure → DocumentError
  | .fault e => .json e
  | .limit l => .fault (.limit l)

namespace FileEntry

/-- Whether a path leads anywhere, if that can be told. -/
def isThere : FileEntry → Except FileFault Bool
  | .nameTooLong => .error .nameTooLong
  | .directory | .file _ => .ok true
  | .missing | .notDirectory | .invalidName => .ok false

/-- The characters of a file, with all line ends turned into line feeds. -/
def readChars (path : String) : FileEntry → Except DocumentError (List Char)
  | .missing => .error (.file (.missing path))
  | .notDirectory => .error (.file (.notDirectory path))
  | .nameTooLong => .error (.file (.nameTooLong path))
  | .invalidName => .error (.fault .invalidName)
  | .directory => .error (.file (.isDirectory path))
  | .file bytes =>
    match String.fromUTF8? bytes with
    | some text => .ok (Text.Lines.newlines text.toList)
    | none => .error (.fault .notText)

/-- The value of a JSON file. -/
def readJson (path : String) (entry : FileEntry) : Except DocumentError Json :=
  match entry.readChars path with
  | .error e => .error e
  | .ok cs => (Json.read cs).mapError .ofRead

end FileEntry

namespace Path

/-- The parts of a path between slashes, without empty ones and without dots for the same place. -/
def parts (path : String) : List String :=
  (path.splitOn "/").filter fun part => part != "" && part != "."

/-- The root that a path starts from: none, one slash, or exactly two. -/
def root (path : String) : String :=
  match path.toList with
  | '/' :: '/' :: '/' :: _ => "/"
  | '/' :: '/' :: _ => "//"
  | '/' :: _ => "/"
  | _ => ""

/-- The simplest spelling of a path: no repeated slashes, no dots for the same place, no slash at
    the end. -/
def tidy (path : String) : String :=
  let text := root path ++ "/".intercalate (parts path)
  if text.isEmpty then "." else text

end Path
end PathTriage
