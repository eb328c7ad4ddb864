import PathTriage.Store.Basic
import PathTriage.Telemetry.Event

/-!
Building a store from the analyses of all files of a project. Nodes come first and calls second, so
that calls between files find their ends whatever the order of the files.
-/

namespace PathTriage.Store

/-- The store with the nodes of all files. -/
def ofNodes (files : List FileAnalysis) : Store := files.foldl putNodes empty

/-- The store of a project. -/
def ofFiles (files : List FileAnalysis) : Store :=
  (files.flatMap (·.callLinks)).foldl addCall (ofNodes files)

/-- Reports the calls whose ends are not both in the project. -/
def danglingCalls (files : List FileAnalysis) : List Event :=
  ((files.flatMap (·.callLinks)).filter fun c => !(ofNodes files).knows c.ends).map fun c =>
    .skippedLink c.label

end PathTriage.Store
