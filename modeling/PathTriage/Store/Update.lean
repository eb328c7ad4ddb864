import PathTriage.Model.Change
import PathTriage.Store.Basic
import PathTriage.Telemetry.Event

/-!
Incremental maintenance of a store from a list of file changes.

Each change is applied on its own. A change that fails is reported and does not stop the others.
Added and modified files are analysed again when an analyser is given; the nodes and outgoing calls
of a modified file are then replaced, and the links from other files are restored where both ends
survive.
-/

namespace PathTriage

/-- A source analyser: the analysis of a file, or the reason why there is none. -/
abbrev Analyzer := String → Except String FileAnalysis

/-- Why a change could not be applied. -/
inductive ChangeFailure where
  | renameWithoutOldPath
  | noAnalysis (reason : String)
deriving Repr, DecidableEq

/-- The message of a failed change. -/
def ChangeFailure.message : ChangeFailure → String
  | .renameWithoutOldPath => "rename requires old_path"
  | .noAnalysis reason => reason

/-- How many nodes and links a change affected. -/
structure Tally where
  nodes : Nat := 0
  links : Nat := 0
deriving Repr, DecidableEq

/-- The sum of two tallies. -/
def Tally.add (a b : Tally) : Tally := ⟨a.nodes + b.nodes, a.links + b.links⟩

/-- The result of a list of changes. -/
structure UpdateResult where
  tally : Tally := {}
  errors : List String := []
deriving Repr, DecidableEq

/-- Whether all changes were applied. -/
def UpdateResult.success (r : UpdateResult) : Bool := r.errors.isEmpty

namespace Store

/-- A store on the way through a change, with what was affected and what was reported so far. -/
structure Progress where
  store : Store
  tally : Tally := {}
  events : List Event := []

/-- Goes on from the removal of a method: it counts as one node if it is stored, and its links as
    many as are gone with it. -/
def Progress.removeMethod (p : Progress) (id : String) : Progress :=
  if p.store.hasMethod id then
    let rest := p.store.removeMethod id
    { p with store := rest, tally := p.tally.add ⟨1, p.store.linkCount - rest.linkCount⟩ }
  else p

/-- Goes on from the removal of a file: of its methods one after the other, and of its classes, each
    of which counts as one node. -/
def Progress.removeFile (p : Progress) (filePath : String) : Progress :=
  let bare := (p.store.methodsOf filePath).foldl Progress.removeMethod p
  { bare with
    store := bare.store.removeClassesOf filePath
    tally := bare.tally.add ⟨(bare.store.classesOf filePath).length, 0⟩ }

/-- The removal of a file: what it leaves, and what it counts. -/
def removal (s : Store) (filePath : String) : Progress :=
  ({ store := s } : Progress).removeFile filePath

/-- Reports the links that a store does not take in. -/
def skipped (s : Store) (links : List (Arrow × String)) : List Event :=
  (links.filter fun l => !s.knows l.1).map fun l => .skippedLink l.2

/-- The number of links that a store takes in. -/
def accepted (s : Store) (links : List (Arrow × String)) : Nat := links.countP fun l => s.knows l.1

/-- The ends and labels of calls. -/
def callLabels (calls : List Call) : List (Arrow × String) := calls.map fun c => (c.ends, c.label)

/-- Goes on from an analysed file: its nodes, and those of its calls that are taken in. -/
def Progress.apply (p : Progress) (a : FileAnalysis) : Progress :=
  let nodes := p.store.putNodes a
  let calls := callLabels a.callLinks
  { store := p.store.applyAnalysis a
    tally := p.tally.add ⟨a.classes.length + a.methods.length, nodes.accepted calls⟩
    events := p.events ++ nodes.skipped calls }

/-- The links that outlive the replacement of a file: calls into it from outside, and
    implementations and data flows at one of its methods. -/
structure Kept where
  calls : List Call
  implementations : List Implementation
  dataFlows : List DataFlow

/-- The links to keep when the given methods are replaced. -/
def kept (s : Store) (owned : List String) : Kept where
  calls := (s.calls.toList.filter fun e =>
    owned.contains e.1.target && !owned.contains e.1.source).map (·.2)
  implementations := (s.implementations.toList.filter fun e =>
    owned.contains e.1.source || owned.contains e.1.target).map (·.2)
  dataFlows := (s.dataFlows.toList.filter fun e =>
    owned.contains e.1.source || owned.contains e.1.target).map (·.2)

/-- The ends and labels of the links to keep. -/
def Kept.labels (k : Kept) : List (Arrow × String) :=
  callLabels k.calls ++ k.implementations.map (fun i => (i.ends, i.label))
    ++ k.dataFlows.map fun f => (f.ends, f.label)

/-- Takes the kept links in again. -/
def restore (s : Store) (k : Kept) : Store :=
  k.dataFlows.foldl addDataFlow
    (k.implementations.foldl addImplementation (k.calls.foldl addCall s))

/-- Replaces what a file owns by a new analysis of it. -/
def replaceFile (s : Store) (a : FileAnalysis) : Store :=
  ((s.removeFile a.filePath).applyAnalysis a).restore (s.kept (s.methodsOf a.filePath))

/-- Goes on from the replacement of a file. -/
def Progress.replace (p : Progress) (a : FileAnalysis) : Progress :=
  let links := (p.store.kept (p.store.methodsOf a.filePath)).labels
  let applied := ({ p with store := p.store.removeFile a.filePath } : Progress).apply a
  { store := p.store.replaceFile a
    tally := applied.tally.add ⟨0, applied.store.accepted links⟩
    events := applied.events ++ applied.store.skipped links }

/-- Applies the analysis that a change asks for, if there is an analyser; else counts the methods
    that the change lists. -/
def Progress.reanalyze (p : Progress) (analyzer : Option Analyzer) (change : FileChange)
    (take : Progress → FileAnalysis → Progress) : Progress × Option ChangeFailure :=
  match analyzer with
  | none =>
    let listed := change.addedMethods.length + change.modifiedMethods.length
    ({ p with tally := p.tally.add ⟨listed, 0⟩ }, none)
  | some analyze =>
    match analyze change.filePath with
    | .ok a => (take p a, none)
    | .error reason => (p, some (.noAnalysis reason))

/-- Removes the methods that a change lists as deleted. -/
def Progress.dropListed (p : Progress) (change : FileChange) : Progress :=
  change.deletedMethods.foldl Progress.removeMethod p

/-- Applies one change. When it fails, the store is as far as the change got. -/
def applyChange (s : Store) (analyzer : Option Analyzer) (change : FileChange) :
    Progress × Option ChangeFailure :=
  let start : Progress := { store := s }
  match change.kind with
  | .renamed =>
    match change.oldPath with
    | none => (start, some .renameWithoutOldPath)
    | some old =>
      if old.isEmpty then (start, some .renameWithoutOldPath)
      else
        ({ start with
            store := s.renameFile old change.filePath
            tally := ⟨s.ownedCount old, 0⟩ }, none)
  | .deleted => ((start.removeFile change.filePath).dropListed change, none)
  | .added => (start.dropListed change).reanalyze analyzer change Progress.apply
  | .modified => (start.dropListed change).reanalyze analyzer change Progress.replace

/-- A store on the way through a list of changes. -/
structure UpdateProgress where
  store : Store
  result : UpdateResult := {}
  events : List Event := []

/-- Goes on by one change. -/
def UpdateProgress.step (analyzer : Option Analyzer) (u : UpdateProgress) (change : FileChange) :
    UpdateProgress :=
  match u.store.applyChange analyzer change with
  | (p, none) =>
    { store := p.store
      result := { u.result with tally := u.result.tally.add p.tally }
      events := u.events ++ p.events }
  | (p, some failure) =>
    { store := p.store
      result := { u.result with
        errors := u.result.errors ++
          ["Error updating " ++ change.filePath ++ ": " ++ failure.message] }
      events := u.events ++ p.events ++ [.updateFailed change.filePath failure.message] }

/-- Applies a list of changes one after the other. -/
def update (s : Store) (analyzer : Option Analyzer) (changes : List FileChange) : UpdateProgress :=
  changes.foldl (UpdateProgress.step analyzer) { store := s }

end Store
end PathTriage
