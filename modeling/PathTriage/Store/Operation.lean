import PathTriage.Store.Query
import PathTriage.Store.Update

/-!
The operations on a store as data, what they answer, and the stores that they lead to from the empty
one.

A store is a value, so a copy of it is the store itself, and what is done to the one is not seen in
the other: a snapshot leaves the store as it is.
-/

namespace PathTriage

/-- An operation that may change a store. -/
inductive StoreOperation where
  | putMethod (m : Method)
  | putClass (c : ClassEntry)
  | addCall (c : Call)
  | addImplementation (i : Implementation)
  | addDataFlow (f : DataFlow)
  | setRisk (id : String) (score : Json)
  | refreshRisks (history : Option ProjectHistory)
  | applyAnalysis (a : FileAnalysis)
  | update (analyzer : Option Analyzer) (changes : List FileChange)
  | removeFile (filePath : String)
  | renameFile (old new : String)
  | clear
  | snapshot

/-- What an operation answers. -/
inductive StoreAnswer where
  | nothing
  /-- Whether a link was taken in, or a score was. -/
  | taken (accepted : Bool)
  /-- The risks that methods were given, or why one of them has none. -/
  | risks (found : Except Failure (List (String × Json)))
  /-- The number of nodes that were stored, removed or moved. -/
  | nodes (count : Nat)
  | updated (result : UpdateResult)

/-- What an operation comes to: the store after it, its answer and its reports. -/
structure StoreEffect where
  store : Store
  answer : StoreAnswer := .nothing
  events : List Event := []

/-- The effect of adding a link with these ends, when `added` is the store with it. -/
def Store.takeLink (s : Store) (ends : Arrow) (label : String) (added : Store) : StoreEffect where
  store := added
  answer := .taken (s.knows ends)
  events := s.skipped [(ends, label)]

/-- The effect of an operation. -/
def StoreOperation.effect (s : Store) : StoreOperation → StoreEffect
  | .putMethod m => { store := s.putMethod m }
  | .putClass c => { store := s.putClass c }
  | .addCall c => s.takeLink c.ends c.label (s.addCall c)
  | .addImplementation i => s.takeLink i.ends i.label (s.addImplementation i)
  | .addDataFlow f => s.takeLink f.ends f.label (s.addDataFlow f)
  | .setRisk id score => { store := s.setRisk id score, answer := .taken (s.hasMethod id) }
  | .refreshRisks history =>
    let (after, found) := s.refreshRisks history
    { store := after, answer := .risks found }
  | .applyAnalysis a =>
    let p := ({ store := s } : Store.Progress).apply a
    { store := p.store, answer := .nodes p.tally.nodes, events := p.events }
  | .update analyzer changes =>
    let u := s.update analyzer changes
    { store := u.store, answer := .updated u.result, events := u.events }
  | .removeFile filePath =>
    let p := s.removal filePath
    { store := p.store, answer := .nodes p.tally.nodes, events := p.events }
  | .renameFile old new =>
    { store := s.renameFile old new, answer := .nodes (s.ownedCount old) }
  | .clear => { store := .empty }
  | .snapshot => { store := s }

/-- The store after an operation. -/
def StoreOperation.perform (s : Store) (op : StoreOperation) : Store := (op.effect s).store

/-- A store that some sequence of operations leads to from the empty store. -/
inductive Store.Reachable : Store → Prop
  | empty : Store.Reachable .empty
  | step {s : Store} (h : Store.Reachable s) (op : StoreOperation) : Store.Reachable (op.perform s)

end PathTriage
