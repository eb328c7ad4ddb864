import PathTriage.Graph.Basic
import PathTriage.Model.Analysis

/-!
The store: all known methods and classes by id, and the three kinds of links by their ends.

A method in the store carries the number of its callers and callees; every operation that adds or
removes calls brings these two numbers up to date for the methods it touches. A link is taken in
only when both of its ends are stored methods. The nodes of the graph of calls are kept apart from
the methods, so it takes every operation to keep the two in step.
-/

namespace PathTriage

/-- The ends of a call. -/
def Call.ends (c : Call) : Arrow := ⟨c.caller, c.callee⟩

/-- The ends of an implementation. -/
def Implementation.ends (i : Implementation) : Arrow := ⟨i.interfaceMethod, i.method⟩

/-- The ends of a data flow. -/
def DataFlow.ends (f : DataFlow) : Arrow := ⟨f.source, f.target⟩

/-- Methods, classes and links. -/
@[ext] structure Store where
  methods : Std.ExtTreeMap String Method := ∅
  classes : Std.ExtTreeMap String ClassEntry := ∅
  callNodes : Std.ExtTreeSet String := ∅
  calls : Std.ExtTreeMap Arrow Call := ∅
  implementations : Std.ExtTreeMap Arrow Implementation := ∅
  dataFlows : Std.ExtTreeMap Arrow DataFlow := ∅

namespace Store

/-- The store that holds nothing. -/
def empty : Store := {}

/-! ## Look-ups -/

/-- Whether a method is stored. -/
def hasMethod (s : Store) (id : String) : Bool := s.methods.contains id

/-- The stored method with an id. -/
def method? (s : Store) (id : String) : Option Method := s.methods[id]?

/-- The stored class with an id. -/
def class? (s : Store) (id : String) : Option ClassEntry := s.classes[id]?

/-- The stored call from one method to another. -/
def call? (s : Store) (caller callee : String) : Option Call := s.calls[(⟨caller, callee⟩ : Arrow)]?

/-- Whether a call from one method to another is stored. -/
def hasCall (s : Store) (caller callee : String) : Bool := s.calls.contains ⟨caller, callee⟩

/-- Whether both ends of an arrow are stored methods. -/
def knows (s : Store) (ends : Arrow) : Bool := s.hasMethod ends.source && s.hasMethod ends.target

/-- The number of stored calls of a method by others or itself. -/
def callerCount (s : Store) (id : String) : Nat := s.calls.keys.countP fun a => a.target == id

/-- The number of stored calls that a method makes. -/
def calleeCount (s : Store) (id : String) : Nat := s.calls.keys.countP fun a => a.source == id

/-- The number of links of all kinds. -/
def linkCount (s : Store) : Nat := s.calls.size + s.implementations.size + s.dataFlows.size

/-- The number of methods and classes. -/
def nodeCount (s : Store) : Nat := s.methods.size + s.classes.size

/-- The graph of stored calls. -/
def graph (s : Store) : Graph where
  nodes := s.callNodes.toList
  arrows := s.calls.keys
  nodes_nodup := s.callNodes.distinct_toList.imp fun h heq => h (Std.compare_eq_iff_eq.2 heq)
  arrows_nodup := s.calls.nodup_keys

/-! ## Degrees -/

/-- A method with the degrees that the stored calls give it. -/
def counted (s : Store) (m : Method) : Method :=
  { m with inDegree := .ofInt (s.callerCount m.id), outDegree := .ofInt (s.calleeCount m.id) }

/-- Brings the degrees of some methods up to date. -/
def refresh (s : Store) (ids : List String) : Store :=
  { s with methods := ids.foldl (fun methods id => methods.modify id s.counted) s.methods }

/-! ## Single additions -/

/-- Stores a method in place of the one with the same id, with the degrees of the stored calls. -/
def putMethod (s : Store) (m : Method) : Store :=
  { s with
    methods := s.methods.insert m.id (s.counted m)
    callNodes := s.callNodes.insert m.id }

/-- Stores a class in place of the one with the same id. -/
def putClass (s : Store) (c : ClassEntry) : Store :=
  { s with classes := s.classes.insert c.id c }

/-- Stores a call between stored methods; any other is left out. -/
def addCall (s : Store) (c : Call) : Store :=
  if s.knows c.ends then
    ({ s with
        callNodes := (s.callNodes.insert c.caller).insert c.callee
        calls := s.calls.insert c.ends c } : Store).refresh [c.caller, c.callee]
  else s

/-- Stores an implementation between stored methods; any other is left out. -/
def addImplementation (s : Store) (i : Implementation) : Store :=
  if s.knows i.ends then { s with implementations := s.implementations.insert i.ends i } else s

/-- Stores a data flow between stored methods; any other is left out. -/
def addDataFlow (s : Store) (f : DataFlow) : Store :=
  if s.knows f.ends then { s with dataFlows := s.dataFlows.insert f.ends f } else s

/-- Gives a stored method a risk score. -/
def setRisk (s : Store) (id : String) (score : Json) : Store :=
  { s with methods := s.methods.modify id fun m => { m with riskScore := score } }

/-! ## Analyses -/

/-- Stores the classes and methods of an analysed file. -/
def putNodes (s : Store) (a : FileAnalysis) : Store :=
  a.methodNodes.foldl putMethod (a.classNodes.foldl putClass s)

/-- Stores the classes, methods and calls of an analysed file. -/
def applyAnalysis (s : Store) (a : FileAnalysis) : Store :=
  a.callLinks.foldl addCall (s.putNodes a)

/-! ## Removal -/

/-- The ids at the other ends of the stored calls of a method. -/
def callNeighbours (s : Store) (id : String) : List String :=
  ((s.calls.keys.filter fun a => a.touches id).flatMap fun a => [a.source, a.target]).filter
    (· != id)

/-- Removes a method and all of its links. -/
def removeMethod (s : Store) (id : String) : Store :=
  if s.hasMethod id then
    ({ s with
        methods := s.methods.erase id
        callNodes := s.callNodes.erase id
        calls := s.calls.filter fun a _ => !a.touches id
        implementations := s.implementations.filter fun a _ => !a.touches id
        dataFlows := s.dataFlows.filter fun a _ => !a.touches id } : Store).refresh
      (s.callNeighbours id)
  else s

/-- The ids of the methods that a file owns. -/
def methodsOf (s : Store) (filePath : String) : List String :=
  (s.methods.toList.filter fun e => e.2.isIn filePath).map (·.1)

/-- The ids of the classes that a file owns. -/
def classesOf (s : Store) (filePath : String) : List String :=
  (s.classes.toList.filter fun e => e.2.isIn filePath).map (·.1)

/-- Removes the classes that a file owns. -/
def removeClassesOf (s : Store) (filePath : String) : Store :=
  { s with classes := s.classes.filter fun _ c => !c.isIn filePath }

/-- Removes the methods and classes that a file owns. -/
def removeFile (s : Store) (filePath : String) : Store :=
  ((s.methodsOf filePath).foldl removeMethod s).removeClassesOf filePath

/-! ## Renaming -/

/-- Moves what one file owns to another. -/
def renameFile (s : Store) (old new : String) : Store :=
  { s with
    methods := s.methods.map fun _ m =>
      if m.isIn old then { m with filePath := .string new } else m
    classes := s.classes.map fun _ c =>
      if c.isIn old then { c with filePath := .string new } else c }

/-- The number of methods and classes that a file owns. -/
def ownedCount (s : Store) (filePath : String) : Nat :=
  (s.methodsOf filePath).length + (s.classesOf filePath).length

end Store
end PathTriage
