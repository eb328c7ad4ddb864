import PathTriage.Model.Link
import PathTriage.Model.Method

/-!
Call paths: methods in calling order, with a slot for the call of every hop.

Slot `i` belongs to the hop from method `i` to method `i + 1`; it is empty when no call is known for
the hop. A path of `n` methods has exactly `n - 1` slots.
-/

namespace PathTriage

/-- The class that an analysis gives to a path. -/
inductive PathClass where
  | golden
  | risk
  | critical
  | neutral
deriving Repr, DecidableEq, Inhabited

instance : Named PathClass where
  all := [.golden, .risk, .critical, .neutral]
  name
    | .golden => "GOLDEN_PATH"
    | .risk => "RISK_PATH"
    | .critical => "CRITICAL_PATH"
    | .neutral => "NEUTRAL_PATH"

/-- A walk through the call graph. -/
structure CallPath where
  id : String
  methods : List Method
  slots : List (Option Call)
  pathClass : PathClass := .neutral
  totalWeight : Json := .ofFloat 0
  slots_length : slots.length = methods.length - 1

namespace CallPath

/-- More calls were given than a path has hops. -/
structure Overfull where
  id : String
  calls : Nat
  methods : Nat
deriving Repr, DecidableEq

/-- The message of an overfull path. -/
def Overfull.message (e : Overfull) : String :=
  s!"path {e.id} has {e.calls} edges for {e.methods} methods"

/-- A path over methods with calls for its first hops; hops without a given call have an empty
    slot. -/
def build (id : String) (methods : List Method) (calls : List (Option Call)) :
    Except Overfull CallPath :=
  if h : calls.length ≤ methods.length - 1 then
    .ok
      { id, methods
        slots := calls ++ List.replicate (methods.length - 1 - calls.length) none
        slots_length := by simp; omega }
  else .error ⟨id, calls.length, methods.length⟩

/-- The path over methods whose slot for each hop is found by a look-up on the two ends. -/
def along (id : String) (methods : List Method) (call? : Method → Method → Option Call) :
    CallPath :=
  { id, methods
    slots := (methods.zip methods.tail).map fun hop => call? hop.1 hop.2
    slots_length := by simp [List.length_zip] }

/-- The ids of the methods in order. -/
def methodIds (p : CallPath) : List String := p.methods.map (·.id)

/-- The number of hops. -/
def hops (p : CallPath) : Nat := p.methods.length - 1

/-- The calls that are there. -/
def presentCalls (p : CallPath) : List Call := p.slots.filterMap fun slot => slot

/-- The hops of the path with their slots. -/
def steps (p : CallPath) : List ((Method × Method) × Option Call) :=
  (p.methods.zip p.methods.tail).zip p.slots

/-- The calls that are evidence for their hop: they connect its two methods, and `known` still has
    them. -/
def resolvedCalls (known : String → String → Bool) (p : CallPath) : List Call :=
  p.steps.filterMap fun step =>
    step.2.filter fun c =>
      c.caller == step.1.1.id && c.callee == step.1.2.id && known c.caller c.callee

end CallPath
end PathTriage
