import PathTriage.Json.Value
import PathTriage.Model.Named

/-!
Links between methods: calls, implementations of interface methods, and flows of data. A link knows
its two ends by id; its further attributes are kept as they were given.
-/

namespace PathTriage

/-- How a call is made. -/
inductive CallKind where
  | direct
  | interface
  | reflection
  | lambda
  | methodRef
deriving Repr, DecidableEq, Inhabited

instance : Named CallKind where
  all := [.direct, .interface, .reflection, .lambda, .methodRef]
  name
    | .direct => "DIRECT"
    | .interface => "INTERFACE"
    | .reflection => "REFLECTION"
    | .lambda => "LAMBDA"
    | .methodRef => "METHOD_REF"

/-- How data flows from one method to another. -/
inductive FlowKind where
  | parameter
  | returnValue
  | fieldAccess
  | sharedState
deriving Repr, DecidableEq, Inhabited

instance : Named FlowKind where
  all := [.parameter, .returnValue, .fieldAccess, .sharedState]
  name
    | .parameter => "PARAMETER"
    | .returnValue => "RETURN_VALUE"
    | .fieldAccess => "FIELD_ACCESS"
    | .sharedState => "SHARED_STATE"

/-- A call of one method by another. -/
structure Call where
  caller : String
  callee : String
  kind : CallKind := .direct
  line : Json := .ofInt 0
  frequency : Json := .ofInt 1
  isConditional : Json := .bool false
  context : Json := .null
  intentWeight : Json := .ofFloat 0.5
  riskWeight : Json := .ofFloat 0.5
  isNew : Json := .bool false
  isModified : Json := .bool false

/-- An interface method and a method that implements it. -/
structure Implementation where
  interfaceMethod : String
  method : String
  isOverride : Json := .bool true
  quality : Json := .ofFloat 1
  followsContract : Json := .bool true

/-- Data that flows from one method to another. -/
structure DataFlow where
  source : String
  target : String
  dataType : Json := .string ""
  kind : FlowKind := .parameter
  isSensitive : Json := .bool false

/-- The label of a call. -/
def Call.label (c : Call) : String := c.caller ++ " -> " ++ c.callee

/-- The label of an implementation. -/
def Implementation.label (i : Implementation) : String := i.interfaceMethod ++ " <- " ++ i.method

/-- The label of a data flow. -/
def DataFlow.label (f : DataFlow) : String := f.source ++ " ~> " ++ f.target

end PathTriage
