import PathTriage.Model.Named

/-!
The architectural layer that a class and its methods belong to.
-/

namespace PathTriage

/-- An architectural layer. -/
inductive Layer where
  | controller
  | service
  | repository
  | mapper
  | entity
  | dto
  | vo
  | util
  | config
  | component
  | test
  | other
  | unknown
deriving Repr, DecidableEq, Inhabited

namespace Layer

instance : Named Layer where
  all := [.controller, .service, .repository, .mapper, .entity, .dto, .vo, .util, .config,
    .component, .test, .other, .unknown]
  name
    | .controller => "CONTROLLER"
    | .service => "SERVICE"
    | .repository => "REPOSITORY"
    | .mapper => "MAPPER"
    | .entity => "ENTITY"
    | .dto => "DTO"
    | .vo => "VO"
    | .util => "UTIL"
    | .config => "CONFIG"
    | .component => "COMPONENT"
    | .test => "TEST"
    | .other => "OTHER"
    | .unknown => "UNKNOWN"

/-- The layers that reach stored data. -/
def accessesData (l : Layer) : Bool := l == .repository || l == .mapper

/-- The layers that describe data. -/
def modelsData (l : Layer) : Bool := l == .entity || l == .dto || l == .vo

/-- The depth of a layer in the calling order; calls should go one step down. Layers outside the
    order lie far below all others. -/
def depth : Layer → Int
  | .controller => 1
  | .service => 2
  | .repository => 3
  | .entity => 4
  | .util => 5
  | _ => 999

/-- The direct calls between layers that are forbidden. -/
def forbidsCall : Layer → Layer → Bool
  | .controller, .repository => true
  | .service, .controller => true
  | .repository, .service => true
  | _, _ => false

end Layer
end PathTriage
