import PathTriage.Condition
import PathTriage.Json.Arithmetic

/-!
The arithmetic that scores are computed in.

Every score formula of this library is written once, over a `Scalar`. A scalar type comes with the
effects that computing with it may have. Formulas run on values as they were given, where an
operation may fail, and are evaluated in exactly the order in which they are written; the same
formula can be read over an exact field, without effects and with any function in the place of the
logarithm. A constant of a formula is a quotient of integers, so it means the same number in every
reading, up to rounding in the machine.

A formula is a computation of type `m α`. The four operators are lifted to computations: the left
operand is computed first.
-/

namespace PathTriage

/-- Numbers that scores are computed with, and the effects of computing with them. -/
class Scalar (m : outParam (Type → Type)) (α : Type) where
  /-- A value as it was given. -/
  given : Json → α
  /-- An integer. -/
  ofInt : Int → α
  /-- The number nearest to the quotient of an integer and a positive natural number. -/
  ofRatio : Int → Nat → α
  add : α → α → m α
  sub : α → α → m α
  mul : α → α → m α
  div : α → α → m α
  /-- A power with a natural exponent. -/
  pow : α → Nat → m α
  /-- How many decades a count spans: `ln (n + 1) / ln 10`. -/
  decades : α → m α
  /-- Whether two numbers stand in a relation. -/
  holds : Relation → α → α → m Bool
  /-- The order by which numbers are sorted. -/
  lt : α → α → Bool
  /-- Goes on unless there is a cause of failure. -/
  guard : Option Failure → m Unit

/-- Goes on unless there is a cause of failure. -/
def Failure.stop : Option Failure → Except Failure Unit
  | some cause => .error cause
  | none => .ok ()

/-- Values as they were given: what is no number makes an operation fail. -/
instance Json.instScalar : Scalar (Except Failure) Json where
  given v := v
  ofInt := .ofInt
  ofRatio n d := .ofFloat (Binary64.ofRatio n d)
  add := Json.add
  sub := Json.sub
  mul := Json.mul
  div := Json.div
  pow := Json.pow
  decades := Json.decades
  holds := Json.holds
  lt := Json.lt
  guard := Failure.stop

namespace Scalar

variable {m : Type → Type} [Monad m] {α : Type} [Scalar m α]

/-! ## Operators -/

instance instAdd : Add (m α) := ⟨fun a b => do Scalar.add (← a) (← b)⟩

instance instSub : Sub (m α) := ⟨fun a b => do Scalar.sub (← a) (← b)⟩

instance instMul : Mul (m α) := ⟨fun a b => do Scalar.mul (← a) (← b)⟩

instance instDiv : Div (m α) := ⟨fun a b => do Scalar.div (← a) (← b)⟩

/-! ## Constants and given values -/

/-- An integer. -/
def whole (n : Int) : m α := pure (ofInt n)

/-- A number of hundredths: `hundredths 35` is `0.35`. -/
def hundredths (n : Nat) : m α := pure (ofRatio n 100)

/-- Zero. -/
def zero : m α := pure (ofRatio 0 1)

/-- One. -/
def one : m α := pure (ofRatio 1 1)

/-- What was measured, as it was given. -/
def measured (v : Json) : m α := pure (given v)

/-- How many decades a given count spans. -/
def decadesOf (v : Json) : m α := Scalar.decades (given v)

/-- The number of elements of a given value. -/
def sizeOf (v : Json) : m α := do
  Scalar.guard (α := α) v.sizeFailure?
  whole v.size

/-- The quotient of two counts. -/
def quotient (part total : Nat) : m α := Scalar.div (ofInt part) (ofInt total)

/-! ## Comparison -/

/-- Whether two computed numbers stand in a relation. -/
def test (r : Relation) (a b : m α) : m Bool := do Scalar.holds r (← a) (← b)

/-- `x`, or `hi` when `x` is not below it. -/
def atMost (hi x : m α) : m α := do
  let hi ← hi
  let x ← x
  if ← Scalar.holds .below x hi then pure x else pure hi

/-- `x`, or `lo` when `x` is not above it. -/
def atLeast (lo x : m α) : m α := do
  let lo ← lo
  let x ← x
  if ← Scalar.holds .above x lo then pure x else pure lo

/-- `x` brought into the interval from `lo` to `hi`; when they are crossed, `lo` wins. -/
def clamp (lo hi x : m α) : m α := atLeast lo (atMost hi x)

/-- `x` brought into the unit interval. -/
def unit (x : m α) : m α := clamp zero one x

/-- `x`, but at most one. -/
def capped (x : m α) : m α := atMost one x

/-- The largest of some numbers, the first one to start with. -/
def largest (first : α) : List α → m α
  | [] => pure first
  | x :: rest => do
    if ← Scalar.holds .above x first then largest x rest else largest first rest

/-- The score of the first band whose bound the value does not exceed, else `above`. -/
def band (bands : List (α × α)) (above value : α) : m α :=
  match bands with
  | [] => pure above
  | (bound, score) :: rest => do
    if ← Scalar.holds .atMost value bound then pure score else band rest above value

/-- The score, in hundredths, of the first band whose whole bound a number does not exceed. -/
def grade (bands : List (Int × Nat)) (above : Nat) (value : m α) : m α := do
  band (bands.map fun b => (ofInt b.1, ofRatio b.2 100)) (ofRatio above 100) (← value)

/-! ## Sums and means -/

/-- The sum from left to right. -/
def sum (xs : List α) : m α := xs.foldlM Scalar.add (ofInt 0)

/-- The sum of computed numbers, all of which are computed first. -/
def total (xs : List (m α)) : m α := do sum (← xs.mapM fun x => x)

/-- The arithmetic mean, zero for no numbers. All numbers are computed first. -/
def mean (xs : List (m α)) : m α := do
  let items ← xs.mapM fun x => x
  if items.isEmpty then zero else do Scalar.div (← sum items) (ofInt items.length)

/-- Part of a whole; zero when there is no whole. -/
def share (part total : Nat) : m α := if total = 0 then zero else quotient part total

/-- The mean over elements that count one when they satisfy a condition and `other` when they do
    not. -/
def meanOf {β : Type} (p : β → Bool) (other : m α) (xs : List β) : m α :=
  mean (xs.map fun x => if p x then one else other)

/-- The mean over elements that count one when they satisfy `p` and zero when they do not. -/
def meanWhere {β : Type} (p : β → Bool) (xs : List β) : m α := meanOf p zero xs

/-- The mean over elements that count one when they satisfy a condition, zero when they do not. -/
def meanIf {β : Type} (p : β → m Bool) (xs : List β) : m α :=
  mean (xs.map fun x => do if ← p x then one else zero)

/-- The exact sum of counts. -/
def totalCount (xs : List Nat) : Nat := xs.foldr (· + ·) 0

end Scalar
end PathTriage
