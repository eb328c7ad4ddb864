import PathTriage.Decimal.Shortest
import PathTriage.Failure

/-!
Numbers as they stand in data: an unbounded integer or a machine number, never silently turned into
each other. Arithmetic on two integers stays exact, except that a quotient is the nearest machine
number; anything that touches a machine number is computed in machine numbers, and an integer that
lies beyond them fails. Comparison is exact across the two kinds.
-/

namespace PathTriage

/-- An integer or a 64-bit floating-point number. -/
inductive Number where
  | int (n : Int)
  | float (x : Float)
deriving Repr, Inhabited

namespace Number

/-- The layout of machine numbers in all output: positional from `0.0001` up to below `10 ^ 16`,
    with an exponent of at least two digits outside that range. -/
def layout : Decimal.Layout := ⟨-4, 16, 2⟩

/-- The text of a number: an integer has no point, a machine number always has one or an
    exponent. -/
def text : Number → String
  | .int n => toString n
  | .float x => layout.text x

/-! ## Order -/

/-- Whether an integer is below an exact binary value; nothing is below or above `nan`. -/
def intLt (n : Int) : Binary64 → Bool
  | .nan => false
  | .infinite negative => !negative
  | .finite negative mant exp =>
    let (num, den) := Binary64.quotient mant exp
    n * den < (if negative then -(num : Int) else num)

/-- Whether an integer is above an exact binary value. -/
def intGt (n : Int) : Binary64 → Bool
  | .nan => false
  | .infinite negative => negative
  | .finite negative mant exp =>
    let (num, den) := Binary64.quotient mant exp
    (if negative then -(num : Int) else num) < n * den

/-- Exact order; false when either side is `nan`. -/
def lt : Number → Number → Bool
  | .int a, .int b => a < b
  | .int a, .float y => intLt a (Binary64.ofFloat y)
  | .float x, .int b => intGt b (Binary64.ofFloat x)
  | .float x, .float y => x < y

/-- Exact equality of values; `nan` equals nothing. -/
def same : Number → Number → Bool
  | .int a, .int b => a == b
  | .int a, .float y =>
    let e := Binary64.ofFloat y
    e != .nan && !intLt a e && !intGt a e
  | .float x, .int b =>
    let e := Binary64.ofFloat x
    e != .nan && !intLt b e && !intGt b e
  | .float x, .float y => x == y

/-- At most, exactly; false when either side is `nan`. -/
def le (a b : Number) : Bool := lt a b || same a b

/-- Whether two numbers stand in a relation. -/
def holds : Relation → Number → Number → Bool
  | .below, a, b => lt a b
  | .atMost, a, b => le a b
  | .above, a, b => lt b a
  | .atLeast, a, b => le b a

/-! ## Machine numbers -/

/-- The least positive integer that lies beyond all machine numbers: half a unit in the last place
    above the largest of them. -/
def machineBound : Nat := pow2 1024 - pow2 970

/-- The nearest machine number, if an integer does not lie beyond them. -/
def toFloat : Number → Except Failure Float
  | .int n => if n.natAbs < machineBound then .ok (Binary64.ofInt n) else .error .integerRange
  | .float x => .ok x

/-- Computes in machine numbers. -/
def machine (f : Float → Float → Float) (a b : Number) : Except Failure Number := do
  let x ← a.toFloat
  let y ← b.toFloat
  pure (.float (f x y))

/-- Whether a machine number is finite. -/
def isFinite (x : Float) : Bool :=
  match Binary64.ofFloat x with
  | .finite .. => true
  | _ => false

/-! ## Arithmetic -/

/-- Sum: exact on integers. -/
def add : Number → Number → Except Failure Number
  | .int a, .int b => .ok (.int (a + b))
  | a, b => machine (· + ·) a b

/-- Difference: exact on integers. -/
def sub : Number → Number → Except Failure Number
  | .int a, .int b => .ok (.int (a - b))
  | a, b => machine (· - ·) a b

/-- Product: exact on integers. -/
def mul : Number → Number → Except Failure Number
  | .int a, .int b => .ok (.int (a * b))
  | a, b => machine (· * ·) a b

/-- Quotient: of two integers, the nearest machine number, if they do not lie beyond it. -/
def div (a b : Number) : Except Failure Number :=
  if b.same (.int 0) then .error .divisionByZero
  else
    match a, b with
    | .int a, .int b =>
      if a.natAbs < machineBound * b.natAbs then
        .ok (.float (Binary64.ofRatio (a * b.sign) b.natAbs))
      else .error .quotientRange
    | a, b => machine (· / ·) a b

/-- A power with a natural exponent: exact on integers. -/
def pow : Number → Nat → Except Failure Number
  | .int a, n => .ok (.int (Int.pow a n))
  | .float x, n =>
    let y := Float.pow x (Binary64.ofInt n)
    if isFinite x && !isFinite y then .error .powerRange else .ok (.float y)

/-- The natural logarithm of a positive integer. One that lies beyond all machine numbers is first
    brought between one half and one by a power of two. -/
def logNat (n : Nat) : Float :=
  if n < machineBound then Float.log (Binary64.ofInt n)
  else
    let bits := n.log2 + 1
    Float.log (Binary64.nearest false n (pow2 bits)) + Float.log 2 * Binary64.ofInt bits

/-- The natural logarithm of a positive number. -/
def log : Number → Except Failure Float
  | .int n => if n ≤ 0 then .error .logarithm else .ok (logNat n.toNat)
  | .float x => if x ≤ 0 then .error .logarithm else .ok (Float.log x)

/-- How many decades a count spans: `ln (n + 1) / ln 10`. -/
def decades (n : Number) : Except Failure Number := do
  let next ← n.add (.int 1)
  let height ← next.log
  pure (.float (height / Float.log 10))

end Number
end PathTriage
