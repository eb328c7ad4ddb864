/-!
Powers of two and of ten, the scales of binary and decimal numbers.
-/

namespace PathTriage

/-- The power of two with an exponent. -/
def pow2 (n : Nat) : Nat := Nat.pow 2 n

/-- The power of ten with an exponent. -/
def pow10 (n : Nat) : Nat := Nat.pow 10 n

/-- A power of two is positive. -/
theorem pow2_pos (n : Nat) : 0 < pow2 n := Nat.pow_pos (by decide)

theorem pow2_succ (n : Nat) : pow2 (n + 1) = pow2 n * 2 := rfl

/-- Powers of two grow with their exponents. -/
theorem pow2_lt {m n : Nat} (h : m < n) : pow2 m < pow2 n := Nat.pow_lt_pow_right (by decide) h

end PathTriage
