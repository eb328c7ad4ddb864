import PathTriage.Proofs.Number

/-!
The order of machine numbers.

Apart from the pattern that stands for no number, machine numbers are ordered by their sign, then by
their exponent, then by their mantissa. `rank` gives each number its place in a linear order, so
that all laws of linear orders are there for comparisons of machine numbers:

  * `lt_iff_rank`: a number is below another exactly when its rank is;
  * `rank_zero_sub`: taking a number from zero turns its rank round, without any loss.
-/

namespace PathTriage.Binary64

open Float.Model

/-! ## Places -/

/-- The place of a number: its side of zero and whether it is infinite, its exponent, its
    mantissa. -/
def place : UnpackedFloat → Int ×ₗ Int ×ₗ Int
  | .notANumber => toLex (0, toLex (0, 0))
  | .infinity s => toLex (s.apply 2, toLex (0, 0))
  | .zero _ => toLex (0, toLex (0, 0))
  | .finite s mant exp _ => toLex (s.apply 1, toLex (s.apply exp, s.apply mant))

/-- Of the two signs the negative one is the lower. -/
theorem compare_signs_eq_lt {s s' : UnpackedFloat.Sign} :
    compare s s' = .lt ↔ s = .negative ∧ s' = .positive := by
  cases s <;> cases s' <;> simp [compare]

/-- Magnitudes compare by exponent and then by mantissa. -/
theorem compare_magnitudes_eq_lt {e e' : Int} {m m' : Nat} :
    (compare e e').then (compare m m') = .lt ↔ e < e' ∨ e = e' ∧ m < m' := by
  rw [Ordering.then_eq_lt, compare_lt_iff_lt, compare_lt_iff_lt, compare_eq_iff_eq]

theorem compare_magnitudes_eq_gt {e e' : Int} {m m' : Nat} :
    (compare e e').then (compare m m') = .gt ↔ e' < e ∨ e = e' ∧ m' < m := by
  rw [Ordering.then_eq_gt, compare_gt_iff_gt, compare_gt_iff_gt, compare_eq_iff_eq]

/-- The comparison of the format is that of the places. -/
theorem lt_iff_place {u v : UnpackedFloat} (hu : u ≠ .notANumber) (hv : v ≠ .notANumber) :
    u.lt v = true ↔ place u < place v := by
  unfold UnpackedFloat.lt
  rw [beq_iff_eq]
  -- the two numbers differ in kind or sign, or have the same sign and differ in magnitude
  rcases u with (_ | _) | _ | _ | ⟨_ | _, m, e, _⟩ <;>
    rcases v with (_ | _) | _ | _ | ⟨_ | _, m', e', _⟩ <;>
      first
      | exact absurd rfl hu
      | exact absurd rfl hv
      | simp [place, UnpackedFloat.compare, UnpackedFloat.Sign.apply, Prod.Lex.toLex_lt_toLex,
          compare_signs_eq_lt, compare_magnitudes_eq_lt, compare_magnitudes_eq_gt]

/-! ## Negative numbers -/

theorem apply_neg (s : UnpackedFloat.Sign) (n : Int) : (-s).apply n = -s.apply n := by
  cases s with
  | negative => exact (neg_neg n).symm
  | positive => rfl

/-- A number and its negative have opposite places. -/
theorem place_neg (u : UnpackedFloat) : place u.neg = -place u := by
  cases u with
  | notANumber => rfl
  | infinity s =>
    simp only [place, UnpackedFloat.neg, apply_neg]
    rfl
  | zero s => rfl
  | finite s mant exp hpos =>
    simp only [place, UnpackedFloat.neg, apply_neg]
    rfl

/-- The bits with the opposite sign stand for the negative number. -/
theorem unpack_opposite (b : BitVec 64) :
    UnpackedFloat.unpack .binary64 (UnpackedFloat.packComponents .binary64
      (-(.ofBitVec (@UnpackedFloat.unpackSign .binary64 b)))
      (@UnpackedFloat.unpackExponent .binary64 b) (@UnpackedFloat.unpackMantissa .binary64 b)) =
        (UnpackedFloat.unpack .binary64 b).neg := by
  simp only [UnpackedFloat.unpack, UnpackedFloat.unpackMantissa_packComponents,
    UnpackedFloat.unpackExponent_packComponents, UnpackedFloat.unpackSign_packComponents,
    UnpackedFloat.Sign.ofBitVec_toBitVec]
  split
  · split <;> rfl
  · split
    · split <;> rfl
    · rfl

/-- A negative number is packed and unpacked without loss. -/
theorem unpack_pack_neg (b : BitVec 64) :
    UnpackedFloat.unpack .binary64 (UnpackedFloat.pack .binary64
      (UnpackedFloat.unpack .binary64 b).neg) = (UnpackedFloat.unpack .binary64 b).neg := by
  rw [← unpack_opposite, UnpackedFloat.pack_unpack]
  split
  · next hnan =>
    rw [UnpackedFloat.isNaNBits, decide_eq_true_eq] at hnan
    rw [UnpackedFloat.unpack_packedNaN, UnpackedFloat.unpack]
    simp only [if_pos hnan.1, if_neg hnan.2]
  · rfl

/-- Zero from zero is positive, whatever the sign of the second. -/
theorem unpack_zero_sub_of_zero {x : Float} {s : UnpackedFloat.Sign}
    (hx : x.toModel.unpack = .zero s) : (ofInt 0 - x).toModel.unpack = .zero .positive := by
  change UnpackedFloat.unpack .binary64 (UnpackedFloat.pack .binary64
    (UnpackedFloat.sub .binary64 (.zero .positive) x.toModel.unpack)) = _
  rw [hx]
  cases s with
  | negative => rfl
  | positive => rfl

/-- Apart from zero, taking a number from zero changes its sign and nothing else. -/
theorem unpack_zero_sub {x : Float} (hx : ∀ s, x.toModel.unpack ≠ .zero s) :
    (ofInt 0 - x).toModel.unpack = x.toModel.unpack.neg := by
  have hsub : UnpackedFloat.sub .binary64 (.zero .positive) x.toModel.unpack =
      x.toModel.unpack.neg := by
    cases h : x.toModel.unpack with
    | zero s => exact absurd h (hx s)
    | _ => rfl
  change UnpackedFloat.unpack .binary64 (UnpackedFloat.pack .binary64
    (UnpackedFloat.sub .binary64 (.zero .positive) x.toModel.unpack)) = _
  rw [hsub]
  exact unpack_pack_neg _

/-! ## Ranks -/

/-- The rank of a machine number among all of them. -/
def rank (x : Float) : Int ×ₗ Int ×ₗ Int := place x.toModel.unpack

theorem isNaN_eq_false_iff {x : Float} : x.isNaN = false ↔ x.toModel.unpack ≠ .notANumber := by
  rw [← Bool.not_eq_true, ne_eq, ← UnpackedFloat.isNaN_iff]
  rfl

theorem lt_iff_unpack {x y : Float} : x < y ↔ x.toModel.unpack.lt y.toModel.unpack = true :=
  decide_eq_true_iff

/-- Comparison by rank, for all that is a number. -/
theorem lt_iff_rank {x y : Float} (hx : x.isNaN = false) (hy : y.isNaN = false) :
    x < y ↔ rank x < rank y := by
  rw [lt_iff_unpack]
  exact lt_iff_place (isNaN_eq_false_iff.1 hx) (isNaN_eq_false_iff.1 hy)

/-- What stands for no number is neither below nor above anything. -/
theorem not_lt_of_isNaN {x : Float} (hx : x.isNaN = true) (y : Float) : ¬x < y ∧ ¬y < x := by
  have hnan : x.toModel.unpack = .notANumber := UnpackedFloat.isNaN_iff.1 hx
  rw [lt_iff_unpack, lt_iff_unpack, hnan]
  constructor
  · nofun
  · cases y.toModel.unpack <;> nofun

/-- Taken from zero, a number has the opposite rank; zero itself is the case in which the sign is
    lost, and both zeros have one rank. -/
theorem rank_zero_sub (x : Float) : rank (ofInt 0 - x) = -rank x := by
  unfold rank
  by_cases hx : ∃ s, x.toModel.unpack = .zero s
  · obtain ⟨s, hs⟩ := hx
    rw [unpack_zero_sub_of_zero hs, hs]
    rfl
  · rw [unpack_zero_sub fun s hs => hx ⟨s, hs⟩, place_neg]

/-- And it stays a number. -/
theorem isNaN_zero_sub {x : Float} (hx : x.isNaN = false) : (ofInt 0 - x).isNaN = false := by
  rw [isNaN_eq_false_iff] at hx ⊢
  by_cases hzero : ∃ s, x.toModel.unpack = .zero s
  · obtain ⟨s, hs⟩ := hzero
    rw [unpack_zero_sub_of_zero hs]
    nofun
  · rw [unpack_zero_sub fun s hs => hzero ⟨s, hs⟩]
    cases h : x.toModel.unpack with
    | notANumber => exact absurd h hx
    | _ => nofun

end PathTriage.Binary64
