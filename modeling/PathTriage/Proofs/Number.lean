import PathTriage.Json.Arithmetic
import Mathlib

/-!
Numbers as they stand in data: how integers compare, which integers are within the range of machine
numbers, and why the machine number next to a quotient of at least one is not zero.

The last fact reads a machine number off the bits that it was made of. `toBits_ofBits` says that
this gives the same bits again for every number from zero up to infinity; only a pattern that stands
for no number is changed on the way.
-/

namespace PathTriage

/-! ## Comparison of integers -/

namespace Json

/-- Values that stand for numbers are held against each other as these are. -/
theorem holds_of_number {a b : Json} {x y : Number} (ha : a.number? = some x)
    (hb : b.number? = some y) (r : Relation) : holds r a b = .ok (x.holds r y) := by
  unfold holds
  rw [ha, hb]

theorem holds_atMost_ofInt (a b : Int) :
    holds .atMost (.ofInt a) (.ofInt b) = .ok (decide (a ≤ b)) := by
  have hle : Number.le (.int a) (.int b) = decide (a ≤ b) := by
    rw [Bool.eq_iff_iff]
    simp only [Number.le, Number.lt, Number.same, Bool.or_eq_true, decide_eq_true_eq, beq_iff_eq]
    omega
  rw [← hle]
  rfl

theorem holds_atLeast_ofInt (a b : Int) :
    holds .atLeast (.ofInt a) (.ofInt b) = .ok (decide (b ≤ a)) := by
  rw [← holds_atMost_ofInt b a]
  rfl

end Json

/-! ## Bits of machine numbers -/

namespace Binary64

open Float.Model

/-- A pattern of bits is made of its sign, its exponent and its mantissa. -/
theorem packComponents_unpack (b : BitVec 64) :
    UnpackedFloat.packComponents .binary64 (.ofBitVec (@UnpackedFloat.unpackSign .binary64 b))
      (@UnpackedFloat.unpackExponent .binary64 b) (@UnpackedFloat.unpackMantissa .binary64 b) =
        b := by
  have hsign : (UnpackedFloat.Sign.ofBitVec (@UnpackedFloat.unpackSign .binary64 b)).toBitVec =
      @UnpackedFloat.unpackSign .binary64 b := by
    generalize @UnpackedFloat.unpackSign .binary64 b = s
    revert s
    decide
  rw [UnpackedFloat.packComponents, hsign]
  ext i hi
  simp only [UnpackedFloat.unpackSign, UnpackedFloat.unpackExponent, UnpackedFloat.unpackMantissa]
  simp
  grind

/-- A number below the least normal one keeps its mantissa. -/
theorem pack_subnormal (s : UnpackedFloat.Sign) (m : BitVec 52) (h : 0 < m.toNat) :
    UnpackedFloat.pack .binary64 (.finite s m.toNat (-1074) h) =
      UnpackedFloat.packComponents .binary64 s 0#11 m := by
  have hlog : m.toNat.log2 + 1 ≠ 53 := by
    have hlt := (Nat.log2_lt (k := 52) (by omega)).2 m.isLt
    omega
  simp [UnpackedFloat.pack, Format.exponentBias, Format.mantissaBits, hlog]

/-- A normal number has a leading bit that its mantissa leaves out. -/
theorem toNat_normal (m : BitVec 52) : (1#1 ++ m).toNat = 2 ^ 52 + m.toNat := by
  rw [BitVec.toNat_append, ← Nat.shiftLeft_add_eq_or_of_lt m.isLt]
  rfl

/-- A normal number keeps its exponent and its mantissa. -/
theorem pack_normal (s : UnpackedFloat.Sign) (e : BitVec 11) (m : BitVec 52)
    (h : 0 < (1#1 ++ m).toNat) (he : e ≠ -1#11) :
    UnpackedFloat.pack .binary64 (.finite s (1#1 ++ m).toNat ((e.toNat : Int) - 1075) h) =
      UnpackedFloat.packComponents .binary64 s e m := by
  have hm := m.isLt
  have hlog : (2 ^ 52 + m.toNat).log2 = 52 := by
    rw [Nat.log2_eq_iff (by omega)]
    omega
  have hexp : e.toNat + 1 < 2048 := by
    have hlt := e.isLt
    have hne : e.toNat ≠ 2047 := fun heq => he (BitVec.eq_of_toNat_eq heq)
    omega
  have hbias : ((e.toNat : Int) - 1075 + Format.binary64.exponentBias + (52 : Nat)).toNat =
      e.toNat := by
    have hvalue : Format.binary64.exponentBias = 1023 := rfl
    omega
  have hmant : BitVec.ofNat 52 (2 ^ 52 + m.toNat) = m := by
    apply BitVec.eq_of_toNat_eq
    rw [BitVec.toNat_ofNat]
    omega
  simp only [UnpackedFloat.pack, toNat_normal]
  rw [hbias, if_neg (by omega), if_pos (by rw [hlog]; rfl), BitVec.ofNat_toNat, BitVec.setWidth_eq,
    hmant]

theorem pack_unpack (b : BitVec 64)
    (h : @UnpackedFloat.unpackExponent .binary64 b = -1#11 →
      @UnpackedFloat.unpackMantissa .binary64 b = 0#52) :
    UnpackedFloat.pack .binary64 (UnpackedFloat.unpack .binary64 b) = b := by
  conv => rhs; rw [← packComponents_unpack b]
  unfold UnpackedFloat.unpack
  dsimp only
  split
  · next he =>
    rw [if_pos (h he), h he, he]
    rfl
  · next he =>
    split
    · next hzero =>
      split
      · next hm =>
        rw [hzero, hm]
        rfl
      · rw [hzero]
        exact pack_subnormal _ _ _
    · exact pack_normal _ _ _ _ he

/-- The bits of a number from zero up to infinity are kept. -/
theorem toBits_ofBits {b : UInt64} (h : b.toNat ≤ 2047 * 2 ^ 52) : (Float.ofBits b).toBits = b := by
  refine UInt64.toBitVec_inj.1 (pack_unpack b.toBitVec ?_)
  intro he
  have hexp := congrArg BitVec.toNat he
  have hb : b.toBitVec.toNat = b.toNat := rfl
  apply BitVec.eq_of_toNat_eq
  simp only [UnpackedFloat.unpackExponent, UnpackedFloat.unpackMantissa] at hexp ⊢
  simp only [BitVec.toNat_cast, BitVec.extractLsb_toNat, Nat.shiftRight_eq_div_pow, hb] at hexp ⊢
  simp at hexp ⊢
  omega

/-- A number made of bits between zero and infinity is positive. -/
theorem intLt_zero_ofBits {bits : Nat} (hpos : 0 < bits) (hle : bits ≤ 2047 * pow2 52) :
    Number.intLt 0 (ofFloat (Float.ofBits (UInt64.ofNat bits))) = true := by
  have hpow52 : pow2 52 = 4503599627370496 := by decide
  have hpow63 : pow2 63 = 9223372036854775808 := by decide
  have hnat : (UInt64.ofNat bits).toNat = bits := by
    rw [UInt64.toNat_ofNat']
    omega
  have hbits : (Float.ofBits (UInt64.ofNat bits)).toBits.toNat = bits := by
    rw [toBits_ofBits (by rw [hnat]; omega), hnat]
  -- whatever the exponent is, a positive mantissa makes a positive numerator
  have hfinite : ∀ (mant : Nat) (exp : Int), 0 < mant →
      Number.intLt 0 (.finite false mant exp) = true := by
    intro mant exp hmant
    simp only [Number.intLt, quotient, Int.zero_mul, Bool.false_eq_true, if_false,
      decide_eq_true_eq]
    split
    · have := Nat.mul_pos hmant (pow2_pos exp.toNat)
      omega
    · omega
  have hsign : decide (pow2 63 ≤ bits) = false := decide_eq_false (by omega)
  simp only [ofFloat, hbits, hsign, hpow52]
  split
  · split
    · rfl
    · omega
  · split
    · exact hfinite _ _ (by omega)
    · exact hfinite _ _ (by omega)

/-! ## The machine number next to a quotient -/

theorem roundDiv_pos {num den : Nat} (hden : 0 < den) (h : den ≤ num) :
    0 < Decimal.roundDiv num den := by
  have hfloor := Nat.div_pos h hden
  rcases Decimal.roundDiv_eq_or num den with heq | heq
  · omega
  · omega

/-- At the scale of a quotient of at least one, the denominator does not exceed the numerator. -/
theorem mul_pow2_scale_le {num den : Nat} (hden : 0 < den) (h : den ≤ num)
    (hscale : 0 ≤ scale num den) : den * pow2 (scale num den).toNat ≤ num := by
  have hexp : (scale num den).toNat + den.log2 + 1 ≤ num.log2 := by
    unfold scale at hscale ⊢
    dsimp only at hscale ⊢
    generalize (if 0 ≤ (num.log2 : Int) - den.log2 - 52 then _ else _ : Bool) = short at *
    cases short <;> simp at hscale ⊢ <;> omega
  have hnum : 2 ^ num.log2 ≤ num := Nat.log2_self_le (by omega)
  have hdenlog : den < 2 ^ (den.log2 + 1) := Nat.lt_log2_self
  calc den * pow2 (scale num den).toNat
      ≤ 2 ^ (den.log2 + 1) * 2 ^ (scale num den).toNat := Nat.mul_le_mul_right _ hdenlog.le
    _ = 2 ^ (den.log2 + 1 + (scale num den).toNat) := (Nat.pow_add 2 _ _).symm
    _ ≤ 2 ^ num.log2 := Nat.pow_le_pow_right (by decide) (by omega)
    _ ≤ num := hnum

theorem nearestBits_pos {num den : Nat} (hden : 0 < den) (h : den ≤ num) :
    0 < nearestBits num den := by
  have hscale : -1074 ≤ scale num den := by
    unfold scale
    exact le_max_right _ _
  -- a mantissa that is not zero gives bits that are not, subnormal or normal
  have hbits : ∀ mant, 0 < mant → 0 < min
      (if mant < pow2 52 then mant
        else (scale num den + 1075).toNat * pow2 52 + (mant - pow2 52)) (2047 * pow2 52) := by
    intro mant hmant
    have hpow := pow2_pos 52
    refine lt_min ?_ (by omega)
    split
    · exact hmant
    · have := Nat.mul_pos (by omega : 0 < (scale num den + 1075).toNat) hpow
      omega
  unfold nearestBits
  rw [if_neg (by omega)]
  apply hbits
  split
  · next hpos =>
    have hpow := pow2_pos (scale num den).toNat
    exact roundDiv_pos (Nat.mul_pos hden hpow) (mul_pow2_scale_le hden h hpos)
  · have hpow := pow2_pos (-scale num den).toNat
    exact roundDiv_pos hden (h.trans (Nat.le_mul_of_pos_right num hpow))

theorem nearestBits_le (num den : Nat) : nearestBits num den ≤ 2047 * pow2 52 := by
  unfold nearestBits
  split
  · exact Nat.zero_le _
  · exact min_le_right _ _

end Binary64

/-- The machine number next to a quotient of at least one is not zero. -/
theorem Number.same_zero_nearest {num den : Nat} (hden : 0 < den) (h : den ≤ num) :
    (Number.float (Binary64.nearest false num den)).same (.int 0) = false := by
  have hlt := Binary64.intLt_zero_ofBits (Binary64.nearestBits_pos hden h)
    (Binary64.nearestBits_le num den)
  simp only [same, Binary64.nearest, Bool.false_eq_true, if_false, Nat.add_zero, hlt]
  simp

end PathTriage
