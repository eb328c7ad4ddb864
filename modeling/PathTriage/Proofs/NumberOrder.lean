import PathTriage.Proofs.MachineOrder

/-!
The order of numbers of both kinds.

Integers and machine numbers are held against each other exactly, never by turning the one into the
other. Every finite machine number is a whole multiple of the least positive one, and so is every
integer: `height` counts these units. A number is then below another, the same or at most the other
exactly when its height is (`lt_iff`, `same_iff_height`, `le_iff`), whatever kinds the two are of,
and only what stands for no number has no place in this order.
-/

namespace PathTriage

/-! ## Two readings of the bits -/

namespace Binary64

open Float.Model

/-- A sign as it stands in the first bit. -/
def isNegative : UnpackedFloat.Sign → Bool
  | .negative => true
  | .positive => false

@[simp] theorem isNegative_negative : isNegative .negative = true := rfl

@[simp] theorem isNegative_positive : isNegative .positive = false := rfl

/-- A mantissa and an exponent as the format has them: 53 bits, or fewer at the least exponent. -/
structure Canonical (mant : Nat) (exp : Int) : Prop where
  mant_lt : mant < pow2 53
  exp_ge : -1074 ≤ exp
  full : exp = -1074 ∨ pow2 52 ≤ mant

/-- A machine number as it is compared, and the exact value of it. -/
inductive Stands : UnpackedFloat → Binary64 → Prop
  | nan : Stands .notANumber .nan
  | infinite (s) : Stands (.infinity s) (.infinite (isNegative s))
  | zero (s) : Stands (.zero s) (.finite (isNegative s) 0 (-1074))
  | finite (s) {mant exp h} (hform : Canonical mant exp) :
    Stands (.finite s mant exp h) (.finite (isNegative s) mant exp)

/-- The exponent is the eleven bits above the mantissa. -/
theorem toNat_unpackExponent (b : BitVec 64) :
    (@UnpackedFloat.unpackExponent .binary64 b).toNat = b.toNat / pow2 52 % 2048 := by
  simp only [UnpackedFloat.unpackExponent, BitVec.toNat_cast, BitVec.extractLsb_toNat,
    Nat.shiftRight_eq_div_pow]
  rfl

/-- The mantissa is the lowest fifty-two bits. -/
theorem toNat_unpackMantissa (b : BitVec 64) :
    (@UnpackedFloat.unpackMantissa .binary64 b).toNat = b.toNat % pow2 52 := by
  simp only [UnpackedFloat.unpackMantissa, BitVec.toNat_cast, BitVec.extractLsb_toNat,
    Nat.shiftRight_eq_div_pow, Nat.pow_zero, Nat.div_one]
  rfl

/-- The sign is the first bit. -/
theorem isNegative_unpackSign (b : BitVec 64) :
    isNegative (.ofBitVec (@UnpackedFloat.unpackSign .binary64 b)) =
      decide (pow2 63 ≤ b.toNat) := by
  have hb := b.isLt
  have hpow : pow2 63 = 9223372036854775808 := by decide
  have hbit : ∀ bit : BitVec 1, isNegative (.ofBitVec bit) = decide (bit.toNat = 1) := by decide
  have hsign : (@UnpackedFloat.unpackSign .binary64 b).toNat = b.toNat / 2 ^ 63 % 2 := by
    simp only [UnpackedFloat.unpackSign, BitVec.toNat_cast, BitVec.extractLsb_toNat,
      Nat.shiftRight_eq_div_pow]
  rw [hbit, hsign, hpow, decide_eq_decide]
  omega

/-- The fields of a machine number are those that it is compared by. -/
theorem stands (x : Float) : Stands x.toModel.unpack (ofFloat x) := by
  obtain ⟨b, hb⟩ : ∃ b, b = x.toModel.toBits.toBitVec := ⟨_, rfl⟩
  have hunpack : x.toModel.unpack = UnpackedFloat.unpack .binary64 b := by rw [hb]; rfl
  have hbits : x.toBits.toNat = b.toNat := by rw [hb]; rfl
  simp only [ofFloat, hbits]
  rw [hunpack, ← toNat_unpackExponent, ← toNat_unpackMantissa, ← isNegative_unpackSign]
  have hfull : ∀ e : BitVec 11, e = -1#11 ↔ e.toNat = 2047 := fun _ => BitVec.toNat_inj.symm
  have hnone : ∀ e : BitVec 11, e = 0#11 ↔ e.toNat = 0 := fun _ => BitVec.toNat_inj.symm
  have hzero : ∀ m : BitVec 52, m = 0#52 ↔ m.toNat = 0 := fun _ => BitVec.toNat_inj.symm
  have hmant : (@UnpackedFloat.unpackMantissa .binary64 b).toNat < pow2 52 := BitVec.isLt _
  have hpow : pow2 53 = 2 * pow2 52 := by decide
  have hbias : (Format.binary64.exponentBias : Int) + (52 : Nat) = 1075 := rfl
  -- both readings split on the exponent, all ones or all zeros or neither, and then on the mantissa
  unfold UnpackedFloat.unpack
  dsimp only
  split
  · next he =>
    rw [if_pos ((hfull _).1 he)]
    split
    · next hm =>
      rw [if_pos ((hzero _).1 hm)]
      exact .infinite _
    · next hm =>
      rw [if_neg (mt (hzero _).2 hm)]
      exact .nan
  · next he =>
    rw [if_neg (mt (hfull _).2 he)]
    split
    · next hz =>
      rw [if_pos ((hnone _).1 hz)]
      split
      · next hm =>
        rw [(hzero _).1 hm]
        exact .zero _
      · have hexp : ((@UnpackedFloat.unpackExponent .binary64 b).toNat : Int) -
            ((Format.binary64.exponentBias : Int) + (52 : Nat)) + 1 = -1074 := by
          rw [(hnone _).1 hz, hbias]
          rfl
        rw [hexp]
        exact .finite _ ⟨by omega, by omega, .inl rfl⟩
    · next hz =>
      have hpos : (@UnpackedFloat.unpackExponent .binary64 b).toNat ≠ 0 := mt (hnone _).2 hz
      have hnormal : (1#1 ++ @UnpackedFloat.unpackMantissa .binary64 b).toNat = pow2 52 + _ :=
        toNat_normal _
      rw [if_neg hpos, hbias, ← hnormal]
      exact .finite _ ⟨by omega, by omega, .inr (by omega)⟩

/-! ## Heights -/

/-- The number of times that the least positive machine number goes into `mant * 2 ^ exp`. -/
def units (mant : Nat) (exp : Int) : Nat := mant * pow2 (exp + 1074).toNat

/-- A natural number with a sign. -/
def signed (negative : Bool) (n : Nat) : Int := if negative then -n else n

@[simp] theorem signed_true (n : Nat) : signed true n = -n := rfl

@[simp] theorem signed_false (n : Nat) : signed false n = n := rfl

/-- The height of an exact value: its side if it is infinite, then its units. -/
def height : Binary64 → Int ×ₗ Int
  | .finite negative mant exp => toLex (0, signed negative (units mant exp))
  | .infinite negative => toLex (signed negative 1, 0)
  | .nan => toLex (0, 0)

@[simp] theorem units_zero (exp : Int) : units 0 exp = 0 := Nat.zero_mul _

/-- Units are counted from the least positive number of the format, so a number that is not zero has
    some. -/
theorem units_pos {mant : Nat} (h : 0 < mant) (exp : Int) : 0 < units mant exp :=
  Nat.mul_pos h (pow2_pos _)

/-- A full mantissa at a larger exponent outweighs every mantissa. -/
theorem Canonical.units_lt {m m' : Nat} {e e' : Int} (h : Canonical m e) (h' : Canonical m' e')
    (hlt : e < e') : units m e < units m' e' := by
  have hge := h.exp_ge
  have hfull := h'.full.resolve_left (by omega)
  calc m * pow2 (e + 1074).toNat
      < pow2 53 * pow2 (e + 1074).toNat := Nat.mul_lt_mul_of_pos_right h.mant_lt (pow2_pos _)
    _ = pow2 52 * pow2 ((e + 1074).toNat + 1) := by
      rw [pow2_succ (e + 1074).toNat, Nat.mul_comm (pow2 (e + 1074).toNat), ← Nat.mul_assoc]
      rfl
    _ ≤ m' * pow2 (e' + 1074).toNat :=
      Nat.mul_le_mul hfull (Nat.pow_le_pow_right (by decide) (by omega))

/-- For numbers in canonical form the larger exponent wins, and at equal exponents the larger
    mantissa. -/
theorem Canonical.units_lt_iff {m m' : Nat} {e e' : Int} (h : Canonical m e)
    (h' : Canonical m' e') : units m e < units m' e' ↔ e < e' ∨ e = e' ∧ m < m' := by
  rcases lt_trichotomy e e' with hlt | rfl | hgt
  · exact iff_of_true (h.units_lt h' hlt) (.inl hlt)
  · rw [units, units, Nat.mul_lt_mul_right (pow2_pos _)]
    simp
  · exact iff_of_false (h'.units_lt h hgt).not_gt (by omega)

/-- The place of a machine number among all of them is where its value is among theirs. -/
theorem Stands.place_lt_iff {u v : UnpackedFloat} {a b : Binary64} (hu : Stands u a)
    (hv : Stands v b) (ha : a ≠ .nan) (hb : b ≠ .nan) :
    place u < place v ↔ a.height < b.height := by
  cases hu with
  | nan => exact absurd rfl ha
  | infinite s =>
    cases hv with
    | nan => exact absurd rfl hb
    | infinite s' => cases s <;> cases s' <;> decide
    | zero s' => cases s <;> cases s' <;> decide
    | finite s' hform' =>
      cases s <;> cases s' <;> simp [place, height, UnpackedFloat.Sign.apply,
        Prod.Lex.toLex_lt_toLex]
  | zero s =>
    cases hv with
    | nan => exact absurd rfl hb
    | infinite s' => cases s <;> cases s' <;> decide
    | zero s' => cases s <;> cases s' <;> decide
    | @finite s' m' e' hm' hform' =>
      have hpos' := units_pos hm' e'
      cases s <;> cases s' <;>
        simp [place, height, UnpackedFloat.Sign.apply, Prod.Lex.toLex_lt_toLex, hpos']
  | @finite s m e hm hform =>
    have hpos := units_pos hm e
    cases hv with
    | nan => exact absurd rfl hb
    | infinite s' =>
      cases s <;> cases s' <;> simp [place, height, UnpackedFloat.Sign.apply,
        Prod.Lex.toLex_lt_toLex]
    | zero s' =>
      cases s <;> cases s' <;>
        simp [place, height, UnpackedFloat.Sign.apply, Prod.Lex.toLex_lt_toLex, hpos]
    | @finite s' m' e' hm' hform' =>
      have hpos' := units_pos hm' e'
      have hlt := hform.units_lt_iff hform'
      have hgt := hform'.units_lt_iff hform
      -- two negative numbers compare as their opposites the other way round
      cases s <;> cases s' <;>
        simp [place, height, UnpackedFloat.Sign.apply, Prod.Lex.toLex_lt_toLex] <;> omega

theorem compare_signs_eq_eq {s s' : UnpackedFloat.Sign} : compare s s' = .eq ↔ s = s' := by
  cases s <;> cases s' <;> simp [compare]

/-- Equality of machine numbers is equality of places; the two zeros have one place. -/
theorem beq_iff_place {u v : UnpackedFloat} (hu : u ≠ .notANumber) (hv : v ≠ .notANumber) :
    u.beq v = true ↔ place u = place v := by
  unfold UnpackedFloat.beq
  rw [beq_iff_eq]
  rcases u with (_ | _) | _ | _ | ⟨_ | _, m, e, hm⟩ <;>
    rcases v with (_ | _) | _ | _ | ⟨_ | _, m', e', hm'⟩ <;>
      first
      | exact absurd rfl hu
      | exact absurd rfl hv
      | simp [place, UnpackedFloat.compare, UnpackedFloat.Sign.apply, Ordering.then_eq_eq,
          compare_signs_eq_eq]

/-- The two readings agree on what is no number. -/
theorem Stands.eq_nan_iff {u : UnpackedFloat} {a : Binary64} (h : Stands u a) :
    a = .nan ↔ u = .notANumber := by
  cases h <;> simp

/-- No exponent of the format is below that of the least positive number. -/
theorem Stands.exp_ge {u : UnpackedFloat} {negative : Bool} {mant : Nat} {exp : Int}
    (h : Stands u (.finite negative mant exp)) : -1074 ≤ exp := by
  cases h with
  | zero s => exact le_rfl
  | finite s hform => exact hform.exp_ge

theorem ofFloat_ne_nan {x : Float} (hx : x.isNaN = false) : ofFloat x ≠ .nan :=
  mt (stands x).eq_nan_iff.1 (isNaN_eq_false_iff.1 hx)

theorem ofFloat_of_isNaN {x : Float} (hx : x.isNaN = true) : ofFloat x = .nan :=
  (stands x).eq_nan_iff.2 (UnpackedFloat.isNaN_iff.1 hx)

section Heights

variable {x y : Float} (hx : x.isNaN = false) (hy : y.isNaN = false)

include hx hy

/-- Machine numbers compare as their heights do, which are exact values. -/
theorem lt_iff_height : x < y ↔ (ofFloat x).height < (ofFloat y).height := by
  rw [lt_iff_rank hx hy]
  exact (stands x).place_lt_iff (stands y) (ofFloat_ne_nan hx) (ofFloat_ne_nan hy)

theorem beq_iff_height : (x == y) = true ↔ (ofFloat x).height = (ofFloat y).height := by
  have hrank : (x == y) = true ↔ rank x = rank y :=
    beq_iff_place (isNaN_eq_false_iff.1 hx) (isNaN_eq_false_iff.1 hy)
  rw [hrank, eq_iff_le_not_lt, eq_iff_le_not_lt, ← not_lt, ← not_lt, ← lt_iff_rank hx hy,
    ← lt_iff_rank hy hx, lt_iff_height hx hy, lt_iff_height hy hx]

end Heights

/-- What is no number equals nothing, itself included. -/
theorem beq_of_isNaN {x : Float} (hx : x.isNaN = true) (y : Float) :
    (x == y) = false ∧ (y == x) = false := by
  have hbeq : ∀ x y : Float, (x == y) = x.toModel.unpack.beq y.toModel.unpack := fun _ _ => rfl
  have hnan : x.toModel.unpack = .notANumber := UnpackedFloat.isNaN_iff.1 hx
  rw [hbeq, hbeq, hnan]
  cases y.toModel.unpack <;> exact ⟨rfl, rfl⟩

/-- A finite value as a quotient, brought to the units of all of them. -/
theorem exists_quotient (mant : Nat) {exp : Int} (h : -1074 ≤ exp) :
    ∃ k : Nat, 0 < k ∧ (quotient mant exp).1 * k = units mant exp ∧
      (quotient mant exp).2 * k = units 1 0 := by
  have hadd : ∀ a b : Nat, pow2 a * pow2 b = pow2 (a + b) := fun a b => (Nat.pow_add 2 a b).symm
  unfold quotient units
  split
  · refine ⟨pow2 1074, pow2_pos 1074, ?_, rfl⟩
    rw [Nat.mul_assoc, hadd]
    congr 2
    omega
  · refine ⟨pow2 (exp + 1074).toNat, pow2_pos _, rfl, ?_⟩
    rw [Nat.one_mul, hadd]
    congr 1
    omega

/-- Scaling by a natural number keeps the sign. -/
theorem signed_mul (negative : Bool) (n k : Nat) :
    signed negative n * k = signed negative (n * k) := by
  cases negative <;> simp

end Binary64

namespace Number

open Binary64

/-- The height of a number, in units of the least positive machine number. -/
def height : Number → Int ×ₗ Int
  | .int n => toLex (0, n * units 1 0)
  | .float x => (ofFloat x).height

/-- A number that has a place among the others. -/
def Proper : Number → Prop
  | .int _ => True
  | .float x => x.isNaN = false

section IntFloat

variable {x : Float} (hx : x.isNaN = false) (n : Int)

include hx

/-- An integer is compared with a machine number by their exact values, never by converting it. -/
theorem intLt_iff : intLt n (ofFloat x) = true ↔ height (.int n) < height (.float x) := by
  rw [height, height]
  cases hvalue : ofFloat x with
  | nan => exact absurd hvalue (ofFloat_ne_nan hx)
  | infinite negative =>
    generalize (units 1 0 : Int) = one
    cases negative <;> simp [intLt, Binary64.height, Prod.Lex.toLex_lt_toLex]
  | finite negative mant exp =>
    obtain ⟨k, hk, hnum, hden⟩ := exists_quotient mant (hvalue ▸ stands x).exp_ge
    have hscaled : n * (quotient mant exp).2 < signed negative (quotient mant exp).1 ↔
        n * units 1 0 < signed negative (units mant exp) := by
      rw [← Int.mul_lt_mul_right (Int.natCast_pos.2 hk), signed_mul, hnum, Int.mul_assoc,
        ← Int.natCast_mul, hden]
    rw [intLt, decide_eq_true_eq, Binary64.height, Prod.Lex.toLex_lt_toLex]
    generalize (units 1 0 : Int) = one at *
    exact hscaled.trans (by simp)

/-- The same from the other side. -/
theorem intGt_iff : intGt n (ofFloat x) = true ↔ height (.float x) < height (.int n) := by
  rw [height, height]
  cases hvalue : ofFloat x with
  | nan => exact absurd hvalue (ofFloat_ne_nan hx)
  | infinite negative =>
    generalize (units 1 0 : Int) = one
    cases negative <;> simp [intGt, Binary64.height, Prod.Lex.toLex_lt_toLex]
  | finite negative mant exp =>
    obtain ⟨k, hk, hnum, hden⟩ := exists_quotient mant (hvalue ▸ stands x).exp_ge
    have hscaled : signed negative (quotient mant exp).1 < n * (quotient mant exp).2 ↔
        signed negative (units mant exp) < n * units 1 0 := by
      rw [← Int.mul_lt_mul_right (Int.natCast_pos.2 hk), signed_mul, hnum, Int.mul_assoc,
        ← Int.natCast_mul, hden]
    rw [intGt, decide_eq_true_eq, Binary64.height, Prod.Lex.toLex_lt_toLex]
    generalize (units 1 0 : Int) = one at *
    exact hscaled.trans (by simp)

end IntFloat

section Order

variable {a b : Number}

/-- Integers and machine numbers compare as their heights do, in any mixture. -/
theorem lt_iff_height (ha : a.Proper) (hb : b.Proper) : a.lt b = true ↔ a.height < b.height := by
  cases a with
  | int n =>
    cases b with
    | int n' =>
      have hone : (0 : Int) < units 1 0 := Int.natCast_pos.2 (units_pos (by decide) 0)
      rw [lt, decide_eq_true_eq, ← Int.mul_lt_mul_right hone, height, height,
        Prod.Lex.toLex_lt_toLex]
      generalize (units 1 0 : Int) = one
      simp
    | float y => exact intLt_iff hb n
  | float x =>
    cases b with
    | int n' => exact intGt_iff ha n'
    | float y =>
      rw [lt, decide_eq_true_eq]
      exact Binary64.lt_iff_height ha hb

theorem same_iff_height (ha : a.Proper) (hb : b.Proper) :
    a.same b = true ↔ a.height = b.height := by
  cases a with
  | int n =>
    cases b with
    | int n' =>
      have hone : (units 1 0 : Int) ≠ 0 := Int.natCast_ne_zero.2 (units_pos (by decide) 0).ne'
      rw [same, beq_iff_eq, height, height, toLex_inj, Prod.mk.injEq, Int.mul_eq_mul_right_iff hone]
      simp
    | float y =>
      simp only [same, Bool.and_eq_true, bne_iff_ne, Bool.not_eq_true', ← Bool.not_eq_true,
        intLt_iff hb, intGt_iff hb, not_lt]
      exact ⟨fun h => le_antisymm h.2 h.1.2, fun h => ⟨⟨ofFloat_ne_nan hb, h.ge⟩, h.le⟩⟩
  | float x =>
    cases b with
    | int n' =>
      simp only [same, Bool.and_eq_true, bne_iff_ne, Bool.not_eq_true', ← Bool.not_eq_true,
        intLt_iff ha, intGt_iff ha, not_lt]
      exact ⟨fun h => le_antisymm h.1.2 h.2, fun h => ⟨⟨ofFloat_ne_nan ha, h.le⟩, h.ge⟩⟩
    | float y => exact beq_iff_height ha hb

/-- What stands for no number is not below, above or the same as anything. -/
theorem not_compares (ha : ¬a.Proper) (b : Number) :
    (a.lt b = false ∧ a.same b = false) ∧ b.lt a = false ∧ b.same a = false := by
  cases a with
  | int n => exact absurd trivial ha
  | float x =>
    have hx : x.isNaN = true := Bool.not_eq_false _ ▸ ha
    cases b with
    | int n => simp [lt, same, ofFloat_of_isNaN hx, intLt, intGt]
    | float y =>
      obtain ⟨hlt, hgt⟩ := not_lt_of_isNaN hx y
      obtain ⟨hne, hne'⟩ := beq_of_isNaN hx y
      simp only [lt, same, decide_eq_false hlt, decide_eq_false hgt, hne, hne', and_self]

/-- Whatever compares in some way is a number, on both sides. -/
theorem proper_of_compares (h : a.lt b = true ∨ a.same b = true) : a.Proper ∧ b.Proper := by
  by_contra hnot
  rcases not_and_or.1 hnot with ha | hb
  · have hnone := (not_compares ha b).1
    simp [hnone.1, hnone.2] at h
  · have hnone := (not_compares hb a).2
    simp [hnone.1, hnone.2] at h

/-- A number is at most another exactly when its height is, and neither stands for no number. -/
theorem le_iff : a.le b = true ↔ a.Proper ∧ b.Proper ∧ a.height ≤ b.height := by
  rw [le, Bool.or_eq_true]
  constructor
  · intro h
    obtain ⟨ha, hb⟩ := proper_of_compares h
    rw [lt_iff_height ha hb, same_iff_height ha hb] at h
    exact ⟨ha, hb, le_iff_lt_or_eq.2 h⟩
  · rintro ⟨ha, hb, h⟩
    rw [lt_iff_height ha hb, same_iff_height ha hb]
    exact le_iff_lt_or_eq.1 h

theorem lt_iff : a.lt b = true ↔ a.Proper ∧ b.Proper ∧ a.height < b.height := by
  constructor
  · intro h
    obtain ⟨ha, hb⟩ := proper_of_compares (.inl h)
    exact ⟨ha, hb, (lt_iff_height ha hb).1 h⟩
  · rintro ⟨ha, hb, h⟩
    exact (lt_iff_height ha hb).2 h

variable {c : Number}

/-- The order is transitive over integers and machine numbers alike. -/
theorem le_trans (h : a.le b = true) (h' : b.le c = true) : a.le c = true := by
  obtain ⟨ha, -, hab⟩ := le_iff.1 h
  obtain ⟨-, hc, hbc⟩ := le_iff.1 h'
  exact le_iff.2 ⟨ha, hc, hab.trans hbc⟩

theorem lt_of_lt_of_le (h : a.lt b = true) (h' : b.le c = true) : a.lt c = true := by
  obtain ⟨ha, -, hab⟩ := lt_iff.1 h
  obtain ⟨-, hc, hbc⟩ := le_iff.1 h'
  exact lt_iff.2 ⟨ha, hc, hab.trans_le hbc⟩

theorem lt_of_le_of_lt (h : a.le b = true) (h' : b.lt c = true) : a.lt c = true := by
  obtain ⟨ha, -, hab⟩ := le_iff.1 h
  obtain ⟨-, hc, hbc⟩ := lt_iff.1 h'
  exact lt_iff.2 ⟨ha, hc, hab.trans_lt hbc⟩

end Order

end Number

end PathTriage
