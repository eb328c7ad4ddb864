import PathTriage.Scalar
import PathTriage.Model.Method
import Mathlib

/-!
Score formulas in exact arithmetic.

A formula is written once, over a `Scalar`. Here it is read over an ordered field: every operation
is the one of the field, nothing is rounded and nothing fails, and a function of one's choice stands
in the place of the logarithm. The results of a formula in this reading are `Id.run` of it.

Three families of lemmas make the reading usable:

  * `run_*`: what each way of putting formulas together gives, in terms of the field;
  * `*_mem_unit`: which formulas stay between zero and one;
  * `*_mono`: which formulas follow their parts upwards.
-/

namespace PathTriage

/-! ## Values -/

/-- The rational number that a machine number is. An infinity, or what is no number, counts as
    zero. -/
def Binary64.value : Binary64 → ℚ
  | .finite negative mant exp =>
    (if negative then -((quotient mant exp).1 : ℚ) else (quotient mant exp).1) /
      (quotient mant exp).2
  | _ => 0

/-- The rational number that a number is. -/
def Number.value : Number → ℚ
  | .int n => n
  | .float x => (Binary64.ofFloat x).value

/-- The rational number that a given value stands for; zero for what is no number, on which a run
    fails. -/
def Json.value (v : Json) : ℚ := v.number?.elim 0 Number.value

/-- The denominator of a machine number is a power of two or one. -/
theorem Binary64.quotient_pos (mant : Nat) (exp : Int) : 0 < (quotient mant exp).2 := by
  unfold quotient
  split
  · exact Nat.one_pos
  · exact pow2_pos _

/-- A complexity is never negative: it is one, or lies above it. -/
theorem Complexity.value_nonneg (c : Complexity) : 0 ≤ c.toJson.value := by
  change 0 ≤ c.val.value
  rcases c.property with hone | hlt
  · rw [hone]
    exact zero_le_one
  · cases hc : c.val with
    | int n =>
      rw [hc] at hlt
      have hn : 1 < n := of_decide_eq_true hlt
      have hcast : (0 : ℚ) ≤ n := by exact_mod_cast (by omega : 0 ≤ n)
      exact hcast
    | float x =>
      rw [hc] at hlt
      change Number.intLt 1 (Binary64.ofFloat x) = true at hlt
      change 0 ≤ (Binary64.ofFloat x).value
      cases hx : Binary64.ofFloat x with
      | nan => exact le_refl 0
      | infinite negative => exact le_refl 0
      | finite negative mant exp =>
        rw [hx] at hlt
        have hden := Binary64.quotient_pos mant exp
        cases negative with
        | false => exact div_nonneg (Nat.cast_nonneg _) (Nat.cast_nonneg _)
        | true =>
          -- a negative number is not above one
          have habove : 1 * ((Binary64.quotient mant exp).2 : Int) <
            -((Binary64.quotient mant exp).1 : Int) := of_decide_eq_true hlt
          omega

/-! ## The reading -/

/-- A function in the place of the logarithm: how many decades a count spans. -/
class Decades (K : Type) where
  decades : K → K

/-- The logarithm itself. -/
noncomputable instance Decades.logarithm : Decades ℝ := ⟨fun n => Real.log (n + 1) / Real.log 10⟩

/-- The decades of a count are not negative, since one is added before the logarithm is taken. -/
theorem Decades.logarithm_nonneg {n : ℝ} (hn : 0 ≤ n) : 0 ≤ decades n :=
  div_nonneg (Real.log_nonneg (by linarith)) (Real.log_nonneg (by norm_num))

/-- More callers are more decades. -/
theorem Decades.logarithm_monotoneOn : MonotoneOn decades (Set.Ici (0 : ℝ)) := by
  intro n hn n' _ hle
  rw [Set.mem_Ici] at hn
  have hlog : Real.log (n + 1) ≤ Real.log (n' + 1) := Real.log_le_log (by linarith) (by linarith)
  exact div_le_div_of_nonneg_right hlog (Real.log_nonneg (by norm_num))

/-- Whether two numbers stand in a relation. -/
def Relation.Holds {K : Type} [LinearOrder K] : Relation → K → K → Prop
  | .below, a, b => a < b
  | .atMost, a, b => a ≤ b
  | .above, a, b => b < a
  | .atLeast, a, b => b ≤ a

instance Relation.instDecidableHolds {K : Type} [LinearOrder K] (r : Relation) (a b : K) :
    Decidable (r.Holds a b) :=
  match r with
  | .below => inferInstanceAs (Decidable (a < b))
  | .atMost => inferInstanceAs (Decidable (a ≤ b))
  | .above => inferInstanceAs (Decidable (b < a))
  | .atLeast => inferInstanceAs (Decidable (b ≤ a))

/-- Exact arithmetic over an ordered field. -/
instance Scalar.exact {K : Type} [Field K] [LinearOrder K] [Decades K] : Scalar Id K where
  given v := (v.value : K)
  ofInt n := (n : K)
  ofRatio n d := (n : K) / (d : K)
  add a b := pure (a + b)
  sub a b := pure (a - b)
  mul a b := pure (a * b)
  div a b := pure (a / b)
  pow a n := pure (a ^ n)
  decades n := pure (Decades.decades n)
  holds r a b := pure (decide (r.Holds a b))
  lt a b := decide (a < b)
  guard _ := pure ()

namespace Condition

variable {β : Type}

/-- Conditions of the exact reading cannot fail, so the second one may as well always be looked
    at. -/
@[simp] theorem run_both (a b : Id Bool) : (both a b).run = (a.run && b.run) := by
  unfold both
  rw [Id.run_bind]
  cases a.run <;> rfl

@[simp] theorem run_either (a b : Id Bool) : (either a b).run = (a.run || b.run) := by
  unfold either
  rw [Id.run_bind]
  cases a.run <;> rfl

@[simp] theorem run_contrary (a : Id Bool) : (contrary a).run = !a.run := rfl

/-- Selecting by a condition is filtering by it. -/
@[simp] theorem run_select (p : β → Id Bool) (xs : List β) :
    (select p xs).run = xs.filter fun x => (p x).run := by
  induction xs with
  | nil => rfl
  | cons x xs ih =>
    rw [List.filter_cons, ← ih]
    rfl

end Condition

namespace Scalar

section Run

variable {K : Type} [Field K] [LinearOrder K] [Decades K] {β : Type}

@[simp] theorem run_add (a b : Id K) : (a + b).run = a.run + b.run := rfl

@[simp] theorem run_mul (a b : Id K) : (a * b).run = a.run * b.run := rfl

@[simp] theorem run_div (a b : Id K) : (a / b).run = a.run / b.run := rfl

@[simp] theorem run_whole (n : Int) : (whole n : Id K).run = n := rfl

/-- Weights and bounds stand for the fractions that they are written as, without any rounding. -/
@[simp] theorem run_hundredths (n : Nat) : (hundredths n : Id K).run = n / 100 := by
  change ((n : Int) : K) / ((100 : Nat) : K) = n / 100
  rw [Int.cast_natCast, Nat.cast_ofNat]

@[simp] theorem run_zero : (zero : Id K).run = 0 := by
  change ((0 : Int) : K) / ((1 : Nat) : K) = 0
  rw [Int.cast_zero, zero_div]

@[simp] theorem run_one : (one : Id K).run = 1 := by
  change ((1 : Int) : K) / ((1 : Nat) : K) = 1
  rw [Int.cast_one, Nat.cast_one, div_one]

@[simp] theorem run_sizeOf (v : Json) : (Scalar.sizeOf v : Id K).run = v.size := by
  change ((v.size : Int) : K) = v.size
  rw [Int.cast_natCast]

@[simp] theorem run_quotient (part total : Nat) :
    (quotient part total : Id K).run = part / total := by
  change ((part : Int) : K) / ((total : Int) : K) = part / total
  rw [Int.cast_natCast, Int.cast_natCast]

@[simp] theorem run_holds (r : Relation) (a b : K) :
    (Scalar.holds r a b).run = decide (r.Holds a b) := rfl

/-- A comparison decides the relation between the values. -/
@[simp] theorem run_test (r : Relation) (a b : Id K) :
    (test r a b).run = decide (r.Holds a.run b.run) := rfl

/-- Bounding from above is the minimum, and which of two equal values is kept cannot be told. -/
@[simp] theorem run_atMost (hi x : Id K) : (atMost hi x).run = min hi.run x.run := by
  unfold atMost
  rw [Id.run_bind, Id.run_bind]
  change Id.run (if decide (x.run < hi.run) = true then pure x.run else pure hi.run) = _
  split
  · next hlt => exact (min_eq_right (le_of_lt (of_decide_eq_true hlt))).symm
  · next hlt => exact (min_eq_left (not_lt.1 fun h => hlt (decide_eq_true h))).symm

@[simp] theorem run_atLeast (lo x : Id K) : (atLeast lo x).run = max lo.run x.run := by
  unfold atLeast
  rw [Id.run_bind, Id.run_bind]
  change Id.run (if decide (lo.run < x.run) = true then pure x.run else pure lo.run) = _
  split
  · next hlt => exact (max_eq_right (le_of_lt (of_decide_eq_true hlt))).symm
  · next hlt => exact (max_eq_left (not_lt.1 fun h => hlt (decide_eq_true h))).symm

@[simp] theorem run_capped (x : Id K) : (capped x).run = min 1 x.run := by
  rw [capped, run_atMost, run_one]

/-- A value brought into the unit interval. -/
@[simp] theorem run_unit (x : Id K) : (unit x).run = max 0 (min 1 x.run) := by
  change (atLeast zero (capped x)).run = _
  rw [run_atLeast, run_zero, run_capped]

/-- The largest of some values, taken from left to right. -/
theorem run_largest (first : K) (rest : List K) :
    (largest first rest).run = rest.foldl max first := by
  induction rest generalizing first with
  | nil => rfl
  | cons x rest ih =>
    change Id.run (if decide (first < x) = true then largest x rest else largest first rest) = _
    rw [List.foldl_cons]
    split
    · next hlt => rw [ih, max_eq_right (le_of_lt (of_decide_eq_true hlt))]
    · next hlt => rw [ih, max_eq_left (not_lt.1 fun h => hlt (decide_eq_true h))]

/-- The sum from left to right is the sum: exactly, the order does not matter. -/
theorem run_sum (xs : List K) : (sum xs).run = xs.sum := by
  rw [sum, List.idRun_foldlM, List.sum_eq_foldl]
  change xs.foldl (fun a b => a + b) ((0 : Int) : K) = _
  rw [Int.cast_zero]

@[simp] theorem run_total (xs : List (Id K)) : (total xs).run = (xs.map Id.run).sum := by
  rw [total, Id.run_bind, List.idRun_mapM, run_sum]

/-- The mean is the sum divided by the number of terms, which is right for no terms, too. -/
@[simp] theorem run_mean (xs : List (Id K)) :
    (mean xs).run = (xs.map Id.run).sum / xs.length := by
  unfold mean
  rw [Id.run_bind, List.idRun_mapM]
  split
  · next hempty =>
    rw [List.isEmpty_iff, List.map_eq_nil_iff] at hempty
    rw [hempty, run_zero, List.map_nil, List.sum_nil, zero_div]
  · rw [Id.run_bind, run_sum]
    change (xs.map Id.run).sum / (((xs.map Id.run).length : Int) : K) = _
    rw [List.length_map, Int.cast_natCast]

@[simp] theorem run_share (part total : Nat) : (share part total : Id K).run = part / total := by
  unfold share
  split
  · next htotal => rw [run_zero, htotal, Nat.cast_zero, div_zero]
  · exact run_quotient part total

@[simp] theorem run_grade_nil (above : Nat) (value : Id K) :
    (grade [] above value).run = above / 100 := run_hundredths above

/-- A grade is that of the first band that reaches the value. -/
theorem run_grade_cons (band : Int × Nat) (bands : List (Int × Nat)) (above : Nat) (value : Id K) :
    (grade (band :: bands) above value).run =
      if value.run ≤ band.1 then (band.2 : K) / 100 else (grade bands above value).run := by
  change Id.run (if decide (value.run ≤ (band.1 : K)) = true then hundredths band.2
    else grade bands above value) = _
  by_cases hle : value.run ≤ band.1
  · rw [if_pos hle, if_pos (decide_eq_true hle), run_hundredths]
  · rw [if_neg hle, if_neg fun h => hle (of_decide_eq_true h)]

end Run

/-! ## The unit interval -/

section Unit

variable {K : Type} [Field K] [LinearOrder K] [IsStrictOrderedRing K] [Decades K] {a b : Id K}

/-- Signs of the parts that scores are put together from: none of them is negative. -/
theorem add_nonneg_run (ha : 0 ≤ a.run) (hb : 0 ≤ b.run) : 0 ≤ (a + b).run := by
  rw [run_add]
  exact add_nonneg ha hb

theorem div_whole_nonneg (n : Nat) (ha : 0 ≤ a.run) : 0 ≤ (a / whole n).run := by
  rw [run_div, run_whole, Int.cast_natCast]
  exact div_nonneg ha (Nat.cast_nonneg n)

theorem hundredths_nonneg (n : Nat) : 0 ≤ (hundredths n : Id K).run := by
  rw [run_hundredths]
  positivity

theorem hundredths_mul_nonneg (n : Nat) (ha : 0 ≤ a.run) : 0 ≤ (hundredths n * a).run := by
  rw [run_mul]
  exact mul_nonneg (hundredths_nonneg n) ha

/-- A measure that is not negative is read as a value that is not. -/
theorem measured_nonneg {v : Json} (h : 0 ≤ v.value) : 0 ≤ (measured v : Id K).run :=
  Rat.cast_nonneg.2 h

theorem sizeOf_nonneg (v : Json) : 0 ≤ (Scalar.sizeOf v : Id K).run := by
  rw [run_sizeOf]
  exact Nat.cast_nonneg _

/-- A value brought into the unit interval is in it, whatever it was before. -/
theorem unit_mem_unit (a : Id K) : (unit a).run ∈ Set.Icc 0 1 := by
  rw [run_unit]
  exact ⟨le_max_left _ _, max_le zero_le_one (min_le_left _ _)⟩

/-- A value that is capped still has to be shown not to be negative. -/
theorem capped_mem_unit (ha : 0 ≤ a.run) : (capped a).run ∈ Set.Icc 0 1 := by
  rw [run_capped]
  exact ⟨le_min zero_le_one ha, min_le_left _ _⟩

/-- A weight of at most a hundred hundredths. -/
theorem hundredths_mem_unit {n : Nat} (h : n ≤ 100) : (hundredths n : Id K).run ∈ Set.Icc 0 1 := by
  have hn : (n : K) ≤ 100 := by exact_mod_cast h
  refine ⟨hundredths_nonneg n, ?_⟩
  rw [run_hundredths]
  exact div_le_one_of_le₀ hn (by norm_num)

theorem zero_mem_unit : (zero : Id K).run ∈ Set.Icc 0 1 := by
  rw [run_zero]
  exact ⟨le_refl 0, zero_le_one⟩

theorem one_mem_unit : (one : Id K).run ∈ Set.Icc 0 1 := by
  rw [run_one]
  exact ⟨zero_le_one, le_refl 1⟩

theorem quotient_nonneg (part total : Nat) : 0 ≤ (quotient part total : Id K).run := by
  rw [run_quotient]
  positivity

/-- A mean of nothing is zero, so no list has to be shown not to be empty. -/
theorem mean_nonneg {xs : List (Id K)} (h : ∀ x ∈ xs, 0 ≤ x.run) : 0 ≤ (mean xs).run := by
  rw [run_mean]
  refine div_nonneg (List.sum_nonneg ?_) (Nat.cast_nonneg _)
  intro y hy
  obtain ⟨x, hx, rfl⟩ := List.mem_map.1 hy
  exact h x hx

theorem mean_map_nonneg {β : Type} {f : β → Id K} {xs : List β} (h : ∀ x ∈ xs, 0 ≤ (f x).run) :
    0 ≤ (mean (xs.map f)).run := by
  apply mean_nonneg
  intro y hy
  obtain ⟨x, hx, rfl⟩ := List.mem_map.1 hy
  exact h x hx

/-- A mean lies where its terms lie. -/
theorem mean_mem_unit {xs : List (Id K)} (h : ∀ x ∈ xs, x.run ∈ Set.Icc 0 1) :
    (mean xs).run ∈ Set.Icc 0 1 := by
  refine ⟨mean_nonneg fun x hx => (h x hx).1, ?_⟩
  have hsum : (xs.map Id.run).sum ≤ (xs.map fun _ => (1 : K)).sum :=
    List.sum_le_sum fun x hx => (h x hx).2
  rw [run_mean]
  refine div_le_one_of_le₀ ?_ (Nat.cast_nonneg _)
  rwa [List.map_const', List.sum_replicate, nsmul_one] at hsum

/-- The same for a score of each element. -/
theorem mean_map_mem_unit {β : Type} {f : β → Id K} {xs : List β}
    (h : ∀ x ∈ xs, (f x).run ∈ Set.Icc 0 1) : (mean (xs.map f)).run ∈ Set.Icc 0 1 := by
  apply mean_mem_unit
  intro y hy
  obtain ⟨x, hx, rfl⟩ := List.mem_map.1 hy
  exact h x hx

/-- A mean of ones and of one other score. -/
theorem meanOf_mem_unit {β : Type} (p : β → Bool) (ha : a.run ∈ Set.Icc 0 1) (xs : List β) :
    (meanOf p a xs).run ∈ Set.Icc 0 1 := by
  apply mean_map_mem_unit
  intro x _
  split
  · exact one_mem_unit
  · exact ha

/-- Bands whose scores are at most one hundred. -/
theorem grade_mem_unit {bands : List (Int × Nat)} {above : Nat}
    (hbands : ∀ band ∈ bands, band.2 ≤ 100) (habove : above ≤ 100) (a : Id K) :
    (grade bands above a).run ∈ Set.Icc 0 1 := by
  induction bands with
  | nil => exact hundredths_mem_unit habove
  | cons band bands ih =>
    rw [run_grade_cons]
    split
    · have hband := hundredths_mem_unit (K := K) (hbands band List.mem_cons_self)
      rwa [run_hundredths] at hband
    · exact ih fun other hother => hbands other (List.mem_cons_of_mem band hother)

/-- Half of two numbers of the unit interval is one of it. -/
theorem half_mem_unit (ha : a.run ∈ Set.Icc 0 1) (hb : b.run ∈ Set.Icc 0 1) :
    ((a + b) / whole 2).run ∈ Set.Icc 0 1 := by
  obtain ⟨ha₀, ha₁⟩ := ha
  obtain ⟨hb₀, hb₁⟩ := hb
  rw [run_div, run_add, run_whole, Int.cast_ofNat]
  constructor
  · positivity
  · linarith

end Unit

/-! ## Monotonicity -/

section Mono

variable {K : Type} [Field K] [LinearOrder K] [IsStrictOrderedRing K] [Decades K]
  {a a' b b' : Id K}

theorem add_mono (ha : a.run ≤ a'.run) (hb : b.run ≤ b'.run) : (a + b).run ≤ (a' + b').run := by
  rw [run_add, run_add]
  exact add_le_add ha hb

/-- Weights are not negative, so they keep the order. -/
theorem hundredths_mul_mono (n : Nat) (ha : a.run ≤ a'.run) :
    (hundredths n * a).run ≤ (hundredths n * a').run := by
  rw [run_mul, run_mul, run_hundredths]
  exact mul_le_mul_of_nonneg_left ha (by positivity)

theorem div_whole_mono (n : Nat) (ha : a.run ≤ a'.run) :
    (a / whole n).run ≤ (a' / whole n).run := by
  rw [run_div, run_div, run_whole, Int.cast_natCast]
  exact div_le_div_of_nonneg_right ha (Nat.cast_nonneg n)

omit [IsStrictOrderedRing K] in
theorem capped_mono (ha : a.run ≤ a'.run) : (capped a).run ≤ (capped a').run := by
  rw [run_capped, run_capped]
  exact min_le_min_left 1 ha

omit [IsStrictOrderedRing K] in
/-- Bringing values into the unit interval may make them equal, but never turns them round. -/
theorem unit_mono (ha : a.run ≤ a'.run) : (unit a).run ≤ (unit a').run := by
  rw [run_unit, run_unit]
  exact max_le_max_left 0 (min_le_min_left 1 ha)

omit [IsStrictOrderedRing K] in
/-- The largest of some numbers follows each of them upwards. -/
theorem largest_mono {first first' : K} {rest rest' : List K}
    (h : List.Forall₂ (· ≤ ·) (first :: rest) (first' :: rest')) :
    (largest first rest).run ≤ (largest first' rest').run := by
  obtain ⟨hfirst, hrest⟩ := List.forall₂_cons.1 h
  rw [run_largest, run_largest]
  clear h
  induction hrest generalizing first first' with
  | nil => exact hfirst
  | cons hxy _ ih => exact ih (max_le_max hfirst hxy)

omit [IsStrictOrderedRing K] in
/-- The largest value is at least each of them. -/
theorem le_largest {x first : K} {rest : List K} (hx : x ∈ first :: rest) :
    x ≤ (largest first rest).run := by
  rw [run_largest]
  induction rest generalizing x first with
  | nil => exact le_of_eq (List.mem_singleton.1 hx)
  | cons y rest ih =>
    rcases List.mem_cons.1 hx with rfl | hx
    · exact (le_max_left x y).trans (ih List.mem_cons_self)
    · rcases List.mem_cons.1 hx with rfl | hx
      · exact (le_max_right first x).trans (ih List.mem_cons_self)
      · exact ih (List.mem_cons_of_mem _ hx)

theorem measured_mono {v v' : Json} (h : v.value ≤ v'.value) :
    (measured v : Id K).run ≤ (measured v' : Id K).run :=
  Rat.cast_le.2 h

theorem sizeOf_mono {v v' : Json} (h : v.size ≤ v'.size) :
    (Scalar.sizeOf v : Id K).run ≤ (Scalar.sizeOf v' : Id K).run := by
  rw [run_sizeOf, run_sizeOf]
  exact Nat.cast_le.2 h

/-- A sum follows its terms upwards. -/
theorem total_mono {xs ys : List (Id K)} (h : List.Forall₂ (fun x y => x.run ≤ y.run) xs ys) :
    (total xs).run ≤ (total ys).run := by
  rw [run_total, run_total]
  apply List.Forall₂.sum_le_sum
  rw [List.forall₂_map_left_iff, List.forall₂_map_right_iff]
  exact h

/-- A mean follows its terms upwards. -/
theorem mean_mono {xs ys : List (Id K)} (h : List.Forall₂ (fun x y => x.run ≤ y.run) xs ys) :
    (mean xs).run ≤ (mean ys).run := by
  have hsum := total_mono h
  rw [run_total, run_total] at hsum
  rw [run_mean, run_mean, h.length_eq]
  exact div_le_div_of_nonneg_right hsum (Nat.cast_nonneg _)

/-- Means of scores that grow from one list to the other, element by element. -/
theorem mean_map_mono {β : Type} {R : β → β → Prop} {f : β → Id K} {xs ys : List β}
    (h : List.Forall₂ R xs ys) (hf : ∀ x y, R x y → (f x).run ≤ (f y).run) :
    (mean (xs.map f)).run ≤ (mean (ys.map f)).run := by
  apply mean_mono
  rw [List.forall₂_map_left_iff, List.forall₂_map_right_iff]
  exact h.imp hf

/-- A mean in which elements count one or less goes up with the elements that count one. -/
theorem meanOf_mono {β : Type} {R : β → β → Prop} {p : β → Bool} {xs ys : List β}
    (h : List.Forall₂ R xs ys) (hp : ∀ x y, R x y → p x = true → p y = true) {other : Id K}
    (hother : other.run ≤ 1) : (meanOf p other xs).run ≤ (meanOf p other ys).run := by
  apply mean_map_mono h
  intro x y hxy
  by_cases hx : p x = true
  · rw [if_pos hx, if_pos (hp x y hxy hx)]
  · rw [if_neg hx]
    split
    · rwa [run_one]
    · exact le_refl _

/-- A grade is at least what every band scores at least. -/
theorem le_run_grade {n : Nat} {bands : List (Int × Nat)} {above : Nat}
    (h : ∀ score ∈ bands.map (·.2) ++ [above], n ≤ score) (a : Id K) :
    (n : K) / 100 ≤ (grade bands above a).run := by
  induction bands with
  | nil =>
    have hn : (n : K) ≤ above := by exact_mod_cast h above (by simp)
    rw [run_grade_nil]
    exact div_le_div_of_nonneg_right hn (by norm_num)
  | cons band bands ih =>
    rw [run_grade_cons]
    split
    · have hn : (n : K) ≤ band.2 := by exact_mod_cast h band.2 (by simp)
      exact div_le_div_of_nonneg_right hn (by norm_num)
    · exact ih fun score hscore => h score (List.mem_cons_of_mem _ hscore)

/-- A grade follows its number upwards when no band scores more than a later one. -/
theorem grade_mono {bands : List (Int × Nat)} {above : Nat}
    (hbands : (bands.map (·.2) ++ [above]).Pairwise (· ≤ ·)) (ha : a.run ≤ a'.run) :
    (grade bands above a).run ≤ (grade bands above a').run := by
  induction bands with
  | nil => exact le_refl _
  | cons band bands ih =>
    obtain ⟨hfirst, hrest⟩ := List.pairwise_cons.1 hbands
    rw [run_grade_cons, run_grade_cons]
    by_cases ha' : a'.run ≤ band.1
    · -- a number that does not exceed the bound stays within it when it is lowered
      rw [if_pos ha', if_pos (ha.trans ha')]
    · rw [if_neg ha']
      split
      · exact le_run_grade hfirst a'
      · exact ih hrest

end Mono

end Scalar
end PathTriage
