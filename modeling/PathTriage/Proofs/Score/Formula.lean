import PathTriage.Proofs.Number
import PathTriage.Proofs.Outcome
import PathTriage.Scalar

/-!
Score formulas that do not fail.

A formula over given values fails when an operand is no number, when an integer lies beyond all
machine numbers, or when it divides by zero. `Computes` says that none of this happens and that a
machine number comes out. There is a lemma for every way in which formulas are put together, so that
a formula computes as soon as the values at its leaves are fit: integers within the range of machine
numbers, or machine numbers.
-/

namespace PathTriage

open Outcome

/-! ## Ranges -/

namespace Number

/-- The bound of the range lies far above the product of any two sizes. -/
theorem pow2_lt_machineBound : pow2 126 < machineBound := by
  have hdouble : pow2 (970 + 1) < pow2 1024 := pow2_lt (by decide)
  have hlt : pow2 126 < pow2 970 := pow2_lt (by decide)
  rw [pow2_succ] at hdouble
  unfold machineBound
  omega

theorem lt_machineBound {n : Nat} (h : n < pow2 126) : n < machineBound :=
  h.trans pow2_lt_machineBound

/-- An integer within the range converts. -/
theorem toFloat_int {n : Int} (h : n.natAbs < machineBound) :
    (Number.int n).toFloat = .ok (Binary64.ofInt n) := by
  rw [toFloat, if_pos h]

/-- A quotient of integers is rounded once, from the exact quotient. -/
theorem div_int {a b : Int} (hb : b ≠ 0) (h : a.natAbs < machineBound * b.natAbs) :
    div (.int a) (.int b) = .ok (.float (Binary64.ofRatio (a * b.sign) b.natAbs)) := by
  have hzero : (Number.int b).same (.int 0) = false := beq_eq_false_iff_ne.2 hb
  rw [div, hzero, if_neg Bool.false_ne_true, if_pos h]

theorem div_natCast {a b : Nat} (hb : 0 < b) (h : a < machineBound * b) :
    div (.int a) (.int b) = .ok (.float (Binary64.nearest false a b)) := by
  have hsign : (a : Int) * Int.sign b = a := by
    rw [Int.sign_eq_one_of_pos (by omega), Int.mul_one]
  have hpositive : decide ((a : Int) < 0) = false := decide_eq_false (by omega)
  rw [div_int (by omega) (by rwa [Int.natAbs_natCast, Int.natAbs_natCast]), hsign, Binary64.ofRatio,
    hpositive, Int.natAbs_natCast, Int.natAbs_natCast]

/-- It fails when the exact quotient is out of range. Integers out of range do no harm if their
    quotient is within it. -/
theorem div_int_out {a b : Int} (hb : b ≠ 0) (h : ¬a.natAbs < machineBound * b.natAbs) :
    div (.int a) (.int b) = .error .quotientRange := by
  have hzero : (Number.int b).same (.int 0) = false := beq_eq_false_iff_ne.2 hb
  rw [div, hzero, if_neg Bool.false_ne_true, if_neg h]

theorem float_of_machine {f : Float → Float → Float} {a b n : Number} (h : machine f a b = .ok n) :
    ∃ x, n = .float x := by
  obtain ⟨x, -, h⟩ := bind_eq_ok.1 h
  obtain ⟨y, -, h⟩ := bind_eq_ok.1 h
  exact ⟨f x y, (pure_eq_ok.1 h).symm⟩

/-- A quotient is a machine number, if there is one. -/
theorem float_of_div {a b n : Number} (h : div a b = .ok n) : ∃ x, n = .float x := by
  unfold div at h
  split at h
  · exact nomatch h
  · split at h
    · split at h
      · exact ⟨_, (Except.ok.inj h).symm⟩
      · exact nomatch h
    · exact float_of_machine h

end Number

namespace Json

/-- A machine number. -/
def IsMachine (v : Json) : Prop := ∃ x, v = .ofFloat x

/-- An integer within the range of machine numbers. -/
def IsWhole (v : Json) : Prop := ∃ n : Int, v = .ofInt n ∧ n.natAbs < Number.machineBound

/-- A value that stands for a number. -/
def IsNumber (v : Json) : Prop := v.number?.isSome = true

theorem isMachine_ofFloat (x : Float) : IsMachine (.ofFloat x) := ⟨x, rfl⟩

/-- Machine numbers and integers within the range are numbers, which is all that a comparison
    needs. -/
theorem IsMachine.isNumber {v : Json} (h : v.IsMachine) : v.IsNumber := by
  obtain ⟨x, rfl⟩ := h
  rfl

theorem IsWhole.isNumber {v : Json} (h : v.IsWhole) : v.IsNumber := by
  obtain ⟨n, rfl, -⟩ := h
  rfl

theorem isNumber_ofInt (n : Int) : (Json.ofInt n).IsNumber := rfl

variable {a b : Json}

/-- Arithmetic on machine numbers always gives one, be it infinite or no number at all. -/
theorem gives_add (ha : a.IsMachine) (hb : b.IsMachine) : Gives IsMachine (add a b) := by
  obtain ⟨x, rfl⟩ := ha
  obtain ⟨y, rfl⟩ := hb
  exact ⟨_, rfl, isMachine_ofFloat (x + y)⟩

theorem gives_sub (ha : a.IsMachine) (hb : b.IsMachine) : Gives IsMachine (sub a b) := by
  obtain ⟨x, rfl⟩ := ha
  obtain ⟨y, rfl⟩ := hb
  exact ⟨_, rfl, isMachine_ofFloat (x - y)⟩

theorem gives_mul (ha : a.IsMachine) (hb : b.IsMachine) : Gives IsMachine (mul a b) := by
  obtain ⟨x, rfl⟩ := ha
  obtain ⟨y, rfl⟩ := hb
  exact ⟨_, rfl, isMachine_ofFloat (x * y)⟩

/-- An integer is turned into a machine number to be added to one. -/
theorem add_ofInt_ofFloat {n : Int} (hn : n.natAbs < Number.machineBound) (y : Float) :
    add (.ofInt n) (.ofFloat y) = .ok (.ofFloat (Binary64.ofInt n + y)) := by
  change (Number.machine (· + ·) (.int n) (.float y)).map Json.number = _
  rw [Number.machine, Number.toFloat_int hn]
  rfl

/-- An integer is converted first, so it has to be within the range. -/
theorem gives_add_whole (ha : a.IsWhole) (hb : b.IsMachine) : Gives IsMachine (add a b) := by
  obtain ⟨n, rfl, hn⟩ := ha
  obtain ⟨y, rfl⟩ := hb
  exact ⟨_, add_ofInt_ofFloat hn y, isMachine_ofFloat _⟩

theorem sub_ofInt_ofFloat {n : Int} (hn : n.natAbs < Number.machineBound) (y : Float) :
    sub (.ofInt n) (.ofFloat y) = .ok (.ofFloat (Binary64.ofInt n - y)) := by
  change (Number.machine (· - ·) (.int n) (.float y)).map Json.number = _
  rw [Number.machine, Number.toFloat_int hn]
  rfl

theorem gives_sub_whole (ha : a.IsWhole) (hb : b.IsMachine) : Gives IsMachine (sub a b) := by
  obtain ⟨n, rfl, hn⟩ := ha
  obtain ⟨y, rfl⟩ := hb
  exact ⟨_, sub_ofInt_ofFloat hn y, isMachine_ofFloat _⟩

theorem div_ofFloat_ofInt (x : Float) {n : Int} (hn : n ≠ 0)
    (hrange : n.natAbs < Number.machineBound) :
    div (.ofFloat x) (.ofInt n) = .ok (.ofFloat (x / Binary64.ofInt n)) := by
  have hzero : (Number.int n).same (.int 0) = false := beq_eq_false_iff_ne.2 hn
  -- one operand is a machine number, so the other is turned into one
  change (Number.div (.float x) (.int n)).map Json.number = _
  unfold Number.div
  rw [hzero, if_neg Bool.false_ne_true]
  change (Number.machine (· / ·) (.float x) (.int n)).map Json.number = _
  rw [Number.machine, Number.toFloat_int hrange]
  rfl

/-- A machine number can be divided by any integer within the range but zero. -/
theorem gives_div (ha : a.IsMachine) {n : Int} (hn : n ≠ 0)
    (hrange : n.natAbs < Number.machineBound) :
    Gives IsMachine (div a (.ofInt n)) := by
  obtain ⟨x, rfl⟩ := ha
  exact ⟨_, div_ofFloat_ofInt x hn hrange, isMachine_ofFloat _⟩

/-- An integer is divided by a machine number that is not zero. -/
theorem gives_div_ofFloat (ha : a.IsWhole) {y : Float}
    (hy : (Number.float y).same (.int 0) = false) :
    Gives IsMachine (div a (.ofFloat y)) := by
  obtain ⟨n, rfl, hn⟩ := ha
  refine ⟨.ofFloat (Binary64.ofInt n / y), ?_, isMachine_ofFloat _⟩
  change (Number.div (.int n) (.float y)).map Json.number = _
  unfold Number.div
  rw [hy, if_neg Bool.false_ne_true]
  change (Number.machine (· / ·) (.int n) (.float y)).map Json.number = _
  rw [Number.machine, Number.toFloat_int hn]
  rfl

/-- A quotient of integers, as long as it is within the range. -/
theorem gives_div_ofInt {m n : Int} (hn : n ≠ 0)
    (hrange : m.natAbs < Number.machineBound * n.natAbs) :
    Gives IsMachine (div (.ofInt m) (.ofInt n)) := by
  refine ⟨.ofFloat (Binary64.ofRatio (m * n.sign) n.natAbs), ?_, isMachine_ofFloat _⟩
  change (Number.div (.int m) (.int n)).map Json.number = _
  rw [Number.div_int hn hrange]
  rfl

/-- The failure of a quotient of integers out of range. -/
theorem div_ofInt_out {m n : Int} (hn : n ≠ 0)
    (hrange : ¬m.natAbs < Number.machineBound * n.natAbs) :
    div (.ofInt m) (.ofInt n) = .error .quotientRange := by
  change (Number.div (.int m) (.int n)).map Json.number = _
  rw [Number.div_int_out hn hrange]
  rfl

/-- A quotient is a machine number, whatever is divided. -/
theorem isMachine_of_div {v : Json} (h : div a b = .ok v) : v.IsMachine := by
  unfold div operate at h
  split at h
  · next x y _ _ =>
    cases hdiv : Number.div x y with
    | error e =>
      rw [hdiv] at h
      exact nomatch h
    | ok n =>
      obtain ⟨z, rfl⟩ := Number.float_of_div hdiv
      rw [hdiv] at h
      exact ⟨z, (Except.ok.inj h).symm⟩
  · exact nomatch h

/-- Two numbers can be compared in any relation. -/
theorem gives_holds (ha : a.IsNumber) (hb : b.IsNumber) (r : Relation) :
    Gives (fun _ => True) (holds r a b) := by
  obtain ⟨x, hx⟩ := Option.isSome_iff_exists.1 ha
  obtain ⟨y, hy⟩ := Option.isSome_iff_exists.1 hb
  exact ⟨_, holds_of_number hx hy r, trivial⟩

end Json

/-! ## Conditions -/

/-- A condition that is decided one way or the other. -/
def Decides (c : Except Failure Bool) : Prop := Gives (fun _ => True) c

namespace Condition

variable {a b : Except Failure Bool} {β : Type} {p : β → Except Failure Bool} {xs : List β}

theorem decides_pure (holds : Bool) : Decides (pure holds) := ⟨holds, rfl, trivial⟩

/-- Conditions that can be decided, put together. -/
theorem decides_both (ha : Decides a) (hb : Decides b) : Decides (both a b) :=
  ha.choose hb (decides_pure false)

theorem decides_either (ha : Decides a) (hb : Decides b) : Decides (either a b) :=
  ha.choose (decides_pure true) hb

theorem decides_contrary (ha : Decides a) : Decides (contrary a) :=
  ha.bind fun holds _ => decides_pure !holds

/-- Whether some element satisfies a condition that can be decided of each. -/
theorem decides_anyOf (h : ∀ x ∈ xs, Decides (p x)) : Decides (anyOf p xs) := by
  induction xs with
  | nil => exact decides_pure false
  | cons x xs ih =>
    have hrest := ih fun y hy => h y (List.mem_cons_of_mem x hy)
    exact decides_either (h x List.mem_cons_self) hrest

/-- Selecting elements leaves some of them out. -/
theorem gives_select (h : ∀ x ∈ xs, Decides (p x)) : Gives (·.Sublist xs) (select p xs) := by
  induction xs with
  | nil => exact .pure (.refl [])
  | cons x xs ih =>
    have hrest := ih fun y hy => h y (List.mem_cons_of_mem x hy)
    refine (h x List.mem_cons_self).bind fun holds _ => hrest.bind fun more hmore => ?_
    cases holds with
    | true => exact .pure (hmore.cons_cons x)
    | false => exact .pure (hmore.cons x)

theorem gives_count (h : ∀ x ∈ xs, Decides (p x)) : Gives (fun _ => True) (count p xs) :=
  (gives_select h).bind fun _ _ => .pure trivial

end Condition

/-! ## Formulas -/

/-- A formula that gives a machine number. -/
def Computes (c : Except Failure Json) : Prop := Gives Json.IsMachine c

namespace Scalar

variable {a b : Except Failure Json}

/-- What computes can be compared. -/
theorem Computes.isNumber (h : Computes a) : Gives Json.IsNumber a :=
  Gives.imp h fun _ hv => hv.isNumber

theorem computes_pure {v : Json} (h : v.IsMachine) : Computes (pure v) := .pure h

theorem computes_hundredths (n : Nat) : Computes (hundredths n) := computes_pure ⟨_, rfl⟩

theorem computes_zero : Computes zero := computes_pure ⟨_, rfl⟩

theorem computes_one : Computes one := computes_pure ⟨_, rfl⟩

/-- A constant within the range. -/
theorem gives_whole {n : Int} (h : n.natAbs < Number.machineBound) :
    Gives Json.IsWhole (whole n) := .pure ⟨n, rfl, h⟩

theorem isNumber_pure {v : Json} (h : v.IsNumber) :
    Gives Json.IsNumber (pure v : Except Failure Json) := .pure h

theorem isNumber_whole (n : Int) : Gives Json.IsNumber (whole n) := isNumber_pure rfl

theorem isNumber_hundredths (n : Nat) : Gives Json.IsNumber (hundredths n) := isNumber_pure rfl

/-- Formulas that compute, put together. -/
theorem computes_add (ha : Computes a) (hb : Computes b) : Computes (a + b) :=
  ha.bind fun _ hx => hb.bind fun _ hy => Json.gives_add hx hy

theorem computes_sub (ha : Computes a) (hb : Computes b) : Computes (a - b) :=
  ha.bind fun _ hx => hb.bind fun _ hy => Json.gives_sub hx hy

theorem computes_mul (ha : Computes a) (hb : Computes b) : Computes (a * b) :=
  ha.bind fun _ hx => hb.bind fun _ hy => Json.gives_mul hx hy

/-- Dividing by a constant. -/
theorem computes_div (ha : Computes a) {n : Int} (hn : n ≠ 0) (hrange : n.natAbs < pow2 126) :
    Computes (a / whole n) :=
  ha.bind fun _ hx => Json.gives_div hx hn (Number.lt_machineBound hrange)

/-- Dividing an integer by a constant, which cannot make it larger. -/
theorem computes_div_whole (ha : Gives Json.IsWhole a) {n : Int} (hn : n ≠ 0) :
    Computes (a / whole n) := by
  refine ha.bind ?_
  rintro _ ⟨m, rfl, hm⟩
  have hpos : 0 < n.natAbs := Int.natAbs_pos.2 hn
  exact Json.gives_div_ofInt hn (hm.trans_le (Nat.le_mul_of_pos_right _ hpos))

theorem computes_div_ofFloat (ha : Gives Json.IsWhole a) {y : Float}
    (hy : (Number.float y).same (.int 0) = false) : Computes (a / Except.ok (.ofFloat y)) :=
  ha.bind fun _ hx => Json.gives_div_ofFloat hx hy

theorem whole_div_whole (m n : Int) :
    (whole m / whole n : Except Failure Json) = Json.div (.ofInt m) (.ofInt n) := rfl

/-- A quotient of counts whose exact value is within the range. -/
theorem computes_quotient {part total : Nat} (htotal : 0 < total)
    (h : part < Number.machineBound * total) : Computes (quotient part total) := by
  refine Json.gives_div_ofInt (by omega) ?_
  rwa [Int.natAbs_natCast, Int.natAbs_natCast]

/-- A quotient of two counts that is at most two. -/
theorem computes_quotient_le {part total : Nat} (htotal : 0 < total) (h : part ≤ 2 * total) :
    Computes (quotient part total) := by
  have hbound : 2 < Number.machineBound := Number.lt_machineBound (by decide)
  exact computes_quotient htotal (h.trans_lt (Nat.mul_lt_mul_of_pos_right hbound htotal))

/-- A part of a whole is at most one, and zero without a whole. -/
theorem computes_share {part total : Nat} (h : part ≤ total) : Computes (share part total) := by
  unfold share
  split
  · exact computes_zero
  · exact computes_quotient_le (by omega) (by omega)

/-! ## Comparison -/

/-- A comparison of computed numbers. -/
theorem decides_test (r : Relation) (ha : Gives Json.IsNumber a) (hb : Gives Json.IsNumber b) :
    Decides (test r a b) :=
  ha.bind fun _ hx => hb.bind fun _ hy => Json.gives_holds hx hy r

/-- Cutting a number off fails only where the number does. -/
theorem settles_atMost {allowed : Failure → Prop} (ha : Computes a)
    (hb : Settles allowed Json.IsMachine b) : Settles allowed Json.IsMachine (atMost a b) :=
  ha.bind_settles fun _ hx => hb.bind fun _ hy => Gives.settles <|
    (Json.gives_holds hy.isNumber hx.isNumber .below).choose (computes_pure hy) (computes_pure hx)

/-- Bounding a computed number by another. -/
theorem computes_atMost (ha : Computes a) (hb : Computes b) : Computes (atMost a b) :=
  (settles_atMost ha hb.settles).gives

theorem settles_atLeast {allowed : Failure → Prop} (ha : Computes a)
    (hb : Settles allowed Json.IsMachine b) : Settles allowed Json.IsMachine (atLeast a b) :=
  ha.bind_settles fun _ hx => hb.bind fun _ hy => Gives.settles <|
    (Json.gives_holds hy.isNumber hx.isNumber .above).choose (computes_pure hy) (computes_pure hx)

theorem computes_atLeast (ha : Computes a) (hb : Computes b) : Computes (atLeast a b) :=
  (settles_atLeast ha hb.settles).gives

/-- The bounds zero and one are the most frequent. -/
theorem computes_capped (ha : Computes a) : Computes (capped a) := computes_atMost computes_one ha

theorem computes_unit (ha : Computes a) : Computes (unit a) :=
  computes_atLeast computes_zero (computes_capped ha)

/-- The largest of some numbers is one of them. -/
theorem gives_largest {P : Json → Prop} (hP : ∀ v, P v → v.IsNumber) {first : Json}
    {rest : List Json}
    (hfirst : P first) (hrest : ∀ v ∈ rest, P v) : Gives P (largest first rest) := by
  induction rest generalizing first with
  | nil => exact .pure hfirst
  | cons v rest ih =>
    have hv := hrest v List.mem_cons_self
    have hmore : ∀ w ∈ rest, P w := fun w hw => hrest w (List.mem_cons_of_mem v hw)
    exact (Json.gives_holds (hP v hv) (hP first hfirst) .above).choose (ih hv hmore)
      (ih hfirst hmore)

/-- A grade needs a number only, since its bands are constants. -/
theorem computes_grade (bands : List (Int × Nat)) (above : Nat) (ha : Gives Json.IsNumber a) :
    Computes (grade bands above a) := by
  refine ha.bind fun v hv => ?_
  induction bands with
  | nil => exact computes_hundredths above
  | cons band bands ih =>
    exact (Json.gives_holds hv (Json.isNumber_ofInt band.1) .atMost).choose
      (computes_hundredths band.2) ih

/-! ## Sums and means -/

/-- A sum starts from the integer zero and is a machine number after the first step. -/
theorem computes_sum {items : List Json} (h : ∀ v ∈ items, v.IsMachine) (hne : items ≠ []) :
    Computes (sum items) := by
  cases items with
  | nil => exact absurd rfl hne
  | cons v items =>
    have hzero : (Json.ofInt 0).IsWhole := ⟨0, rfl, Number.lt_machineBound (by decide)⟩
    have hfirst := Json.gives_add_whole hzero (h v List.mem_cons_self)
    have hstep : ∀ w ∈ items, ∀ x : Json, x.IsMachine → Gives Json.IsMachine (Json.add x w) := by
      intro w hw x hx
      exact Json.gives_add hx (h w (List.mem_cons_of_mem v hw))
    unfold sum
    rw [List.foldlM_cons]
    exact hfirst.bind fun _ hx => Gives.foldlM hstep hx

/-- A sum fails only where one of its terms does. -/
theorem settles_total {allowed : Failure → Prop} {xs : List (Except Failure Json)}
    (h : ∀ x ∈ xs, Settles allowed Json.IsMachine x) (hne : xs ≠ []) :
    Settles allowed Json.IsMachine (total xs) := by
  refine (Settles.mapM h).bind ?_
  rintro items ⟨hlength, hitems⟩
  refine Gives.settles (computes_sum hitems ?_)
  rintro rfl
  exact hne (List.length_eq_zero_iff.1 hlength.symm)

theorem computes_total {xs : List (Except Failure Json)} (h : ∀ x ∈ xs, Computes x)
    (hne : xs ≠ []) :
    Computes (total xs) :=
  (settles_total (fun x hx => (h x hx).settles) hne).gives

/-- The mean of machine numbers computes. -/
theorem computes_average {items : List Json} (h : ∀ v ∈ items, v.IsMachine)
    (hrange : items.length < Number.machineBound) :
    Computes
      (if items.isEmpty then zero else do Scalar.div (← sum items) (ofInt items.length)) := by
  split
  · exact computes_zero
  · next hne =>
    have hne : items ≠ [] := fun hnil => hne (List.isEmpty_iff.2 hnil)
    have hpos := List.length_pos_iff.2 hne
    exact (computes_sum h hne).bind fun _ hx =>
      Json.gives_div hx (by omega) (by rwa [Int.natAbs_natCast])

/-- A mean fails only where one of its terms does. -/
theorem settles_mean {allowed : Failure → Prop} {xs : List (Except Failure Json)}
    (h : ∀ x ∈ xs, Settles allowed Json.IsMachine x) (hrange : xs.length < Number.machineBound) :
    Settles allowed Json.IsMachine (mean xs) := by
  refine (Settles.mapM h).bind ?_
  rintro items ⟨hlength, hitems⟩
  exact Gives.settles (computes_average hitems (by omega))

/-- A mean fails where its terms do, for the reason of the first that fails. -/
theorem reason?_mean {xs : List (Except Failure Json)}
    (h : ∀ x ∈ xs, Settles (fun _ => True) Json.IsMachine x)
    (hrange : xs.length < Number.machineBound) :
    reason? (mean xs) = reason? (xs.mapM fun x => x) := by
  apply reason?_bind
  intro items hgiven
  obtain ⟨hlength, hitems⟩ := (Settles.mapM h).result items hgiven
  obtain ⟨v, hv, -⟩ := computes_average hitems (by omega)
  exact ⟨v, hv⟩

/-- A mean is a machine number, whatever its terms are. -/
theorem isMachine_of_mean {xs : List (Except Failure Json)} {v : Json} (h : mean xs = .ok v) :
    v.IsMachine := by
  obtain ⟨items, -, h⟩ := bind_eq_ok.1 h
  split at h
  · exact ⟨_, (pure_eq_ok.1 h).symm⟩
  · obtain ⟨total, -, h⟩ := bind_eq_ok.1 h
    exact Json.isMachine_of_div h

/-- A mean of computed numbers computes; a mean of nothing is zero. -/
theorem computes_mean {xs : List (Except Failure Json)} (h : ∀ x ∈ xs, Computes x)
    (hrange : xs.length < Number.machineBound) : Computes (mean xs) :=
  (settles_mean (fun x hx => (h x hx).settles) hrange).gives

theorem computes_mean_map {β : Type} {f : β → Except Failure Json} {xs : List β}
    (h : ∀ x ∈ xs, Computes (f x)) (hrange : xs.length < Number.machineBound) :
    Computes (mean (xs.map f)) := by
  refine computes_mean ?_ (by rwa [List.length_map])
  intro y hy
  obtain ⟨x, hx, rfl⟩ := List.mem_map.1 hy
  exact h x hx

/-- The sum of integers from left to right. -/
def wholeSum (ns : List Int) : Int := ns.foldl (· + ·) 0

theorem foldlM_add_ofInt (ns : List Int) : ∀ start : Int,
    (ns.map Json.ofInt).foldlM Json.add (.ofInt start) =
      .ok (.ofInt (ns.foldl (· + ·) start)) := by
  induction ns with
  | nil =>
    intro start
    rfl
  | cons n ns ih =>
    intro start
    exact ih (start + n)

/-- Integers are added exactly, however large they get. -/
theorem sum_ofInt (ns : List Int) : sum (ns.map Json.ofInt) = .ok (.ofInt (wholeSum ns)) :=
  foldlM_add_ofInt ns 0

/-- The mean of integers is the quotient of their exact sum. -/
theorem mean_ofInt {ns : List Int} (hne : ns ≠ []) :
    mean (ns.map fun n => pure (Json.ofInt n)) =
      Json.div (.ofInt (wholeSum ns)) (.ofInt ns.length) := by
  -- the values are computed before they are added, and none of them fails
  have hitems : (ns.map fun n => (pure (Json.ofInt n) : Except Failure Json)).mapM (fun x => x) =
      .ok (ns.map Json.ofInt) := by
    induction ns with
    | nil => exact absurd rfl hne
    | cons n ns ih =>
      cases ns with
      | nil => rfl
      | cons n' ns =>
        rw [List.map_cons, List.mapM_cons, ih (List.cons_ne_nil n' ns)]
        rfl
  have hempty : ¬(ns.map Json.ofInt).isEmpty = true := by
    rw [List.isEmpty_iff, List.map_eq_nil_iff]
    exact hne
  unfold mean
  rw [hitems]
  simp only [bind, Except.bind]
  rw [if_neg hempty, sum_ofInt, List.length_map]
  rfl

/-- Integers within a range have a mean within it. -/
theorem natAbs_wholeSum_lt {ns : List Int} {bound : Nat} (h : ∀ n ∈ ns, n.natAbs < bound)
    (hne : ns ≠ []) : (wholeSum ns).natAbs < bound * ns.length := by
  -- every integer takes one away from its share of the bound, whatever the sum so far
  have hfold : ∀ {ns : List Int}, (∀ n ∈ ns, n.natAbs < bound) → ∀ start : Int,
      (ns.foldl (· + ·) start).natAbs + ns.length ≤ start.natAbs + bound * ns.length := by
    intro ns
    induction ns with
    | nil =>
      intro _ start
      simp
    | cons n ns ih =>
      intro h start
      have hn := h n List.mem_cons_self
      have hrest := ih (fun m hm => h m (List.mem_cons_of_mem n hm)) (start + n)
      have habs := Int.natAbs_add_le start n
      rw [List.foldl_cons, List.length_cons, Nat.mul_succ]
      omega
  have hsum := hfold h 0
  have hpos := List.length_pos_iff.2 hne
  unfold wholeSum
  omega

/-- The sum of integers may leave the range, but their mean does not. -/
theorem computes_mean_whole {β : Type} {f : β → Except Failure Json} {xs : List β}
    (h : ∀ x ∈ xs, Gives Json.IsWhole (f x)) : Computes (mean (xs.map f)) := by
  have hwhole : ∃ ns : List Int, xs.map f = ns.map (fun n => pure (Json.ofInt n)) ∧
      ∀ n ∈ ns, n.natAbs < Number.machineBound := by
    induction xs with
    | nil => exact ⟨[], rfl, by simp⟩
    | cons x xs ih =>
      obtain ⟨_, hx, n, rfl, hn⟩ := h x List.mem_cons_self
      obtain ⟨ns, hmap, hns⟩ := ih fun y hy => h y (List.mem_cons_of_mem _ hy)
      refine ⟨n :: ns, ?_, by simpa using ⟨hn, hns⟩⟩
      rw [List.map_cons, List.map_cons, hx, hmap]
      rfl
  obtain ⟨ns, hmap, hns⟩ := hwhole
  rw [hmap]
  by_cases hne : ns = []
  · subst hne
    exact computes_zero
  · rw [mean_ofInt hne]
    have hpos := List.length_pos_iff.2 hne
    refine Json.gives_div_ofInt (by omega) ?_
    rw [Int.natAbs_natCast]
    exact natAbs_wholeSum_lt hns hne

theorem computes_meanOf {β : Type} (p : β → Bool) (ha : Computes a) {xs : List β}
    (hrange : xs.length < Number.machineBound) : Computes (meanOf p a xs) := by
  refine computes_mean_map ?_ hrange
  intro x _
  split
  · exact computes_one
  · exact ha

/-- The share of elements that satisfy a condition. -/
theorem computes_meanWhere {β : Type} (p : β → Bool) {xs : List β}
    (hrange : xs.length < Number.machineBound) : Computes (meanWhere p xs) :=
  computes_meanOf p computes_zero hrange

/-- The mean of one machine number: it is added to zero, and the sum divided by one. -/
theorem mean_ofFloat (x : Float) :
    mean [pure (Json.ofFloat x)] = .ok (.ofFloat ((Binary64.ofInt 0 + x) / Binary64.ofInt 1)) := by
  have hitems : [(pure (Json.ofFloat x) : Except Failure Json)].mapM (fun v => v) =
      .ok [Json.ofFloat x] := rfl
  have hsum : sum [Json.ofFloat x] = Json.add (.ofInt 0) (.ofFloat x) := bind_pure _
  have hrange : (1 : Int).natAbs < Number.machineBound := Number.lt_machineBound (by decide)
  unfold mean
  rw [hitems]
  simp only [bind, Except.bind]
  rw [if_neg (by simp), hsum, Json.add_ofInt_ofFloat (Number.lt_machineBound (by decide))]
  exact Json.div_ofFloat_ofInt _ Int.one_ne_zero hrange

/-- The share of one element is one or zero. -/
theorem meanWhere_singleton {β : Type} (p : β → Bool) (x : β) :
    meanWhere p [x] = Except.ok (Json.ofFloat (if p x then 1 else 0)) := by
  have hone : (Binary64.ofInt 0 + Binary64.ofRatio 1 1) / Binary64.ofInt 1 = 1 := by decide +kernel
  have hzero : (Binary64.ofInt 0 + Binary64.ofRatio 0 1) / Binary64.ofInt 1 = 0 := by decide +kernel
  change mean [if p x then one else zero] = _
  cases p x with
  | true => exact hone ▸ mean_ofFloat (Binary64.ofRatio 1 1)
  | false => exact hzero ▸ mean_ofFloat (Binary64.ofRatio 0 1)

/-- The same for a condition that may fail to be decided. -/
theorem computes_meanIf {β : Type} {p : β → Except Failure Bool} {xs : List β}
    (h : ∀ x ∈ xs, Decides (p x)) (hrange : xs.length < Number.machineBound) :
    Computes (meanIf p xs) := by
  refine computes_mean_map ?_ hrange
  intro x hx
  exact (h x hx).choose computes_one computes_zero

/-! ## Counts -/

/-- A count spans some decades; below zero there would be no logarithm. -/
theorem computes_decadesOf {n : Int} (hn : 0 ≤ n) : Computes (decadesOf (.ofInt n)) := by
  have hlog : (Number.int (n + 1)).log = .ok (Number.logNat (n + 1).toNat) := by
    rw [Number.log, if_neg (by omega)]
  refine ⟨.ofFloat (Number.logNat (n + 1).toNat / Float.log 10), ?_, Json.isMachine_ofFloat _⟩
  change (Number.decades (.int n)).map Json.number = _
  have hnext : (Number.int n).add (.int 1) = .ok (.int (n + 1)) := rfl
  rw [Number.decades, hnext]
  simp only [bind, Except.bind]
  rw [hlog]
  rfl

end Scalar
end PathTriage
