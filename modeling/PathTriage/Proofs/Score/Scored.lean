import PathTriage.Proofs.Score.Weights

/-!
Scores that are there are machine numbers.

Whether a scorer gets to a result hangs on the measures of the methods. What a result looks like
does not: every score ends in a quotient, or in a sum of products with a constant, and these are
machine numbers whatever went into them. So a path that was scored has machine numbers for scores,
also when its methods have measures beyond the range of machine numbers.
-/

namespace PathTriage

open Outcome Scalar

/-- A formula whose result, if there is one, is a machine number. -/
def Rounds (c : Except Failure Json) : Prop := Settles (fun _ => True) Json.IsMachine c

theorem Computes.rounds {c : Except Failure Json} (h : Computes c) : Rounds c := Gives.settles h

namespace Number

/-- Computing in machine numbers gives a machine number. -/
theorem settles_machine (f : Float → Float → Float) (a b : Number) :
    Settles (fun _ => True) (fun v : Number => ∃ x, v = .float x) (machine f a b) :=
  Settles.bind_any fun _ => Settles.bind_any fun _ => Settles.pure ⟨_, rfl⟩

end Number

namespace Json

/-- An operation that gives machine numbers gives them for values, too. -/
theorem rounds_operate {op : Operation} {f : Number → Number → Except Failure Number} {a b : Json}
    (h : ∀ x y, a.number? = some x → b.number? = some y →
      Settles (fun _ => True) (fun v : Number => ∃ z, v = .float z) (f x y)) :
    Rounds (operate op f a b) := by
  unfold operate
  split
  · next x y hx hy =>
    have hxy := h x y hx hy
    cases hf : f x y with
    | ok v =>
      obtain ⟨z, rfl⟩ := hxy.result v hf
      exact Settles.pure ⟨z, rfl⟩
    | error e => exact Settles.error trivial
  · exact Settles.error trivial

variable {a b : Json}

theorem rounds_add_left (ha : a.IsMachine) : Rounds (add a b) := by
  obtain ⟨x, rfl⟩ := ha
  refine rounds_operate ?_
  rintro _ y ⟨⟩ -
  exact Number.settles_machine _ (.float x) y

theorem rounds_sub_left (ha : a.IsMachine) : Rounds (sub a b) := by
  obtain ⟨x, rfl⟩ := ha
  refine rounds_operate ?_
  rintro _ y ⟨⟩ -
  exact Number.settles_machine _ (.float x) y

theorem rounds_mul_left (ha : a.IsMachine) : Rounds (mul a b) := by
  obtain ⟨x, rfl⟩ := ha
  refine rounds_operate ?_
  rintro _ y ⟨⟩ -
  exact Number.settles_machine _ (.float x) y

/-- A quotient is a machine number, also one of integers. -/
theorem rounds_div (a b : Json) : Rounds (div a b) := by
  refine rounds_operate ?_
  intro x y _ _
  unfold Number.div
  split
  · exact Settles.error trivial
  · split
    · split
      · exact Settles.pure ⟨_, rfl⟩
      · exact Settles.error trivial
    · exact Number.settles_machine _ _ _

end Json

namespace Scalar

variable {a b : Except Failure Json}

theorem rounds_add (ha : Rounds a) : Rounds (a + b) :=
  ha.bind fun _ hx => Settles.bind_any fun _ => Json.rounds_add_left hx

theorem rounds_sub (ha : Rounds a) : Rounds (a - b) :=
  ha.bind fun _ hx => Settles.bind_any fun _ => Json.rounds_sub_left hx

theorem rounds_hundredths_mul (n : Nat) : Rounds (hundredths n * b) :=
  (computes_hundredths n).rounds.bind fun _ hx => Settles.bind_any fun _ => Json.rounds_mul_left hx

theorem rounds_capped (ha : Rounds a) : Rounds (capped a) := settles_atMost computes_one ha

theorem rounds_unit (ha : Rounds a) : Rounds (unit a) :=
  settles_atLeast computes_zero (rounds_capped ha)

theorem rounds_mean (xs : List (Except Failure Json)) : Rounds (mean xs) := by
  refine Settles.bind_any fun items => ?_
  split
  · exact computes_zero.rounds
  · exact Settles.bind_any fun _ => Json.rounds_div _ _

end Scalar

/-! ## Paths -/

/-- An intent that was scored has machine numbers for scores. -/
theorem Intent.settles_weigh (known : String → String → Bool) (p : CallPath)
    (history : List Commit) :
    Settles (fun _ => True) IntentWeight.IsMachine (Intent.weigh known p history) := by
  have hbusiness : Rounds (businessValue p.methods history) :=
    rounds_unit (rounds_add (rounds_add (rounds_add (rounds_hundredths_mul 30))))
  have hcomplete : Rounds (completeness p.methods) := by
    refine Settles.bind_any fun s => rounds_unit (settles_total ?_ (List.cons_ne_nil _ _))
    rw [List.forall_mem_cons, List.forall_mem_cons, List.forall_mem_cons, List.forall_mem_cons,
      List.forall_mem_singleton]
    exact ⟨rounds_hundredths_mul 30, rounds_hundredths_mul 25, rounds_hundredths_mul 20,
      rounds_hundredths_mul 15, rounds_hundredths_mul 10⟩
  have hquality : Rounds (codeQuality known p) :=
    rounds_unit (rounds_add (rounds_add (rounds_sub (rounds_sub computes_one.rounds))))
  have htotal : ∀ business complete quality : Json, Rounds (combine business complete quality) :=
    fun _ _ _ => rounds_unit (rounds_add (rounds_add (rounds_hundredths_mul 40)))
  refine hbusiness.bind fun business hbusiness => Settles.bind_any fun _ => ?_
  refine hcomplete.bind fun complete hcomplete => hquality.bind fun quality hquality => ?_
  refine (htotal business complete quality).bind fun _ htotal => ?_
  refine (rounds_mean _).bind fun _ hconfidence => ?_
  refine Settles.bind_any fun _ => Settles.bind_any fun _ => Settles.bind_any fun _ =>
    Settles.bind_any fun _ => Settles.pure ?_
  exact ⟨htotal, hbusiness, hcomplete, hquality, hconfidence⟩

/-- A risk that was scored has machine numbers for scores. -/
theorem Risk.settles_weigh (known : String → String → Bool) (p : CallPath) (changed : List String) :
    Settles (fun _ => True) RiskWeight.IsMachine (Risk.weigh known p changed) := by
  have harchitectural : Rounds (architectural known p) :=
    rounds_unit (rounds_add (rounds_add (rounds_add (rounds_hundredths_mul 30))))
  have hblast : ∀ onPath : List Method, Rounds (blastRadius onPath) := by
    intro onPath
    unfold blastRadius
    split
    · exact computes_zero.rounds
    · exact rounds_capped (rounds_mean _)
  have hcomplexity : ∀ onPath : List Method, Rounds (changeComplexity onPath p.methods.length) := by
    intro onPath
    unfold changeComplexity
    split
    · exact computes_zero.rounds
    · exact rounds_mean _
  -- level and details are no numbers; whether they can be told does not matter here
  refine Settles.bind (P := fun s : RiskScores Json => s.total.IsMachine ∧
    s.architectural.IsMachine ∧ s.blastRadius.IsMachine ∧ s.changeComplexity.IsMachine) ?_ ?_
  · refine harchitectural.bind fun _ harchitectural => (hblast _).bind fun _ hblast => ?_
    refine (hcomplexity _).bind fun _ hcomplexity => Settles.bind_any fun _ => ?_
    refine Settles.bind (rounds_unit (rounds_add (rounds_add (rounds_add
      (rounds_hundredths_mul 35))))) fun _ htotal => ?_
    exact Settles.pure ⟨htotal, harchitectural, hblast, hcomplexity⟩
  · rintro s ⟨htotal, harchitectural, hblast, hcomplexity⟩
    refine Settles.bind_any fun _ => (rounds_mean _).bind fun _ hconfidence => ?_
    refine Settles.bind_any fun _ => Settles.bind_any fun _ => Settles.pure ?_
    exact ⟨htotal, harchitectural, hblast, hcomplexity, hconfidence⟩

end PathTriage
