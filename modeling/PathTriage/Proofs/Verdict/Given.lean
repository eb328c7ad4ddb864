import PathTriage.Proofs.Batch.Partition
import PathTriage.Proofs.NumberOrder
import PathTriage.Proofs.Verdict

/-!
Verdicts on scores and thresholds as they are given.

Scores are numbers of either kind and thresholds any values at all, so a comparison may fail and the
conditions of the classes are evaluated only as far as needed. What can still be carried from the
one of two paths to the other is that a condition is not refuted (`Supports`): every comparison does
so in the direction of its scores, and the connectives keep it. Worse scores then never have a
better class, however the thresholds stand to each other.
-/

namespace PathTriage

open Outcome

/-! ## Conditions that support each other -/

namespace Condition

/-- Where the first of two conditions is met, the second is not refuted. It may still be
    undecided. -/
def Supports (c c' : Except Failure Bool) : Prop := c = .ok true → c' ≠ .ok false

namespace Supports

variable {a a' b b' : Except Failure Bool}

theorem refl (c : Except Failure Bool) : Supports c c := by
  rintro rfl h
  exact nomatch h

/-- Conditions are looked at from left to right, and a failure on the way supports anything. -/
theorem both (ha : Supports a a') (hb : Supports b b') :
    Supports (Condition.both a b) (Condition.both a' b') := by
  intro hmet hrefuted
  obtain ⟨met, hma, hmet⟩ := bind_eq_ok.1 hmet
  obtain ⟨met', hra, hrefuted⟩ := bind_eq_ok.1 hrefuted
  cases met with
  | false => exact nomatch hmet
  | true =>
    cases met' with
    | false => exact ha hma hra
    | true => exact hb hmet hrefuted

theorem either (ha : Supports a a') (hb : Supports b b') :
    Supports (Condition.either a b) (Condition.either a' b') := by
  intro hmet hrefuted
  obtain ⟨met, hma, hmet⟩ := bind_eq_ok.1 hmet
  obtain ⟨met', hra, hrefuted⟩ := bind_eq_ok.1 hrefuted
  cases met' with
  | true => exact nomatch hrefuted
  | false =>
    cases met with
    | true => exact ha hma hra
    | false => exact hb hmet hrefuted

/-- The contraries support each other the other way round. -/
theorem contrary (h : Supports a a') :
    Supports (Condition.contrary a') (Condition.contrary a) := by
  intro hmet hrefuted
  obtain ⟨met, hma, hmet⟩ := bind_eq_ok.1 hmet
  obtain ⟨met', hra, hrefuted⟩ := bind_eq_ok.1 hrefuted
  cases met with
  | true => exact nomatch hmet
  | false =>
    cases met' with
    | false => exact nomatch hrefuted
    | true => exact h hra hma

end Supports

end Condition

/-! ## Comparison with a given value -/

namespace Json

open Condition (Supports)

/-- A number is held against numbers only. -/
theorem exists_number_of_holds {a t : Json} {x : Number} (ha : a.number? = some x) {r : Relation}
    {met : Bool} (h : holds r a t = .ok met) :
    ∃ z, t.number? = some z ∧ x.holds r z = met := by
  cases ht : t.number? with
  | some z =>
    rw [holds_of_number ha ht] at h
    exact ⟨z, rfl, Except.ok.inj h⟩
  | none =>
    cases a with
    | string s => exact nomatch ha
    | _ => simp [holds, ha, ht] at h

/-- Two given values, one of which meets what the other does, whatever they are compared with. -/
theorem supports_holds {a b : Json} {x y : Number} (ha : a.number? = some x)
    (hb : b.number? = some y)
    (r : Relation) (h : ∀ z, x.holds r z = true → y.holds r z = true) (t : Json) :
    Supports (holds r a t) (holds r b t) := by
  intro hmet hrefuted
  obtain ⟨z, hz, hxz⟩ := exists_number_of_holds ha hmet
  rw [holds_of_number hb hz, h z hxz] at hrefuted
  exact nomatch hrefuted

/-- Both values stand for numbers, and the first is at most the second. -/
def AtMost (a b : Json) : Prop :=
  ∃ x y, a.number? = some x ∧ b.number? = some y ∧ x.le y = true

namespace AtMost

variable {a b : Json} (h : AtMost a b)

include h

/-- Values that are in order are numbers. -/
theorem isNumber : a.IsNumber ∧ b.IsNumber := by
  obtain ⟨x, y, ha, hb, -⟩ := h
  exact ⟨Option.isSome_of_eq_some ha, Option.isSome_of_eq_some hb⟩

/-- The higher value meets every bound from below that the lower one meets. -/
theorem supports_atLeast (t : Json) : Supports (holds .atLeast a t) (holds .atLeast b t) := by
  obtain ⟨x, y, ha, hb, hle⟩ := h
  exact supports_holds ha hb .atLeast (fun z hz => Number.le_trans hz hle) t

theorem supports_above (t : Json) : Supports (holds .above a t) (holds .above b t) := by
  obtain ⟨x, y, ha, hb, hle⟩ := h
  exact supports_holds ha hb .above (fun z hz => Number.lt_of_lt_of_le hz hle) t

/-- And the lower one every bound from above. -/
theorem supports_below (t : Json) : Supports (holds .below b t) (holds .below a t) := by
  obtain ⟨x, y, ha, hb, hle⟩ := h
  exact supports_holds hb ha .below (fun z hz => Number.lt_of_le_of_lt hle hz) t

end AtMost

end Json

/-! ## Classes -/

namespace Verdict

open Condition (Supports)
open Json (AtMost)

variable {t : Thresholds Json} {p : CallPath} {intent intent' : IntentWeight Json}
  {risk risk' : RiskWeight Json}

/-- How a class comes about: a condition is looked at once all that are tried before it are
    refuted. -/
theorem classify_eq_ok {c : PathClass} (h : classify t p intent risk = .ok c) :
    isGolden t p intent risk = .ok true ∧ c = .golden ∨
      isGolden t p intent risk = .ok false ∧
        (isRisky t p risk = .ok true ∧ c = .risk ∨
          isRisky t p risk = .ok false ∧ (c = .critical ∨ c = .neutral)) := by
  obtain ⟨golden, hgolden, h⟩ := bind_eq_ok.1 h
  cases golden with
  | true => exact .inl ⟨hgolden, (Except.ok.inj h).symm⟩
  | false =>
    refine .inr ⟨hgolden, ?_⟩
    obtain ⟨risky, hrisky, h⟩ := bind_eq_ok.1 h
    cases risky with
    | true => exact .inl ⟨hrisky, (Except.ok.inj h).symm⟩
    | false =>
      refine .inr ⟨hrisky, ?_⟩
      obtain ⟨critical, -, h⟩ := bind_eq_ok.1 h
      cases critical with
      | true => exact .inl (Except.ok.inj h).symm
      | false => exact .inr (Except.ok.inj h).symm

/-- The second of two scorings of a path is at most as good as the first in every score that classes
    look at. -/
structure Worsens (intent intent' : IntentWeight Json) (risk risk' : RiskWeight Json) : Prop where
  intentTotal : AtMost intent'.total intent.total
  business : AtMost intent'.business intent.business
  quality : AtMost intent'.quality intent.quality
  riskTotal : AtMost risk.total risk'.total
  architectural : AtMost risk.architectural risk'.architectural
  blastRadius : AtMost risk.blastRadius risk'.blastRadius
  changeComplexity : AtMost risk.changeComplexity risk'.changeComplexity

namespace Worsens

variable (h : Worsens intent intent' risk risk')

include h

/-- With worse scores a path is golden only if it was before, as far as both can be told. -/
theorem isGolden (t : Thresholds Json) (p : CallPath) :
    Supports (isGolden t p intent' risk') (isGolden t p intent risk) := by
  have hlow := (h.intentTotal.supports_below (t .goldenIntent)).either
    (h.riskTotal.supports_above (t .goldenRisk))
  have hstrong := (h.business.supports_atLeast (t .goldenBusinessValue)).both
    (h.quality.supports_atLeast (t .goldenCodeQuality))
  exact hlow.contrary.both ((hstrong.either (.refl _)).either (.refl _))

/-- And risky if it was before. -/
theorem isRisky (t : Thresholds Json) (p : CallPath) :
    Supports (isRisky t p risk) (isRisky t p risk') :=
  (h.riskTotal.supports_atLeast (t .riskRisk)).either <|
    (h.architectural.supports_atLeast (t .architecturalRisk)).either <|
      (h.blastRadius.supports_atLeast (t .blastRadius)).either <|
        (h.changeComplexity.supports_atLeast (t .changeComplexity)).either (.refl _)

/-- Hence no class that is better, whenever there is a class both times. -/
theorem standing_le {c c' : PathClass} (hc : classify t p intent risk = .ok c)
    (hc' : classify t p intent' risk' = .ok c') : c'.standing ≤ c.standing := by
  rcases classify_eq_ok hc with ⟨-, rfl⟩ | ⟨hgolden, hrest⟩
  · cases c' <;> decide
  rcases classify_eq_ok hc' with ⟨hgolden', -⟩ | ⟨-, hrest'⟩
  · exact absurd hgolden (h.isGolden t p hgolden')
  rcases hrest' with ⟨-, rfl⟩ | ⟨hsafe', hother'⟩
  · exact Nat.zero_le _
  rcases hrest with ⟨hrisky, -⟩ | ⟨-, hother⟩
  · exact absurd hsafe' (h.isRisky t p hrisky)
  · rcases hother with rfl | rfl <;> rcases hother' with rfl | rfl <;> decide

theorem gives_classify (ht : ∀ name, (t name).IsNumber) (p : CallPath) :
    Gives (fun _ => True) (classify t p intent risk) ∧
      Gives (fun _ => True) (classify t p intent' risk') := by
  refine ⟨Batch.gives_classify ht ?_ ?_, Batch.gives_classify ht ?_ ?_⟩ <;>
    simp [h.intentTotal.isNumber, h.business.isNumber, h.quality.isNumber, h.riskTotal.isNumber,
      h.architectural.isNumber, h.blastRadius.isNumber, h.changeComplexity.isNumber]

end Worsens

/-- Worse scores never have a better class: whatever the thresholds are, a scoring that is at most
    as good as another has a class of at most the same standing. Both have a class if the thresholds
    are numbers, and a path that is golden and risky at once is always golden. -/
theorem standing_le_of_worsens (h : Worsens intent intent' risk risk') (t : Thresholds Json)
    (p : CallPath) :
    (∀ c c', classify t p intent risk = .ok c → classify t p intent' risk' = .ok c' →
      c'.standing ≤ c.standing) ∧
    ((∀ name, (t name).IsNumber) →
      ∃ c c', classify t p intent risk = .ok c ∧ classify t p intent' risk' = .ok c') ∧
    (∀ (w : IntentWeight Json) (r : RiskWeight Json), Verdict.isGolden t p w r = .ok true →
      Verdict.isRisky t p r = .ok true → classify t p w r = .ok .golden) := by
  refine ⟨fun c c' => h.standing_le, fun ht => ?_, fun w r hgolden _ => ?_⟩
  · obtain ⟨⟨c, hc, -⟩, c', hc', -⟩ := h.gives_classify ht p
    exact ⟨c, c', hc, hc'⟩
  · rw [classify, hgolden]
    rfl

/-- Thresholds under which most paths are both golden and risky. -/
def lenient : Thresholds Json :=
  (Thresholds.initial.set .goldenRisk (.ofFloat 0.9)).set .riskRisk (.ofFloat 0.1)

/-- A path that is both golden and risky, and the same path with worse scores. -/
theorem standing_le_of_worsens_lenient :
    let p := Batch.single "p" 3
    let intent := Batch.evenIntent 0.8
    let intent' := Batch.evenIntent 0.75
    let risk := Batch.evenRisk 0.5
    let risk' := Batch.evenRisk 0.95
    (Worsens intent intent' risk risk' ∧
      (∀ name, (lenient name).IsNumber) ∧
      Verdict.isGolden lenient p intent risk = .ok true ∧
      Verdict.isRisky lenient p risk = .ok true) ∧
    (∃ c c', classify lenient p intent risk = .ok c ∧ classify lenient p intent' risk' = .ok c') ∧
    classify lenient p intent risk = .ok .golden ∧
    classify lenient p intent' risk' = .ok .risk ∧
    PathClass.risk.standing ≤ PathClass.golden.standing := by
  intro p intent intent' risk risk'
  have hlower : AtMost (.ofFloat 0.75) (.ofFloat 0.8) :=
    ⟨_, _, rfl, rfl, by with_unfolding_all rfl⟩
  have hhigher : AtMost (.ofFloat 0.5) (.ofFloat 0.95) :=
    ⟨_, _, rfl, rfl, by with_unfolding_all rfl⟩
  have hworsens : Worsens intent intent' risk risk' :=
    ⟨hlower, hlower, hlower, hhigher, hhigher, hhigher, hhigher⟩
  have hgolden : Verdict.isGolden lenient p intent risk = .ok true := by with_unfolding_all rfl
  have hrisky : Verdict.isRisky lenient p risk = .ok true := by with_unfolding_all rfl
  have hrisk : classify lenient p intent' risk' = .ok .risk := by with_unfolding_all rfl
  have hnumbers : ∀ name, (lenient name).IsNumber := by
    intro name
    cases name <;> rfl
  obtain ⟨hle, hexists, hboth⟩ := standing_le_of_worsens hworsens lenient p
  have hclass := hboth _ _ hgolden hrisky
  exact ⟨⟨hworsens, hnumbers, hgolden, hrisky⟩, hexists hnumbers, hclass, hrisk,
    hle _ _ hclass hrisk⟩

end Verdict
end PathTriage
