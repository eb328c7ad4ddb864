import PathTriage.Proofs.Batch.Partition
import PathTriage.Proofs.MachineOrder
import PathTriage.Proofs.Order

/-!
The order of analysed paths is one of the paths themselves, not of the batch that they came in.

A class has a list of criteria, each a score and a direction. One path precedes another when it is
ahead by the first criterion that tells them apart, or by its id when none does. The program sorts
by keys in which a score that ranks downwards stands with the opposite sign; as long as no score is
the number that compares with nothing, that comes to the same (`keyed_le_iff`), and the order is
linear. So there is one arrangement of the paths of a class (`gives_arranged`), whatever permutation
of the batch is analysed.
-/

namespace PathTriage

open Outcome Scalar

namespace Ranking

/-! ## Criteria -/

/-- Which of two scores ranks first: the larger one, or the smaller one. -/
inductive Direction where
  | descending
  | ascending
deriving Repr, DecidableEq

/-- A score that paths are ranked by. -/
structure Criterion where
  direction : Direction
  score : Analyzed Json → Except Failure Json

/-- How a score stands to the scores that rank after it. -/
def Direction.relation : Direction → Relation
  | .descending => .above
  | .ascending => .below

/-- A path ranks before another by one criterion. -/
def Criterion.Ahead (c : Criterion) (v w : Analyzed Json) : Prop :=
  test c.direction.relation (c.score v) (c.score w) = .ok true

/-- Two paths are not told apart by a criterion. -/
def Criterion.Level (c : Criterion) (v w : Analyzed Json) : Prop := ¬c.Ahead v w ∧ ¬c.Ahead w v

/-- A path ranks before another by the first criterion that tells them apart, or else by its id. -/
def Precedes : List Criterion → Analyzed Json → Analyzed Json → Prop
  | [], v, w => v.path.id < w.path.id
  | c :: rest, v, w => c.Ahead v w ∨ c.Level v w ∧ Precedes rest v w

/-- A list is in order, and no other arrangement of its members is. -/
structure Arranged (criteria : List Criterion) (paths : List (Analyzed Json)) : Prop where
  sorted : paths.Pairwise (Precedes criteria)
  unique : ∀ other, other.Perm paths → other.Pairwise (Precedes criteria) → other = paths

/-- Golden paths: more valuable, then more confident, then less risky. -/
def goldenCriteria : List Criterion :=
  [⟨.descending, goldenScore⟩, ⟨.descending, fun v => pure v.confidence⟩,
    ⟨.ascending, fun v => pure v.risk.total⟩]

/-- Risk paths: more severe, then more valuable, then more confident. -/
def riskCriteria : List Criterion :=
  [⟨.descending, severity⟩, ⟨.descending, fun v => pure v.intent.business⟩,
    ⟨.descending, fun v => pure v.confidence⟩]

/-- Neutral paths: larger margin of intent over risk, then more valuable, then more confident. -/
def neutralCriteria : List Criterion :=
  [⟨.descending, fun v => pure v.intent.total - pure v.risk.total⟩,
    ⟨.descending, fun v => pure v.intent.business⟩, ⟨.descending, fun v => pure v.confidence⟩]

/-- The criteria of a class; critical paths are ranked with the neutral ones. -/
def criteriaOf : PathClass → List Criterion
  | .golden => goldenCriteria
  | .risk => riskCriteria
  | .critical => neutralCriteria
  | .neutral => neutralCriteria

/-! ## Keys -/

/-- What stands in a key for a criterion: a score that ranks downwards has the opposite sign. -/
def Criterion.entry (c : Criterion) (v : Analyzed Json) : Except Failure Json :=
  match c.direction with
  | .descending => negative (c.score v)
  | .ascending => c.score v

/-- The key of a path by some criteria. -/
def keyOf (criteria : List Criterion) (v : Analyzed Json) : Except Failure (Key Json) := do
  pure ⟨← criteria.mapM (·.entry v), v.path.id⟩

/-- The three keys are those of their criteria, entry by entry. -/
theorem goldenKey_eq : goldenKey = keyOf goldenCriteria := by
  funext v
  rw [goldenKey, keyOf, goldenCriteria]
  simp only [List.mapM_cons, List.mapM_nil, Criterion.entry]
  cases negative (goldenScore v) with
  | error _ => rfl
  | ok score => cases negative (pure v.confidence) <;> rfl

theorem riskKey_eq : riskKey = keyOf riskCriteria := by
  funext v
  rw [riskKey, keyOf, riskCriteria]
  simp only [List.mapM_cons, List.mapM_nil, Criterion.entry]
  cases negative (severity v) with
  | error _ => rfl
  | ok score =>
    cases negative (pure v.intent.business) with
    | error _ => rfl
    | ok business => cases negative (pure v.confidence) <;> rfl

theorem neutralKey_eq : neutralKey = keyOf neutralCriteria := by
  funext v
  rw [neutralKey, keyOf, neutralCriteria]
  simp only [List.mapM_cons, List.mapM_nil, Criterion.entry]
  cases negative (pure v.intent.total - pure v.risk.total : Except Failure Json) with
  | error _ => rfl
  | ok margin =>
    cases negative (pure v.intent.business) with
    | error _ => rfl
    | ok business => cases negative (pure v.confidence) <;> rfl

/-! ## Scores that compare -/

/-- A computed machine number that compares with every other. -/
def Comparable (x : Except Failure Json) : Prop :=
  ∃ f : Float, x = .ok (.ofFloat f) ∧ f.isNaN = false

/-- The rank of a computed machine number. -/
def rankOf : Except Failure Json → Int ×ₗ Int ×ₗ Int
  | .ok (.number (.float f)) => Binary64.rank f
  | _ => 0

section Comparable

variable {x y : Except Failure Json} (hx : Comparable x) (hy : Comparable y)

theorem negative_ok (v : Json) :
    negative (.ok v : Except Failure Json) = Json.sub (.ofInt 0) v := rfl

include hx in
/-- A score that is taken from zero compares the other way round, and exactly so. -/
theorem Comparable.negative :
    Comparable (negative x) ∧ rankOf (Ranking.negative x) = -rankOf x := by
  obtain ⟨f, rfl, hf⟩ := hx
  rw [negative_ok, Json.sub_ofInt_ofFloat (Number.lt_machineBound (by decide))]
  exact ⟨⟨_, rfl, Binary64.isNaN_zero_sub hf⟩, Binary64.rank_zero_sub f⟩

include hx hy

/-- Scores that compare do so by rank. -/
theorem test_below_iff : test .below x y = .ok true ↔ rankOf x < rankOf y := by
  obtain ⟨f, rfl, hf⟩ := hx
  obtain ⟨g, rfl, hg⟩ := hy
  have htest : test .below (.ok (Json.ofFloat f)) (.ok (.ofFloat g)) =
      (.ok (decide (f < g)) : Except Failure Bool) := rfl
  rw [htest, Except.ok.injEq, decide_eq_true_eq]
  exact Binary64.lt_iff_rank hf hg

theorem test_above_iff : test .above x y = .ok true ↔ rankOf y < rankOf x := by
  obtain ⟨f, rfl, hf⟩ := hx
  obtain ⟨g, rfl, hg⟩ := hy
  have htest : test .above (.ok (Json.ofFloat f)) (.ok (.ofFloat g)) =
      (.ok (decide (g < f)) : Except Failure Bool) := rfl
  rw [htest, Except.ok.injEq, decide_eq_true_eq]
  exact Binary64.lt_iff_rank hg hf

end Comparable

/-- The rank of a path by one criterion: the smaller it is, the earlier the path comes. -/
def Criterion.place (c : Criterion) (v : Analyzed Json) : Int ×ₗ Int ×ₗ Int :=
  match c.direction with
  | .descending => -rankOf (c.score v)
  | .ascending => rankOf (c.score v)

namespace Criterion

variable {c : Criterion} {v w : Analyzed Json} (hv : Comparable (c.score v))
  (hw : Comparable (c.score w))

include hv hw in
/-- A path is ahead by a criterion when its place is lower. -/
theorem ahead_iff : c.Ahead v w ↔ c.place v < c.place w := by
  obtain ⟨direction, score⟩ := c
  cases direction with
  | descending => exact (test_above_iff hv hw).trans neg_lt_neg_iff.symm
  | ascending => exact test_below_iff hv hw

include hv hw in
theorem level_iff : c.Level v w ↔ c.place v = c.place w := by
  rw [Level, ahead_iff hv hw, ahead_iff hw hv, not_lt, not_lt]
  exact ⟨fun h => le_antisymm h.2 h.1, fun h => ⟨h.ge, h.le⟩⟩

include hv in
/-- The entry in a key has the place of the criterion: scores that should be high are taken from
    zero. -/
theorem comparable_entry : Comparable (c.entry v) ∧ rankOf (c.entry v) = c.place v := by
  obtain ⟨direction, score⟩ := c
  cases direction with
  | descending => exact hv.negative
  | ascending => exact ⟨hv, rfl⟩

end Criterion

/-! ## Standings -/

/-- Where a path stands in the order by some criteria. -/
def standing (criteria : List Criterion) (v : Analyzed Json) :
    List (Int ×ₗ Int ×ₗ Int) ×ₗ String :=
  toLex (criteria.map (·.place v), v.path.id)

/-- All scores that a path is ranked by compare. -/
def Orderly (criteria : List Criterion) (v : Analyzed Json) : Prop :=
  ∀ c ∈ criteria, Comparable (c.score v)

section Standings

variable {criteria : List Criterion} {v w : Analyzed Json} (hv : Orderly criteria v)
  (hw : Orderly criteria w)

include hv hw

/-- One path precedes another when its places come first in lexicographic order. -/
theorem precedes_iff : Precedes criteria v w ↔ standing criteria v < standing criteria w := by
  induction criteria with
  | nil => simp [Precedes, standing, Prod.Lex.toLex_lt_toLex]
  | cons c rest ih =>
    have hahead := Criterion.ahead_iff (hv c List.mem_cons_self) (hw c List.mem_cons_self)
    have hlevel := Criterion.level_iff (hv c List.mem_cons_self) (hw c List.mem_cons_self)
    have hrest := ih (fun d hd => hv d (List.mem_cons_of_mem c hd))
      (fun d hd => hw d (List.mem_cons_of_mem c hd))
    simp only [standing, Prod.Lex.toLex_lt_toLex] at hrest
    simp only [Precedes, standing, Prod.Lex.toLex_lt_toLex, List.map_cons, List.cons_lt_cons_iff,
      List.cons.injEq, hahead, hlevel, hrest]
    rw [and_or_left, ← or_assoc, ← and_assoc]

/-- Scores that compare are sorted by rank. -/
theorem ascending_iff {c : Criterion} (hc : c ∈ criteria) {x y : Json} (hx : c.entry v = .ok x)
    (hy : c.entry w = .ok y) : (ascending x y = .lt ↔ c.place v < c.place w) ∧
      (ascending x y = .eq ↔ c.place v = c.place w) := by
  obtain ⟨⟨f, hf, hfnan⟩, hfplace⟩ := Criterion.comparable_entry (hv c hc)
  obtain ⟨⟨g, hg, hgnan⟩, hgplace⟩ := Criterion.comparable_entry (hw c hc)
  rw [← hfplace, ← hgplace, hf, hg]
  cases hf.symm.trans hx
  cases hg.symm.trans hy
  change ((if decide (f < g) = true then .lt else if decide (g < f) = true then .gt else .eq) =
    Ordering.lt ↔ Binary64.rank f < Binary64.rank g) ∧
      ((if decide (f < g) = true then .lt else if decide (g < f) = true then .gt else .eq) =
        Ordering.eq ↔ Binary64.rank f = Binary64.rank g)
  simp only [decide_eq_true_eq, Binary64.lt_iff_rank hfnan hgnan, Binary64.lt_iff_rank hgnan hfnan]
  rcases lt_trichotomy (Binary64.rank f) (Binary64.rank g) with h | h | h
  · simp [h, h.ne]
  · simp [h]
  · simp [h, h.not_gt, h.ne']

/-- Keys are compared entry by entry, in the order of the criteria. -/
theorem compareScores_iff {xs ys : List Json}
    (hxs : List.Forall₂ (fun c x => Criterion.entry c v = .ok x) criteria xs)
    (hys : List.Forall₂ (fun c y => Criterion.entry c w = .ok y) criteria ys) :
    (compareScores xs ys = .lt ↔ criteria.map (·.place v) < criteria.map (·.place w)) ∧
      (compareScores xs ys = .eq ↔ criteria.map (·.place v) = criteria.map (·.place w)) := by
  induction criteria generalizing xs ys with
  | nil =>
    cases hxs
    cases hys
    simp [compareScores]
  | cons c rest ih =>
    cases hxs with
    | cons hx hxs =>
      cases hys with
      | cons hy hys =>
        obtain ⟨hlt, heq⟩ := ascending_iff hv hw List.mem_cons_self hx hy
        obtain ⟨hlt', heq'⟩ := ih (fun d hd => hv d (List.mem_cons_of_mem c hd))
          (fun d hd => hw d (List.mem_cons_of_mem c hd)) hxs hys
        simp only [compareScores, Ordering.then_eq_lt, Ordering.then_eq_eq, List.map_cons,
          List.cons_lt_cons_iff, List.cons.injEq, hlt, heq, hlt', heq', and_self]

/-- Keys are compared as the paths stand. -/
theorem keyed_le_iff {k l : Key Json} (hk : keyOf criteria v = .ok k)
    (hl : keyOf criteria w = .ok l) :
    compareKeys k l ≠ .gt ↔ standing criteria v ≤ standing criteria w := by
  obtain ⟨xs, hxs, hk⟩ := bind_eq_ok.1 hk
  obtain ⟨ys, hys, hl⟩ := bind_eq_ok.1 hl
  cases hk
  cases hl
  obtain ⟨hlt, heq⟩ := compareScores_iff hv hw (mapM_eq_ok.1 hxs) (mapM_eq_ok.1 hys)
  rw [compareKeys, standing, standing, Prod.Lex.toLex_le_toLex, ← hlt, ← heq]
  cases compareScores xs ys with
  | lt => simp
  | gt => simp
  | eq =>
    simp only [Ordering.eq_then, reduceCtorEq, false_or, true_and]
    rw [ne_eq, compare_gt_iff_gt, not_lt]

end Standings

/-- A list in order is the only arrangement of its members that is. -/
theorem arranged_of_pairwise {criteria : List Criterion} {paths : List (Analyzed Json)}
    (horderly : ∀ v ∈ paths, Orderly criteria v) (h : paths.Pairwise (Precedes criteria)) :
    Arranged criteria paths where
  sorted := h
  unique := by
    intro other hperm hother
    refine hperm.eq_of_pairwise ?_ hother h
    intro v w hv hw hvw hwv
    have hv := horderly v (hperm.mem_iff.1 hv)
    have hw := horderly w hw
    rw [precedes_iff hv hw] at hvw
    rw [precedes_iff hw hv] at hwv
    exact absurd hwv hvw.asymm

/-! ## Sorting by keys -/

/-- Paths with different ids whose scores compare have one arrangement, and sorting finds it. -/
theorem arranged_of_rankBy {criteria : List Criterion} {paths ranked : List (Analyzed Json)}
    (horderly : ∀ v ∈ paths, Orderly criteria v) (hids : (paths.map (·.path.id)).Nodup)
    (h : rankBy (keyOf criteria) paths = .ok ranked) : Arranged criteria ranked := by
  have hperm := Batch.perm_of_rankBy h
  obtain ⟨keyed, hkeyed, hranked⟩ := bind_eq_ok.1 h
  cases hranked
  have hmem : ∀ e ∈ keyed, Orderly criteria e.2 ∧ keyOf criteria e.2 = .ok e.1 := by
    intro e he
    obtain ⟨p, hp, hk, rfl⟩ := exists_of_forall₂ (Batch.forall₂_keyed hkeyed) he
    exact ⟨horderly _ hp, hk⟩
  have hle : ∀ e ∈ keyed, ∀ e' ∈ keyed, compareKeys e.1 e'.1 ≠ .gt ↔
      standing criteria e.2 ≤ standing criteria e'.2 := by
    intro e he e' he'
    exact keyed_le_iff (hmem e he).1 (hmem e' he').1 (hmem e he).2 (hmem e' he').2
  have hranks : Order.RanksOn (fun a b => compareKeys a.1 b.1) keyed := by
    constructor
    · intro a ha b hb c hc
      rw [hle a ha b hb, hle b hb c hc, hle a ha c hc]
      exact le_trans
    · intro a ha b hb
      rw [hle a ha b hb, hle b hb a ha]
      exact le_total _ _
  refine arranged_of_pairwise (fun v hv => horderly v (hperm.mem_iff.1 hv)) ?_
  -- different ids turn the order of the keys into a strict one
  have hdistinct := (hperm.map (·.path.id)).nodup_iff.2 hids
  rw [List.map_map, List.nodup_iff_pairwise_ne, List.pairwise_map] at hdistinct
  rw [List.pairwise_map]
  refine (hranks.sortBy_pairwise.and hdistinct).imp_of_mem ?_
  rintro e e' he he' ⟨hnot, hne⟩
  rw [(Order.sortBy_perm _ keyed).mem_iff] at he he'
  have hstanding := (hle e he e' he').1 hnot
  rw [precedes_iff (hmem e he).1 (hmem e' he').1]
  refine lt_of_le_of_ne hstanding fun heq => hne ?_
  exact congrArg (fun s => (ofLex s).2) heq

end Ranking

/-- What an analysis says about the order of its paths: the three lists, and the report over
    them. -/
def Analysis.ranking (a : Analysis) :
    List (Analyzed Json) × List (Analyzed Json) × List (Analyzed Json) × Report :=
  (a.golden, a.risk, a.neutral, a.report)

namespace Batch

open Ranking

/-! ## Judged paths -/

section Judged

variable {t : Thresholds Json} {scored : List ScoredPath} {judged : List (Analyzed Json)}

/-- The positions with two scores are judged in order, and the others passed over. -/
theorem judgeAll_eq (t : Thresholds Json) (scored : List ScoredPath) :
    judgeAll t scored = (scored.filterMap fun s => (scores? s).map fun w => (s.path, w)).mapM
      fun e => judge t e.1 e.2.1 e.2.2 := by
  induction scored with
  | nil => rfl
  | cons s rest ih =>
    rw [judgeAll, List.filterMap_cons]
    cases scores? s with
    | none => exact ih
    | some w =>
      simp only [Option.map_some, List.mapM_cons]
      rw [← ih]

/-- A permutation of a batch is judged as a permutation. -/
theorem judgeAll_perm {scored' : List ScoredPath} (hperm : scored'.Perm scored)
    (h : judgeAll t scored = .ok judged) :
    ∃ judged', judgeAll t scored' = .ok judged' ∧ judged'.Perm judged := by
  rw [judgeAll_eq] at h
  rw [judgeAll_eq]
  exact exists_perm_of_mapM (hperm.filterMap _) h

/-- Every judged path is that of some position. -/
theorem exists_of_mem_judgeAll (h : judgeAll t scored = .ok judged) {v : Analyzed Json}
    (hv : v ∈ judged) : ∃ s ∈ scored, ∃ intent risk, scores? s = some (intent, risk) ∧
      judge t s.path intent risk = .ok v := by
  rw [judgeAll_eq] at h
  obtain ⟨e, he, hjudge⟩ := exists_of_mem_mapM h hv
  obtain ⟨s, hs, he⟩ := List.mem_filterMap.1 he
  obtain ⟨⟨intent, risk⟩, hscores, rfl⟩ := Option.map_eq_some_iff.1 he
  exact ⟨s, hs, intent, risk, hscores, hjudge⟩

/-- Judging keeps the ids of the positions with two scores, so they stay distinct. -/
theorem ids_of_judgeAll (hfit : Fit t scored) (h : judgeAll t scored = .ok judged) :
    judged.map (·.path.id) = (scored.filter (·.bothScored)).map (·.path.id) := by
  obtain ⟨judged', hjudged', hall, -⟩ := gives_judgeAll hfit
  cases h.symm.trans hjudged'
  refine (List.forall₂_eq_eq_eq ▸ List.forall₂_map_left_iff.2 (List.forall₂_map_right_iff.2 ?_) :
    _ = judged.map (·.path.id)).symm
  refine hall.imp ?_
  intro s v hjudge
  rw [hjudge.path]

end Judged

/-! ## Ranked batches -/

/-- Fitness says nothing about the order of positions. -/
theorem Fit.of_perm {t : Thresholds Json} {scored scored' : List ScoredPath} (h : Fit t scored)
    (hperm : scored'.Perm scored) : Fit t scored' where
  thresholds := h.thresholds
  size := hperm.length_eq ▸ h.size
  lengths s hs := h.lengths s (hperm.mem_iff.1 hs)
  intents s hs := h.intents s (hperm.mem_iff.1 hs)
  risks s hs := h.risks s (hperm.mem_iff.1 hs)
  complexity s hs := h.complexity s (hperm.mem_iff.1 hs)
  linesOfCode s hs := h.linesOfCode s (hperm.mem_iff.1 hs)

/-- Whether a computed score is the machine number that compares with nothing. -/
def isUnordered : Except Failure Json → Bool
  | .ok (.number (.float x)) => x.isNaN
  | _ => false

/-- Whether all scores that the path of a position is ranked by compare, whatever it is judged to
    be. -/
def isRankable (t : Thresholds Json) (s : ScoredPath) : Bool :=
  match scores? s with
  | none => true
  | some (intent, risk) =>
    match judge t s.path intent risk with
    | .error _ => true
    | .ok v => (criteriaOf v.pathClass).all fun c => !isUnordered (c.score v)

/-- Every criterion of every class is a formula over machine numbers. -/
theorem computes_criterion {v : Analyzed Json} (hv : v.IsMachine) (pathClass : PathClass) :
    ∀ c ∈ criteriaOf pathClass, Computes (c.score v) := by
  have hgolden : ∀ c ∈ goldenCriteria, Computes (c.score v) := by
    rw [goldenCriteria, List.forall_mem_cons, List.forall_mem_cons, List.forall_mem_singleton]
    exact ⟨computes_goldenScore hv, computes_pure hv.confidence, computes_pure hv.risk.total⟩
  have hrisk : ∀ c ∈ riskCriteria, Computes (c.score v) := by
    rw [riskCriteria, List.forall_mem_cons, List.forall_mem_cons, List.forall_mem_singleton]
    exact ⟨computes_severity hv, computes_pure hv.intent.business, computes_pure hv.confidence⟩
  have hneutral : ∀ c ∈ neutralCriteria, Computes (c.score v) := by
    rw [neutralCriteria, List.forall_mem_cons, List.forall_mem_cons, List.forall_mem_singleton]
    exact ⟨computes_margin hv, computes_pure hv.intent.business, computes_pure hv.confidence⟩
  cases pathClass with
  | golden => exact hgolden
  | risk => exact hrisk
  | critical => exact hneutral
  | neutral => exact hneutral

section Ranked

variable {t : Thresholds Json} {scored : List ScoredPath} (hfit : Fit t scored)
  (hids : (scored.map (·.path.id)).Nodup) (hrankable : ∀ s ∈ scored, isRankable t s = true)

include hfit hrankable in
/-- A rankable position is judged to be a path that can be put in order. -/
theorem orderly_of_judgeAll {judged : List (Analyzed Json)} (h : judgeAll t scored = .ok judged)
    {v : Analyzed Json} (hv : v ∈ judged) : Orderly (criteriaOf v.pathClass) v := by
  obtain ⟨judged', hjudged', -, hmachine⟩ := gives_judgeAll hfit
  cases h.symm.trans hjudged'
  obtain ⟨s, hs, intent, risk, hscores, hjudge⟩ := exists_of_mem_judgeAll h hv
  intro c hc
  obtain ⟨_, hscore, x, rfl⟩ := computes_criterion (hmachine v hv) v.pathClass c hc
  have hall := hrankable s hs
  simp only [isRankable, hscores, hjudge, List.all_eq_true] at hall
  have hordered := hall c hc
  rw [hscore, Bool.not_eq_true'] at hordered
  exact ⟨x, hscore, hordered⟩

/-- What a ranking was made of. -/
theorem rankAll_eq_ok {a : Analysis} (h : rankAll t scored = .ok a) :
    ∃ judged, judgeAll t scored = .ok judged ∧
      rankBy (keyOf goldenCriteria) (judged.filter fun v => v.pathClass == .golden) = .ok a.golden ∧
      rankBy (keyOf riskCriteria) (judged.filter fun v => v.pathClass == .risk) = .ok a.risk ∧
      rankBy (keyOf neutralCriteria)
        (judged.filter fun v => v.pathClass != .golden && v.pathClass != .risk) =
          .ok a.neutral := by
  obtain ⟨judged, hjudged, h⟩ := bind_eq_ok.1 h
  obtain ⟨golden, hgolden, h⟩ := bind_eq_ok.1 h
  obtain ⟨risk, hrisk, h⟩ := bind_eq_ok.1 h
  obtain ⟨neutral, hneutral, h⟩ := bind_eq_ok.1 h
  cases h
  rw [← goldenKey_eq, ← riskKey_eq, ← neutralKey_eq]
  exact ⟨judged, hjudged, hgolden, hrisk, hneutral⟩

include hfit hids hrankable

/-- All three lists are arranged by the criteria of their classes. -/
theorem arranged_of_rankAll {a : Analysis} (h : rankAll t scored = .ok a) :
    Arranged goldenCriteria a.golden ∧ Arranged riskCriteria a.risk ∧
      Arranged neutralCriteria a.neutral := by
  obtain ⟨judged, hjudged, hgolden, hrisk, hneutral⟩ := rankAll_eq_ok h
  have hnodup : (judged.map (·.path.id)).Nodup := by
    rw [ids_of_judgeAll hfit hjudged]
    exact hids.sublist (List.filter_sublist.map _)
  -- the members of a list have the criteria of its class
  have hlist : ∀ {criteria : List Criterion} {p : Analyzed Json → Bool} {ranked},
      (∀ v, p v = true → criteriaOf v.pathClass = criteria) →
      rankBy (keyOf criteria) (judged.filter p) = .ok ranked → Arranged criteria ranked := by
    intro criteria p ranked hclass hranked
    refine arranged_of_rankBy ?_ (hnodup.sublist (List.filter_sublist.map _)) hranked
    intro v hv
    obtain ⟨hv, hp⟩ := List.mem_filter.1 hv
    rw [← hclass v hp]
    exact orderly_of_judgeAll hfit hrankable hjudged hv
  refine ⟨hlist ?_ hgolden, hlist ?_ hrisk, hlist ?_ hneutral⟩
  · intro v hv
    rw [beq_iff_eq.1 hv]
    rfl
  · intro v hv
    rw [beq_iff_eq.1 hv]
    rfl
  · intro v hv
    cases hclass : v.pathClass with
    | golden => simp [hclass] at hv
    | risk => simp [hclass] at hv
    | critical => rfl
    | neutral => rfl

/-- A permutation of the batch is ranked into the same lists. -/
theorem lists_eq_of_perm {scored' : List ScoredPath} (hperm : scored'.Perm scored) {a a' : Analysis}
    (h : rankAll t scored = .ok a) (h' : rankAll t scored' = .ok a') :
    a'.golden = a.golden ∧ a'.risk = a.risk ∧ a'.neutral = a.neutral := by
  obtain ⟨hgolden, hrisk, hneutral⟩ := arranged_of_rankAll hfit hids hrankable h
  obtain ⟨hgolden', hrisk', hneutral'⟩ := arranged_of_rankAll (hfit.of_perm hperm)
    ((hperm.map _).nodup_iff.2 hids) (fun s hs => hrankable s (hperm.mem_iff.1 hs)) h'
  obtain ⟨judged, hjudged, hg, hr, hn⟩ := rankAll_eq_ok h
  obtain ⟨judged', hjudged', hg', hr', hn'⟩ := rankAll_eq_ok h'
  obtain ⟨_, heq, hjudges⟩ := judgeAll_perm hperm hjudged
  cases hjudged'.symm.trans heq
  have hlists : ∀ {criteria : List Criterion} {p : Analyzed Json → Bool} {ranked ranked'},
      rankBy (keyOf criteria) (judged.filter p) = .ok ranked →
      rankBy (keyOf criteria) (judged'.filter p) = .ok ranked' → ranked'.Perm ranked := by
    intro criteria p ranked ranked' hranked hranked'
    exact (perm_of_rankBy hranked').trans ((hjudges.filter p).trans (perm_of_rankBy hranked).symm)
  exact ⟨hgolden.unique _ (hlists hg hg') hgolden'.sorted,
    hrisk.unique _ (hlists hr hr') hrisk'.sorted,
    hneutral.unique _ (hlists hn hn') hneutral'.sorted⟩

end Ranked

/-! ## The whole analysis -/

/-- The report is written from the ranked lists, so it is the same if they are. -/
theorem ranking_withReport (t : Thresholds Json) (a : Analysis) :
    (withReport t a).map Analysis.ranking =
      (Report.generate t a.golden a.risk a.neutral).map fun report =>
        (a.golden, a.risk, a.neutral, report) := by
  unfold withReport
  cases Report.generate t a.golden a.risk a.neutral <;> rfl

theorem map_mapError {ε ε' α β : Type} (x : Except ε α) (f : ε → ε') (g : α → β) :
    (x.mapError f).map g = (x.map g).mapError f := by
  cases x <;> rfl

/-- **The ranking does not depend on the order of the batch.** For every batch of paths with
    different ids and every outcome of their tasks, each permutation of the batch gives the same
    lists and the same report, or fails in the same way; and each list is the one arrangement of its
    members by their criteria. -/
theorem conclude_perm {t : Thresholds Json} {scored scored' : List ScoredPath}
    (hcheck : check (scored.map (·.path)) = .ok ()) (hfit : Fit t scored)
    (hids : (scored.map (·.path.id)).Nodup) (hrankable : ∀ s ∈ scored, isRankable t s = true)
    (hperm : scored'.Perm scored) (seconds : Json) :
    (conclude t seconds scored').answer.map Analysis.ranking =
      (conclude t seconds scored).answer.map Analysis.ranking ∧
    ((∀ s ∈ scored, s.bothScored = true → s.path.InRange) →
      ∃ a, (conclude t seconds scored).answer = .ok a ∧ Partition t scored a ∧
        Arranged goldenCriteria a.golden ∧ Arranged riskCriteria a.risk ∧
        Arranged neutralCriteria a.neutral) := by
  obtain ⟨a, ha, hpartition, -⟩ := gives_rankAll hfit
  obtain ⟨a', ha', -⟩ := gives_rankAll (hfit.of_perm hperm)
  constructor
  · obtain ⟨hgolden, hrisk, hneutral⟩ := lists_eq_of_perm hfit hids hrankable hperm ha ha'
    rw [conclude_answer ha, conclude_answer ha', map_mapError, map_mapError, ranking_withReport,
      ranking_withReport, hgolden, hrisk, hneutral]
  · intro hrange
    obtain ⟨b, hb, hpartition⟩ := conclude_of_inRange hcheck hfit seconds hrange
    refine ⟨b, hb, hpartition, ?_⟩
    have harranged := arranged_of_rankAll hfit hids hrankable ha
    -- the report leaves the lists as they are
    rw [conclude_answer ha] at hb
    unfold withReport at hb
    cases hreport : Report.generate t a.golden a.risk a.neutral with
    | error e =>
      rw [hreport] at hb
      cases hb
    | ok report =>
      rw [hreport] at hb
      cases hb
      exact harranged

/-- Two paths that only their ids tell apart, and one that has lost its risk. -/
def tiedBatch : List ScoredPath :=
  [{ path := single "b" 3, intent := .scored (evenIntent 0.5), risk := .scored (evenRisk 0.5) },
   { path := single "c" 3, intent := .scored (evenIntent 0.5), risk := .failed "lost" },
   { path := single "a" 3, intent := .scored (evenIntent 0.5), risk := .scored (evenRisk 0.5) }]

theorem conclude_perm_tiedBatch :
    Fit .initial tiedBatch ∧ (∀ s ∈ tiedBatch, isRankable .initial s = true) ∧
      (conclude .initial (.ofInt 30) tiedBatch.reverse).answer.map Analysis.ranking =
        (conclude .initial (.ofInt 30) tiedBatch).answer.map Analysis.ranking ∧
      ∃ a, (conclude .initial (.ofInt 30) tiedBatch).answer = .ok a ∧
        Partition .initial tiedBatch a ∧ Arranged goldenCriteria a.golden ∧
        Arranged riskCriteria a.risk ∧ Arranged neutralCriteria a.neutral := by
  have hfit : Fit .initial tiedBatch := by
    refine fit_of_single (Number.lt_machineBound (by decide)) ?_
    rw [tiedBatch, List.forall_mem_cons, List.forall_mem_cons, List.forall_mem_singleton]
    refine ⟨⟨⟨_, _, rfl⟩, ?_, ?_⟩, ⟨⟨_, _, rfl⟩, ?_, nofun⟩, ⟨_, _, rfl⟩, ?_, ?_⟩
    · rintro _ ⟨⟩
      exact evenIntent_isMachine 0.5
    · rintro _ ⟨⟩
      exact evenRisk_isMachine 0.5
    · rintro _ ⟨⟩
      exact evenIntent_isMachine 0.5
    · rintro _ ⟨⟩
      exact evenIntent_isMachine 0.5
    · rintro _ ⟨⟩
      exact evenRisk_isMachine 0.5
  have hrankable : ∀ s ∈ tiedBatch, isRankable .initial s = true := by decide +kernel
  have hperm := tiedBatch.reverse_perm
  obtain ⟨hsame, hlists⟩ :=
    conclude_perm rfl hfit (by decide) hrankable hperm (.ofInt 30)
  refine ⟨hfit, hrankable, hsame, hlists ?_⟩
  have hthree : (3 : Int).natAbs < Number.machineBound := Number.lt_machineBound (by decide)
  rw [tiedBatch, List.forall_mem_cons, List.forall_mem_cons, List.forall_mem_singleton]
  exact ⟨fun _ => single_inRange hthree, fun _ => single_inRange hthree,
    fun _ => single_inRange hthree⟩

end Batch
end PathTriage
