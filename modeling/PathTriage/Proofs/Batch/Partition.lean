import PathTriage.Batch
import PathTriage.Proofs.Report

/-!
An analysis accounts for every path of its batch.

Each position of a batch has two tasks. `Partition` says what an analysis makes of them: a position
with two scores is listed once, in the list of its class; every other position is named among the
skipped ones; every failed task leaves one message. The ranking gives such a partition whatever the
outcomes are (`gives_rankAll`). What follows it, the report, may still fail, and then the whole
analysis is lost: `conclude_of_inRange` and `conclude_of_not_inRange` say when.
-/

namespace PathTriage

open Outcome Scalar

/-- Whether both tasks of a position have a score. -/
def ScoredPath.bothScored (s : ScoredPath) : Bool :=
  match s.intent, s.risk with
  | .scored _, .scored _ => true
  | _, _ => false

theorem ScoredPath.bothScored_iff {s : ScoredPath} :
    s.bothScored = true ↔ ∃ intent risk, s.intent = .scored intent ∧ s.risk = .scored risk := by
  unfold bothScored
  cases s.intent <;> cases s.risk <;> simp

namespace Batch

/-! ## Partitions -/

/-- An analysed path is that of a position with two scores: it has these scores, and the class that
    follows from them. -/
structure Judged (t : Thresholds Json) (s : ScoredPath) (v : Analyzed Json) : Prop where
  path : v.path = { s.path with pathClass := v.pathClass, totalWeight := v.intent.total }
  intent : s.intent = .scored v.intent
  risk : s.risk = .scored v.risk
  pathClass : Verdict.classify t s.path v.intent v.risk = .ok v.pathClass

/-- The tasks of a batch by position, intent first, each with its path and the reason why it failed,
    if it did. -/
def tasks (scored : List ScoredPath) : List (TaskKind × String × Option String) :=
  scored.flatMap fun s =>
    [(.intent, s.path.id, s.intent.failure?), (.risk, s.path.id, s.risk.failure?)]

/-- An analysis that accounts for every position and every failed task of a batch. -/
structure Partition (t : Thresholds Json) (scored : List ScoredPath) (a : Analysis) : Prop where
  classes : ∃ judged, List.Forall₂ (Judged t) (scored.filter (·.bothScored)) judged ∧
    a.golden.Perm (judged.filter fun v => v.pathClass == .golden) ∧
    a.risk.Perm (judged.filter fun v => v.pathClass == .risk) ∧
    a.neutral.Perm (judged.filter fun v => v.pathClass == .neutral || v.pathClass == .critical)
  skipped : a.skipped = (scored.filter fun s => !s.bothScored).map (·.path.id)
  errors : a.errors = (tasks scored).filterMap fun task =>
    task.2.2.map (Event.scoringMessage task.1 task.2.1)
  incomplete : a.incomplete = true ↔ a.skipped ≠ []
  total : a.total + a.skipped.length = scored.length

/-- A batch whose scores are machine numbers, whose measures are integers, and whose sizes are
    within the range of machine numbers, with thresholds that are numbers. -/
structure Fit (t : Thresholds Json) (scored : List ScoredPath) : Prop where
  thresholds : ∀ name, (t name).IsNumber
  size : scored.length < Number.machineBound
  lengths : ∀ s ∈ scored, s.path.methods.length < Number.machineBound
  intents : ∀ s ∈ scored, ∀ w, s.intent = .scored w → w.IsMachine
  risks : ∀ s ∈ scored, ∀ w, s.risk = .scored w → w.IsMachine
  complexity : ∀ s ∈ scored, ∀ m ∈ s.path.methods, m.complexity.toJson.IsInteger
  linesOfCode : ∀ s ∈ scored, ∀ m ∈ s.path.methods, m.linesOfCode.IsInteger

/-! ## Verdicts -/

section Verdict

variable {t : Thresholds Json} (ht : ∀ name, (t name).IsNumber) {p : CallPath}
  {intent : IntentWeight Json} {risk : RiskWeight Json} (hintent : intent.IsMachine)
  (hrisk : risk.IsMachine)

include ht in
theorem decides_coverageMeets (r : Relation) (p : CallPath) (name : Threshold) :
    Decides (Verdict.coverageMeets r p (t name)) :=
  decides_test r (Computes.isNumber (Signal.computes_testCoverage p)) (isNumber_pure (ht name))

include ht in
/-- Scores that are numbers have a class. -/
theorem gives_classify (hintent : ∀ v ∈ [intent.total, intent.business, intent.quality], v.IsNumber)
    (hrisk : ∀ v ∈ [risk.total, risk.architectural, risk.blastRadius, risk.changeComplexity],
      v.IsNumber) : Gives (fun _ => True) (Verdict.classify t p intent risk) := by
  simp only [List.forall_mem_cons, List.not_mem_nil, false_imp_iff, implies_true, and_true]
    at hintent hrisk
  obtain ⟨hintent, hbusiness, hquality⟩ := hintent
  obtain ⟨hrisk, harchitectural, hblast, hchange⟩ := hrisk
  have hmeets : ∀ {v : Json} (r : Relation) (name : Threshold), v.IsNumber →
      Decides (Verdict.meets r v (t name)) :=
    fun r name hv => Json.gives_holds hv (ht name) r
  have hgolden : Decides (Verdict.isGolden t p intent risk) := by
    refine Condition.decides_both (Condition.decides_contrary (Condition.decides_either
      (hmeets _ _ hintent) (hmeets _ _ hrisk))) ?_
    refine Condition.decides_either (Condition.decides_either ?_ (Condition.decides_pure _))
      (decides_coverageMeets ht _ p _)
    exact Condition.decides_both (hmeets _ _ hbusiness) (hmeets _ _ hquality)
  have hrisky : Decides (Verdict.isRisky t p risk) :=
    Condition.decides_either (hmeets _ _ hrisk)
      (Condition.decides_either (hmeets _ _ harchitectural)
        (Condition.decides_either (hmeets _ _ hblast)
          (Condition.decides_either (hmeets _ _ hchange)
            (Condition.decides_either (Condition.decides_pure _)
              (Condition.decides_either (decides_coverageMeets ht _ p _)
                (Condition.decides_pure _))))))
  have hcritical : Decides (Verdict.isCritical intent risk) := by
    have htotal := isNumber_pure hrisk
    exact Condition.decides_both
      (decides_test _ (isNumber_pure hintent) (isNumber_hundredths 50))
      (Condition.decides_both (decides_test _ (isNumber_hundredths 40) htotal)
        (decides_test _ htotal (isNumber_hundredths 60)))
  -- the class is chosen by the three conditions in turn
  refine hgolden.choose (.pure trivial) (hrisky.choose (.pure trivial) ?_)
  exact hcritical.choose (.pure trivial) (.pure trivial)

include hintent hrisk

theorem gives_priority : Gives (fun _ => True) (Verdict.priority intent risk) := by
  have hurgency : Computes (Verdict.urgency intent risk) :=
    computes_add (computes_mul (computes_hundredths 60) (computes_pure hintent.total))
      (computes_mul (computes_hundredths 40)
        (computes_sub computes_one (computes_pure hrisk.total)))
  refine hurgency.bind fun v hv => ?_
  have hreaches : ∀ n, Decides (test .atLeast (pure v) (hundredths n)) := fun n =>
    decides_test .atLeast (isNumber_pure hv.isNumber) (isNumber_hundredths n)
  refine (hreaches 80).choose (.pure trivial) ((hreaches 60).choose (.pure trivial) ?_)
  exact (hreaches 40).choose (.pure trivial) (.pure trivial)

theorem computes_confidence (hlength : p.methods.length < Number.machineBound) :
    Computes (Verdict.confidence p intent risk) := by
  have hsize : Computes (capped (quotient p.methods.length 10)) :=
    computes_capped (computes_quotient (by decide) (by omega))
  exact computes_div (computes_add (computes_add hsize (computes_pure hintent.confidence))
    (computes_pure hrisk.confidence)) (by decide) (by decide)

include ht in
/-- Two scores are judged. -/
theorem gives_judge {s : ScoredPath} (hs : s.intent = .scored intent) (hs' : s.risk = .scored risk)
    (hlength : s.path.methods.length < Number.machineBound) :
    Gives (fun v => Judged t s v ∧ v.IsMachine) (judge t s.path intent risk) := by
  have hgives : Gives (fun _ => True) (Verdict.classify t s.path intent risk) :=
    gives_classify ht
      (by simp [hintent.total.isNumber, hintent.business.isNumber, hintent.quality.isNumber])
      (by simp [hrisk.total.isNumber, hrisk.architectural.isNumber, hrisk.blastRadius.isNumber,
        hrisk.changeComplexity.isNumber])
  obtain ⟨pathClass, hclass, -⟩ := hgives
  rw [judge, hclass]
  refine (gives_priority hintent hrisk).bind fun _ _ => ?_
  refine (computes_confidence hintent hrisk hlength).bind fun _ hconfidence => ?_
  exact .pure ⟨⟨rfl, hs, hs', hclass⟩, hintent, hrisk, hconfidence⟩

end Verdict

theorem isSome_scores? (s : ScoredPath) : (scores? s).isSome = s.bothScored := by
  unfold scores? ScoredPath.bothScored
  cases s.intent <;> cases s.risk <;> rfl

/-- The two scores of a position are those of its tasks. -/
theorem scored_of_scores? {s : ScoredPath} {intent : IntentWeight Json} {risk : RiskWeight Json}
    (h : scores? s = some (intent, risk)) : s.intent = .scored intent ∧ s.risk = .scored risk := by
  unfold scores? at h
  cases hi : s.intent with
  | scored w =>
    cases hr : s.risk with
    | scored w' =>
      rw [hi, hr] at h
      cases h
      exact ⟨rfl, rfl⟩
    | failed _ => simp [hi, hr, Outcome.weight?] at h
    | outstanding => simp [hi, hr, Outcome.weight?] at h
  | failed _ => simp [hi, Outcome.weight?] at h
  | outstanding => simp [hi, Outcome.weight?] at h

/-- The positions with two scores are judged one after the other. -/
theorem gives_judgeAll {t : Thresholds Json} {scored : List ScoredPath} (hfit : Fit t scored) :
    Gives (fun judged => List.Forall₂ (Judged t) (scored.filter (·.bothScored)) judged ∧
      ∀ v ∈ judged, v.IsMachine) (judgeAll t scored) := by
  obtain ⟨ht, -, hlengths, hintents, hrisks, -, -⟩ := hfit
  induction scored with
  | nil => exact .pure ⟨.nil, by simp⟩
  | cons s rest ih =>
    have hrest := ih (fun s' hs' => hlengths s' (List.mem_cons_of_mem s hs'))
      (fun s' hs' => hintents s' (List.mem_cons_of_mem s hs'))
      (fun s' hs' => hrisks s' (List.mem_cons_of_mem s hs'))
    have hboth := isSome_scores? s
    rw [judgeAll]
    cases hscores : scores? s with
    | none =>
      rw [hscores, Option.isSome_none] at hboth
      -- a position without two scores is passed over
      rw [List.filter_cons_of_neg (by rw [← hboth]; exact Bool.false_ne_true)]
      exact hrest
    | some scores =>
      obtain ⟨intent, risk⟩ := scores
      rw [hscores, Option.isSome_some] at hboth
      rw [List.filter_cons_of_pos hboth.symm]
      obtain ⟨hi, hr⟩ := scored_of_scores? hscores
      have hjudge := gives_judge ht (hintents s List.mem_cons_self intent hi)
        (hrisks s List.mem_cons_self risk hr) hi hr (hlengths s List.mem_cons_self)
      refine hjudge.bind fun v hv => hrest.bind fun more hmore => .pure ⟨.cons hv.1 hmore.1, ?_⟩
      exact List.forall_mem_cons.2 ⟨hv.2, hmore.2⟩

/-! ## Ranking -/

section Ranking

variable {v : Analyzed Json} (hv : v.IsMachine)

theorem computes_negative {x : Except Failure Json} (hx : Computes x) :
    Computes (Ranking.negative x) := by
  have hzero : (Json.ofInt 0).IsWhole := ⟨0, rfl, Number.lt_machineBound (by decide)⟩
  exact hx.bind fun _ hy => Json.gives_sub_whole hzero hy

include hv

theorem computes_goldenScore : Computes (Ranking.goldenScore v) :=
  computes_add (computes_add
    (computes_mul (computes_hundredths 40) (computes_pure hv.intent.business))
    (computes_mul (computes_hundredths 30) (computes_pure hv.intent.completeness)))
    (computes_mul (computes_hundredths 30) (computes_pure hv.intent.quality))

theorem computes_severity : Computes (Ranking.severity v) :=
  computes_add (computes_add
    (computes_mul (computes_hundredths 40) (computes_pure hv.risk.architectural))
    (computes_mul (computes_hundredths 30) (computes_pure hv.risk.blastRadius)))
    (computes_mul (computes_hundredths 30) (computes_pure hv.risk.changeComplexity))

theorem computes_margin :
    Computes (pure v.intent.total - pure v.risk.total : Except Failure Json) :=
  computes_sub (computes_pure hv.intent.total) (computes_pure hv.risk.total)

theorem gives_goldenKey : Gives (fun _ => True) (Ranking.goldenKey v) := by
  refine (computes_negative (computes_goldenScore hv)).bind fun _ _ => ?_
  exact (computes_negative (computes_pure hv.confidence)).bind fun _ _ => .pure trivial

theorem gives_riskKey : Gives (fun _ => True) (Ranking.riskKey v) := by
  refine (computes_negative (computes_severity hv)).bind fun _ _ => ?_
  refine (computes_negative (computes_pure hv.intent.business)).bind fun _ _ => ?_
  exact (computes_negative (computes_pure hv.confidence)).bind fun _ _ => .pure trivial

theorem gives_neutralKey : Gives (fun _ => True) (Ranking.neutralKey v) := by
  refine (computes_negative (computes_margin hv)).bind fun _ _ => ?_
  refine (computes_negative (computes_pure hv.intent.business)).bind fun _ _ => ?_
  exact (computes_negative (computes_pure hv.confidence)).bind fun _ _ => .pure trivial

end Ranking

section RankBy

variable {key : Analyzed Json → Except Failure (Ranking.Key Json)} {paths : List (Analyzed Json)}

/-- Every path keeps its place next to its key until the keys are sorted. -/
theorem forall₂_keyed {keyed : List (Ranking.Key Json × Analyzed Json)}
    (h : (paths.mapM fun p => do pure (← key p, p)) = .ok keyed) :
    List.Forall₂ (fun p e => key p = .ok e.1 ∧ e.2 = p) paths keyed := by
  refine (mapM_eq_ok.1 h).imp ?_
  intro p e he
  obtain ⟨k, hk, he⟩ := bind_eq_ok.1 he
  cases he
  exact ⟨hk, rfl⟩

/-- Ranking rearranges the paths. -/
theorem perm_of_rankBy {ranked : List (Analyzed Json)} (h : Ranking.rankBy key paths = .ok ranked) :
    ranked.Perm paths := by
  obtain ⟨keyed, hkeyed, hranked⟩ := bind_eq_ok.1 h
  cases hranked
  have hmap : keyed.map (·.2) = paths := by
    refine (List.forall₂_eq_eq_eq ▸ List.forall₂_map_right_iff.2 ?_ : paths = _).symm
    exact (forall₂_keyed hkeyed).imp fun _ _ he => he.2.symm
  rw [← hmap]
  exact (Order.sortBy_perm _ keyed).map _

theorem gives_rankBy (h : ∀ p ∈ paths, Gives (fun _ => True) (key p)) :
    Gives (·.Perm paths) (Ranking.rankBy key paths) := by
  have hkeyed : Gives _ (paths.mapM fun p => do pure (← key p, p)) :=
    Gives.mapM (Q := fun _ => True) fun p hp => (h p hp).bind fun _ _ => .pure trivial
  obtain ⟨ranked, hranked, -⟩ := hkeyed.bind (Q := fun _ => True) fun keyed _ => .pure trivial
  exact ⟨ranked, hranked, perm_of_rankBy hranked⟩

end RankBy

/-! ## Accounts -/

theorem skippedIds_eq (scored : List ScoredPath) :
    skippedIds scored = (scored.filter fun s => !s.bothScored).map (·.path.id) := by
  have hnone : ∀ s ∈ scored, (scores? s).isNone = !s.bothScored := by
    intro s _
    rw [← isSome_scores?, Option.not_isSome]
  rw [skippedIds, List.filter_congr hnone]

/-- Where every position has two scores, no task is outstanding. -/
theorem pending_eq_zero {scored : List ScoredPath} (h : ∀ s ∈ scored, s.bothScored = true) :
    pending scored = 0 := by
  induction scored with
  | nil => rfl
  | cons s scored ih =>
    obtain ⟨hs, hrest⟩ := List.forall_mem_cons.1 h
    obtain ⟨intent, risk, hintent, hrisk⟩ := ScoredPath.bothScored_iff.1 hs
    have hone : outstanding s = 0 := by
      rw [outstanding, hintent, hrisk]
      rfl
    show outstanding s + pending scored = 0
    rw [hone, ih hrest]

/-- An outstanding task skips its path. -/
theorem skippedIds_ne_nil_of_pending {scored : List ScoredPath} (h : pending scored ≠ 0) :
    skippedIds scored ≠ [] := by
  intro hnil
  rw [skippedIds_eq, List.map_eq_nil_iff, List.filter_eq_nil_iff] at hnil
  refine h (pending_eq_zero fun s hs => ?_)
  simpa using hnil s hs

theorem errorMessages_eq (scored : List ScoredPath) :
    errorMessages scored = (tasks scored).filterMap fun task =>
      task.2.2.map (Event.scoringMessage task.1 task.2.1) := by
  rw [errorMessages, tasks, List.filterMap_flatMap]
  refine List.flatMap_congr ?_
  intro s _
  unfold failures
  cases s.intent.failure? <;> cases s.risk.failure? <;> rfl

/-- Every path has one of four classes, two of which share a list. -/
theorem length_classes (judged : List (Analyzed Json)) :
    (judged.filter fun v => v.pathClass == .golden).length +
      (judged.filter fun v => v.pathClass == .risk).length +
      (judged.filter fun v => v.pathClass == .neutral || v.pathClass == .critical).length =
        judged.length := by
  induction judged with
  | nil => rfl
  | cons v judged ih =>
    rw [List.length_cons, ← ih]
    cases hv : v.pathClass <;> simp [hv] <;> omega

/-- The three lists have all paths between them. -/
theorem mem_classes {judged golden risk neutral : List (Analyzed Json)}
    (hgolden : golden.Perm (judged.filter fun v => v.pathClass == .golden))
    (hrisk : risk.Perm (judged.filter fun v => v.pathClass == .risk))
    (hneutral : neutral.Perm
      (judged.filter fun v => v.pathClass == .neutral || v.pathClass == .critical))
    {v : Analyzed Json} : v ∈ golden ++ risk ++ neutral ↔ v ∈ judged := by
  rw [List.mem_append, List.mem_append, hgolden.mem_iff, hrisk.mem_iff, hneutral.mem_iff]
  simp only [List.mem_filter]
  cases v.pathClass <;> simp

/-- The ranking partitions the batch, whatever the outcomes of its tasks are. -/
theorem gives_rankAll {t : Thresholds Json} {scored : List ScoredPath} (hfit : Fit t scored) :
    Gives (fun a => Partition t scored a ∧ ∀ v ∈ a.golden ++ a.risk ++ a.neutral, v.IsMachine)
      (rankAll t scored) := by
  refine (gives_judgeAll hfit).bind ?_
  rintro judged ⟨hjudged, hmachine⟩
  -- the keys are computed from scores, so each of the three lists can be ranked
  have hkey :
      ∀ {key : Analyzed Json → Except Failure (Ranking.Key Json)} (p : Analyzed Json → Bool),
      (∀ v, v.IsMachine → Gives (fun _ => True) (key v)) →
        Gives (·.Perm (judged.filter p)) (Ranking.rankBy key (judged.filter p)) := by
    intro key p h
    exact gives_rankBy fun v hv => h v (hmachine v (List.mem_of_mem_filter hv))
  refine (hkey _ fun _ => gives_goldenKey).bind fun golden hgolden => ?_
  refine (hkey _ fun _ => gives_riskKey).bind fun risk hrisk => ?_
  refine (hkey _ fun _ => gives_neutralKey).bind fun neutral hneutral => .pure ?_
  have hother : judged.filter (fun v => v.pathClass != .golden && v.pathClass != .risk) =
      judged.filter fun v => v.pathClass == .neutral || v.pathClass == .critical := by
    refine List.filter_congr ?_
    intro v _
    cases v.pathClass <;> rfl
  rw [hother] at hneutral
  have hskipped := skippedIds_eq scored
  refine ⟨⟨⟨judged, hjudged, hgolden, hrisk, hneutral⟩, hskipped, errorMessages_eq scored,
    ?_, ?_⟩, ?_⟩
  · -- tasks that are outstanding add nothing: they have skipped their paths already
    show (pending scored != 0 || !(skippedIds scored).isEmpty) = true ↔ skippedIds scored ≠ []
    rw [Bool.or_eq_true, bne_iff_ne, Bool.not_eq_true', ← Bool.not_eq_true, List.isEmpty_iff]
    exact or_iff_right_of_imp skippedIds_ne_nil_of_pending
  · -- the two kinds of positions make up the batch
    have hsplit := List.length_eq_length_filter_add (l := scored) (·.bothScored)
    have hlength := hjudged.length_eq
    have hclasses := length_classes judged
    change golden.length + risk.length + neutral.length + (skippedIds scored).length = scored.length
    rw [hskipped, List.length_map, hgolden.length_eq, hrisk.length_eq, hneutral.length_eq]
    omega
  · intro v hv
    exact hmachine v ((mem_classes hgolden hrisk hneutral).1 hv)

/-! ## The whole analysis -/

theorem Judged.methods {t : Thresholds Json} {s : ScoredPath} {v : Analyzed Json}
    (h : Judged t s v) : v.path.methods = s.path.methods := by
  rw [h.path]

section Partition

variable {t : Thresholds Json} {scored : List ScoredPath} {a : Analysis} (h : Partition t scored a)

include h

/-- Every listed path is that of a position with two scores. -/
theorem Partition.position {v : Analyzed Json} (hv : v ∈ a.golden ++ a.risk ++ a.neutral) :
    ∃ s ∈ scored, s.bothScored = true ∧ Judged t s v := by
  obtain ⟨judged, hjudged, hgolden, hrisk, hneutral⟩ := h.classes
  rw [mem_classes hgolden hrisk hneutral] at hv
  obtain ⟨s, hs, hjudge⟩ := exists_of_forall₂ hjudged hv
  rw [List.mem_filter] at hs
  exact ⟨s, hs.1, hs.2, hjudge⟩

/-- Every position with two scores is listed. -/
theorem Partition.listed {s : ScoredPath} (hs : s ∈ scored) (hboth : s.bothScored = true) :
    ∃ v ∈ a.golden ++ a.risk ++ a.neutral, Judged t s v := by
  obtain ⟨judged, hjudged, hgolden, hrisk, hneutral⟩ := h.classes
  obtain ⟨v, hv, hjudge⟩ := exists_of_forall₂ hjudged.flip (List.mem_filter.2 ⟨hs, hboth⟩)
  exact ⟨v, (mem_classes hgolden hrisk hneutral).2 hv, hjudge⟩

/-- Where every position has two scores, nothing is lacking. -/
theorem Partition.complete (hboth : ∀ s ∈ scored, s.bothScored = true) :
    a.errors = [] ∧ a.skipped = [] ∧ a.incomplete = false ∧ a.total = scored.length := by
  have hskipped : a.skipped = [] := by
    rw [h.skipped, List.map_eq_nil_iff, List.filter_eq_nil_iff]
    intro s hs
    simp [hboth s hs]
  have herrors : a.errors = [] := by
    rw [h.errors, List.filterMap_eq_nil_iff]
    intro task htask
    obtain ⟨s, hs, htask⟩ := List.mem_flatMap.1 htask
    obtain ⟨intent, risk, hintent, hrisk⟩ := ScoredPath.bothScored_iff.1 (hboth s hs)
    rw [hintent, hrisk] at htask
    simp only [List.mem_cons, List.not_mem_nil, or_false] at htask
    rcases htask with rfl | rfl <;> rfl
  have htotal := h.total
  rw [hskipped, List.length_nil, Nat.add_zero] at htotal
  refine ⟨herrors, hskipped, ?_, htotal⟩
  rw [Bool.eq_false_iff]
  intro hincomplete
  exact h.incomplete.1 hincomplete hskipped

/-- A report changes nothing in the lists. -/
theorem Partition.withReport (report : Report) : Partition t scored { a with report } :=
  ⟨h.classes, h.skipped, h.errors, h.incomplete, h.total⟩

end Partition

theorem methods_ne_nil_of_check {paths : List CallPath} (h : check paths = .ok ()) {p : CallPath}
    (hp : p ∈ paths) : p.methods ≠ [] := by
  unfold check at h
  split at h
  · cases h
  · split at h
    · cases h
    · next hnone =>
      intro hnil
      have hfind := List.find?_eq_none.1 hnone p hp
      rw [hnil] at hfind
      exact hfind rfl

theorem conclude_answer {t : Thresholds Json} {scored : List ScoredPath} {a : Analysis}
    (h : rankAll t scored = .ok a) (seconds : Json) :
    (conclude t seconds scored).answer = (withReport t a).mapError .failed := by
  unfold conclude
  rw [h]

section Conclude

variable {t : Thresholds Json} {scored : List ScoredPath}
  (hcheck : check (scored.map (·.path)) = .ok ()) (hfit : Fit t scored) (seconds : Json)

include hcheck hfit

/-- What the report needs to know about the ranked paths. -/
theorem measured_of_partition {a : Analysis} (h : Partition t scored a) :
    (∀ v ∈ a.golden ++ a.risk ++ a.neutral, v.path.Measured) ∧
      (a.golden ++ a.risk ++ a.neutral).length < Number.machineBound := by
  constructor
  · intro v hv
    obtain ⟨s, hs, -, hjudge⟩ := h.position hv
    have hne := methods_ne_nil_of_check hcheck (List.mem_map.2 ⟨s, hs, rfl⟩)
    have hmethods := hjudge.methods
    refine ⟨?_, ?_, ?_⟩
    · rwa [hmethods]
    · rw [hmethods]
      exact hfit.complexity s hs
    · rw [hmethods]
      exact hfit.linesOfCode s hs
  · have htotal := h.total
    have hsize := hfit.size
    unfold Analysis.total at htotal
    rw [List.length_append, List.length_append]
    omega

theorem conclude_of_inRange (hrange : ∀ s ∈ scored, s.bothScored = true → s.path.InRange) :
    ∃ a, (conclude t seconds scored).answer = .ok a ∧ Partition t scored a := by
  obtain ⟨a, ha, hpartition, hmachine⟩ := gives_rankAll hfit
  obtain ⟨hmeasured, hlength⟩ := measured_of_partition hcheck hfit hpartition
  have hall : ∀ v ∈ a.golden ++ a.risk ++ a.neutral, v.path.InRange := by
    intro v hv
    obtain ⟨s, hs, hboth, hjudge⟩ := hpartition.position hv
    have hmethods := hjudge.methods
    unfold CallPath.InRange
    rw [hmethods]
    exact hrange s hs hboth
  obtain ⟨report, hreport, -⟩ :=
    Report.gives_generate (hfit.thresholds .complexity) hmachine hmeasured hlength hall
  refine ⟨{ a with report }, ?_, hpartition.withReport report⟩
  rw [conclude_answer ha, withReport, hreport]
  rfl

theorem conclude_of_not_inRange (hrange : ¬∀ s ∈ scored, s.bothScored = true → s.path.InRange) :
    (conclude t seconds scored).answer = .error (.failed .quotientRange) := by
  obtain ⟨a, ha, hpartition, hmachine⟩ := gives_rankAll hfit
  obtain ⟨hmeasured, hlength⟩ := measured_of_partition hcheck hfit hpartition
  -- the path whose mean is out of range was judged and ranked before the report failed
  have hall : ¬∀ v ∈ a.golden ++ a.risk ++ a.neutral, v.path.InRange := by
    intro hall
    refine hrange fun s hs hboth => ?_
    obtain ⟨v, hv, hjudge⟩ := hpartition.listed hs hboth
    have hrange := hall v hv
    unfold CallPath.InRange at hrange
    rw [hjudge.methods] at hrange
    exact hrange
  have hreport :=
    Report.generate_out (hfit.thresholds .complexity) hmachine hmeasured hlength hall
  rw [conclude_answer ha, withReport, hreport]
  rfl

end Conclude

/-! ## Runs without interruption -/

/-- Both tasks of a path over fit methods have a score, unless one is interrupted. -/
theorem score_of_fit (known : String → String → Bool) (context : ChangeContext)
    (interrupt : TaskKind → String → Option Interruption) {p : CallPath}
    (hfit : ∀ m ∈ p.methods, m.Fit) (hlength : p.methods.length < pow2 63)
    (hchange : ∀ m ∈ p.methods, m.id ∈ context.changed → m.FitForChange)
    (hcommits : context.commits.length < Number.machineBound)
    (hchanged : context.changed.length < Number.machineBound)
    (hnone : ∀ kind, interrupt kind p.id = none) :
    ∃ intent risk, intent.IsMachine ∧ risk.IsMachine ∧
      (score known context interrupt p).intent = .scored intent ∧
      (score known context interrupt p).risk = .scored risk := by
  have hrange : p.methods.length < Number.machineBound :=
    Number.lt_machineBound (hlength.trans (pow2_lt (by decide)))
  obtain ⟨intent, hintent, hmachine⟩ := Intent.gives_weigh hfit hrange hcommits known
  obtain ⟨risk, hrisk, hmachine'⟩ := Risk.gives_weigh hfit hlength hchange hchanged known
  refine ⟨intent, risk, hmachine, hmachine', ?_, ?_⟩
  · rw [score, hnone .intent, hintent]
    rfl
  · rw [score, hnone .risk, hrisk]
    rfl

/-! ## Time limits -/

/-- Where no task is outstanding, the limit counts only when some task is awaited. -/
theorem waitFailure?_of_settled {limit : Json} {awaited : Bool} {scored : List ScoredPath}
    (hpending : pending scored = 0) (hlimit : awaited = true → limitFailure? limit = none) :
    waitFailure? limit awaited scored = none := by
  rw [waitFailure?, hpending, bne_self_eq_false, Bool.or_false]
  by_cases hawaited : awaited = true
  · rw [if_pos hawaited, hlimit hawaited]
  · rw [if_neg hawaited]

/-- A limit that can be waited for never counts against a run. -/
theorem waitFailure?_of_limit {limit : Json} (hlimit : limitFailure? limit = none) (awaited : Bool)
    (scored : List ScoredPath) : waitFailure? limit awaited scored = none := by
  rw [waitFailure?, hlimit, ite_self]

theorem limitFailure?_initial : limitFailure? Settings.initial.plan.timeout = none := by
  decide +kernel

/-! ## Answers of runs -/

theorem workersFailure?_of_isNumber {workers : Json} (h : workers.IsNumber) :
    workersFailure? workers = none := by
  obtain ⟨n, hn⟩ := Option.isSome_iff_exists.1 h
  rw [workersFailure?, Json.holds_of_number hn rfl]

/-- Once a batch is checked, its run comes to a conclusion, unless it has to wait and cannot. -/
theorem run_answer {plan : Plan} {paths : List CallPath} (hcheck : check paths = .ok ())
    (hworkers : plan.workers.IsNumber) (known : String → String → Bool) (context : ChangeContext)
    (course : Course) :
    (run plan known context course paths).answer =
      (waitFailure? plan.timeout course.awaited
        (paths.map (score known context course.interrupt))).elim
        (conclude plan.thresholds plan.timeout
          (paths.map (score known context course.interrupt))).answer
        fun cause => .error (.failed cause) := by
  rw [run, hcheck]
  dsimp only
  rw [workersFailure?_of_isNumber hworkers]
  dsimp only
  cases waitFailure? plan.timeout course.awaited
      (paths.map (score known context course.interrupt)) with
  | none => rfl
  | some cause => rfl

/-! ## Exact conditions -/

/-- **An analysis loses nothing, or all.** For every outcome of the tasks of a batch: when the mean
    complexity and the mean length of every path with two scores are within the range of machine
    numbers, there is an analysis, and it accounts for every position and every failed task. When
    one of them is not, there is no analysis at all, not even of the other paths. -/
theorem conclude_partitions {t : Thresholds Json} {scored : List ScoredPath}
    (hcheck : check (scored.map (·.path)) = .ok ()) (hfit : Fit t scored) (seconds : Json) :
    ((∀ s ∈ scored, s.bothScored = true → s.path.InRange) →
      ∃ a, (conclude t seconds scored).answer = .ok a ∧ Partition t scored a) ∧
    ((∃ s ∈ scored, s.bothScored = true ∧ ¬s.path.InRange) →
      (conclude t seconds scored).answer = .error (.failed .quotientRange)) := by
  refine ⟨conclude_of_inRange hcheck hfit seconds, ?_⟩
  rintro ⟨s, hs, hboth, hout⟩
  exact conclude_of_not_inRange hcheck hfit seconds fun hall => hout (hall s hs hboth)

theorem initial_isNumber (name : Threshold) : (Thresholds.initial name).IsNumber := by
  cases name <;> rfl

/-- The path of one method with a number of lines. -/
def single (id : String) (lines : Int) : CallPath :=
  .along id [{ id := "a", name := "a", linesOfCode := .ofInt lines }] fun _ _ => none

/-- An intent with the same score in every respect. -/
def evenIntent (x : Float) : IntentWeight Json where
  total := .ofFloat x
  business := .ofFloat x
  completeness := .ofFloat x
  quality := .ofFloat x
  confidence := .ofFloat x
  pathLength := 1
  keywords := []
  complexityGrade := .low
  coverageGrade := .low
  signs := ⟨.ofFloat x, .ofFloat x, .ofFloat x, .ofFloat x, .ofFloat x⟩

/-- A risk with the same score in every respect. -/
def evenRisk (x : Float) : RiskWeight Json where
  total := .ofFloat x
  architectural := .ofFloat x
  blastRadius := .ofFloat x
  changeComplexity := .ofFloat x
  dataFlow := .ofFloat x
  level := .medium
  confidence := .ofFloat x
  details := {}

/-- Two positions with the same id, one of which has lost its risk, and one without any score. -/
def mixedBatch : List ScoredPath :=
  [{ path := single "p" 3, intent := .scored (evenIntent 0.5), risk := .scored (evenRisk 0.5) },
   { path := single "p" 3, intent := .scored (evenIntent 0.5), risk := .failed "lost" },
   { path := single "q" 3, intent := .outstanding, risk := .failed "lost" }]

/-- A batch of single methods with even scores is fit. -/
theorem fit_of_single {scored : List ScoredPath} (hsize : scored.length < Number.machineBound)
    (h : ∀ s ∈ scored, (∃ id lines, s.path = single id lines) ∧
      (∀ w, s.intent = .scored w → w.IsMachine) ∧ ∀ w, s.risk = .scored w → w.IsMachine) :
    Fit .initial scored where
  thresholds := initial_isNumber
  size := hsize
  lengths := by
    intro s hs
    obtain ⟨⟨id, lines, hpath⟩, -⟩ := h s hs
    rw [hpath]
    exact Number.lt_machineBound (by decide : 1 < pow2 126)
  intents s hs := (h s hs).2.1
  risks s hs := (h s hs).2.2
  complexity := by
    intro s hs m hm
    obtain ⟨⟨id, lines, hpath⟩, -⟩ := h s hs
    rw [hpath] at hm
    rw [List.mem_singleton.1 hm]
    exact ⟨1, rfl⟩
  linesOfCode := by
    intro s hs m hm
    obtain ⟨⟨id, lines, hpath⟩, -⟩ := h s hs
    rw [hpath] at hm
    rw [List.mem_singleton.1 hm]
    exact ⟨lines, rfl⟩

theorem evenIntent_isMachine (x : Float) : (evenIntent x).IsMachine :=
  ⟨⟨x, rfl⟩, ⟨x, rfl⟩, ⟨x, rfl⟩, ⟨x, rfl⟩, ⟨x, rfl⟩⟩

theorem evenRisk_isMachine (x : Float) : (evenRisk x).IsMachine :=
  ⟨⟨x, rfl⟩, ⟨x, rfl⟩, ⟨x, rfl⟩, ⟨x, rfl⟩, ⟨x, rfl⟩⟩

theorem single_inRange {id : String} {lines : Int} (h : lines.natAbs < Number.machineBound) :
    (single id lines).InRange := by
  constructor
  · change (1 : Int).natAbs < Number.machineBound * 1
    rw [Nat.mul_one]
    exact Number.lt_machineBound (by decide)
  · change (0 + lines).natAbs < Number.machineBound * 1
    rwa [Nat.mul_one, Int.zero_add]

theorem conclude_partitions_mixedBatch :
    Fit .initial mixedBatch ∧ ∃ a,
      (conclude .initial (.ofInt 30) mixedBatch).answer = .ok a ∧
      Partition .initial mixedBatch a := by
  have hfit : Fit .initial mixedBatch := by
    refine fit_of_single (Number.lt_machineBound (by decide)) ?_
    rw [mixedBatch, List.forall_mem_cons, List.forall_mem_cons, List.forall_mem_singleton]
    refine ⟨⟨⟨_, _, rfl⟩, ?_, ?_⟩, ⟨⟨_, _, rfl⟩, ?_, nofun⟩, ⟨_, _, rfl⟩, nofun, nofun⟩
    · rintro _ ⟨⟩
      exact evenIntent_isMachine 0.5
    · rintro _ ⟨⟩
      exact evenRisk_isMachine 0.5
    · rintro _ ⟨⟩
      exact evenIntent_isMachine 0.5
  refine ⟨hfit, (conclude_partitions rfl hfit (.ofInt 30)).1 ?_⟩
  have hthree : (3 : Int).natAbs < Number.machineBound := Number.lt_machineBound (by decide)
  rw [mixedBatch, List.forall_mem_cons, List.forall_mem_cons, List.forall_mem_singleton]
  exact ⟨fun _ => single_inRange hthree, fun _ => single_inRange hthree,
    fun _ => single_inRange hthree⟩

theorem single_not_inRange {id : String} {lines : Int} (h : Number.machineBound ≤ lines.natAbs) :
    ¬(single id lines).InRange := by
  rintro ⟨-, hlines⟩
  have hlt : (0 + lines).natAbs < Number.machineBound * 1 := hlines
  rw [Nat.mul_one, Int.zero_add] at hlt
  omega

/-- A single method with too many lines is scored twice, and keeps the analysis from its result. -/
theorem run_single_out {lines : Int} (h : Number.machineBound ≤ lines.natAbs) (id : String)
    (known : String → String → Bool) (awaited : Bool) :
    (score known {} (fun _ _ => none) (single id lines)).bothScored = true ∧
      (run Settings.initial.plan known {} { awaited } [single id lines]).answer =
        .error (.failed .quotientRange) := by
  -- the number of lines is no part of the scores, so both tasks have one
  have hmethod : ∀ m ∈ (single id lines).methods, m.Fit := by
    intro m hm
    rw [List.mem_singleton.1 hm]
    have hzero : (Json.ofInt 0).IsCount := ⟨0, rfl, Number.lt_machineBound (by decide)⟩
    exact ⟨⟨1, rfl, Number.lt_machineBound (by decide)⟩, hzero, hzero, rfl⟩
  obtain ⟨intent, risk, hintent, hrisk, hscored, hscored'⟩ :=
    score_of_fit known {} (fun _ _ => none) hmethod (by decide : 1 < pow2 63) (by simp)
      (Number.lt_machineBound (by decide)) (Number.lt_machineBound (by decide)) fun _ => rfl
  have hboth : (score known {} (fun _ _ => none) (single id lines)).bothScored = true := by
    rw [ScoredPath.bothScored, hscored, hscored']
  have hfit : Fit .initial [score known {} (fun _ _ => none) (single id lines)] := by
    refine fit_of_single (Number.lt_machineBound (by decide : 1 < pow2 126)) ?_
    rw [List.forall_mem_singleton]
    refine ⟨⟨_, _, rfl⟩, ?_, ?_⟩
    · intro w hw
      rw [hscored] at hw
      cases hw
      exact hintent
    · intro w hw
      rw [hscored'] at hw
      cases hw
      exact hrisk
  have hworkers : Settings.initial.plan.workers.IsNumber := rfl
  refine ⟨hboth, ?_⟩
  rw [run_answer rfl hworkers, waitFailure?_of_limit limitFailure?_initial, Option.elim_none]
  refine conclude_of_not_inRange rfl hfit _ ?_
  intro hall
  exact single_not_inRange h (hall _ List.mem_cons_self hboth)

/-- Both tasks of a path of one method with `10 ^ 400` lines have a score, and yet the path is
    listed nowhere. -/
theorem overlong_path_unlisted :
    (score (fun _ _ => false) {} (fun _ _ => none) (single "p" (pow10 400))).bothScored = true ∧
      (run Settings.initial.plan (fun _ _ => false) {} { awaited := true }
        [single "p" (pow10 400)]).answer = .error (.failed .quotientRange) := by
  have hout : Number.machineBound ≤ pow10 400 := by decide +kernel
  exact run_single_out (by rwa [Int.natAbs_natCast]) "p" (fun _ _ => false) true

end Batch
end PathTriage
