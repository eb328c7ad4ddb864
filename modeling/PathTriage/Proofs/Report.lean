import PathTriage.Proofs.Score.Weights
import PathTriage.Report

/-!
When the report over analysed paths is written, and when it is not.

Everything in a report is a mean or a share of machine numbers, with two exceptions: the mean
complexity and the mean length of the methods of a path are quotients of exact integers, and such a
quotient may lie beyond all machine numbers. The report is written exactly when it does so for no
path.
-/

namespace PathTriage

open Outcome Scalar

/-! ## Means of integers -/

/-- A value that is an integer, however large. -/
def Json.IsInteger (v : Json) : Prop := ∃ n, v = .ofInt n

/-- The integer that a value is. -/
def Json.asInt : Json → Int
  | .number (.int n) => n
  | _ => 0

/-- The mean of a measure over methods is within the range of machine numbers. -/
def MeanInRange (measure : Method → Json) (methods : List Method) : Prop :=
  (wholeSum (methods.map fun m => (measure m).asInt)).natAbs < Number.machineBound * methods.length

theorem Json.IsWhole.isInteger {v : Json} (h : v.IsWhole) : v.IsInteger := by
  obtain ⟨n, rfl, -⟩ := h
  exact ⟨n, rfl⟩

/-- Measures within the range have a mean within it. -/
theorem meanInRange_of_isWhole {measure : Method → Json} {methods : List Method}
    (hne : methods ≠ [])
    (h : ∀ m ∈ methods, (measure m).IsWhole) : MeanInRange measure methods := by
  have hall : ∀ n ∈ methods.map (fun m => (measure m).asInt), n.natAbs < Number.machineBound := by
    intro n hn
    obtain ⟨m, hm, rfl⟩ := List.mem_map.1 hn
    obtain ⟨k, hk, hrange⟩ := h m hm
    rw [hk]
    exact hrange
  have hlt := natAbs_wholeSum_lt hall (by rwa [ne_eq, List.map_eq_nil_iff])
  rwa [List.length_map] at hlt

section Mean

variable {measure : Method → Json} {methods : List Method} (hne : methods ≠ [])
  (hint : ∀ m ∈ methods, (measure m).IsInteger)

include hne hint

/-- A mean of integers is one quotient: the exact sum by the number of methods. -/
theorem mean_measured :
    mean (methods.map fun m => measured (measure m)) =
      Json.div (.ofInt (wholeSum (methods.map fun m => (measure m).asInt)))
        (.ofInt methods.length) := by
  have hvalues : methods.map (fun m => (measured (measure m) : Except Failure Json)) =
      (methods.map fun m => (measure m).asInt).map fun n => pure (.ofInt n) := by
    rw [List.map_map]
    refine List.map_congr_left ?_
    intro m hm
    obtain ⟨n, hn⟩ := hint m hm
    rw [Function.comp_apply, hn]
    rfl
  rw [hvalues, mean_ofInt (by rwa [ne_eq, List.map_eq_nil_iff]), List.length_map]

/-- So it computes exactly when that quotient is within the range. -/
theorem computes_mean_measured (hrange : MeanInRange measure methods) :
    Computes (mean (methods.map fun m => measured (measure m))) := by
  have hpos := List.length_pos_iff.2 hne
  rw [mean_measured hne hint]
  exact Json.gives_div_ofInt (by omega) (by rwa [Int.natAbs_natCast])

/-- And fails for this reason when it is not. -/
theorem mean_measured_out (hrange : ¬MeanInRange measure methods) :
    mean (methods.map fun m => (measured (measure m) : Except Failure Json)) =
      .error .quotientRange := by
  have hpos := List.length_pos_iff.2 hne
  rw [mean_measured hne hint]
  exact Json.div_ofInt_out (by omega) (by rwa [Int.natAbs_natCast])

end Mean

/-- A path of at least one method whose complexities and lengths are integers. -/
structure CallPath.Measured (p : CallPath) : Prop where
  ne_nil : p.methods ≠ []
  complexity : ∀ m ∈ p.methods, m.complexity.toJson.IsInteger
  linesOfCode : ∀ m ∈ p.methods, m.linesOfCode.IsInteger

/-- The mean complexity and the mean length of the methods of a path are within the range of machine
    numbers. -/
def CallPath.InRange (p : CallPath) : Prop :=
  MeanInRange (·.complexity.toJson) p.methods ∧ MeanInRange (·.linesOfCode) p.methods

/-- The scores of an analysed path are machine numbers. -/
structure Analyzed.IsMachine (p : Analyzed Json) : Prop where
  intent : p.intent.IsMachine
  risk : p.risk.IsMachine
  confidence : p.confidence.IsMachine

theorem Signal.computes_testCoverage (p : CallPath) : Computes (Signal.testCoverage p) :=
  computes_share List.countP_le_length

/-! ## Counts that fail -/

/-- When a condition fails in one and the same way outside a range, counting the elements that
    satisfy it fails in that way unless all are within the range. -/
theorem Condition.count_error {β : Type} {p : β → Except Failure Bool} {cause : Failure}
    {xs : List β}
    (inRange : β → Prop) (hin : ∀ x ∈ xs, inRange x → Decides (p x))
    (hout : ∀ x ∈ xs, ¬inRange x → p x = .error cause) (h : ¬∀ x ∈ xs, inRange x) :
    count p xs = .error cause := by
  -- the elements before the first one outside the range are decided and do not matter
  have hselect : select p xs = .error cause := by
    induction xs with
    | nil => exact absurd (by simp) h
    | cons x xs ih =>
      by_cases hx : inRange x
      · obtain ⟨holds, hholds, -⟩ := hin x List.mem_cons_self hx
        have hrest := ih (fun y hy => hin y (List.mem_cons_of_mem x hy))
          (fun y hy => hout y (List.mem_cons_of_mem x hy))
          fun hall => h (List.forall_mem_cons.2 ⟨hx, hall⟩)
        rw [select, hholds, hrest]
        rfl
      · rw [select, hout x List.mem_cons_self hx]
        rfl
  rw [count, hselect]
  rfl

namespace Report

/-! ## Sections that are always written -/

section Means

variable {paths : List (Analyzed Json)} (hlength : paths.length < Number.machineBound)

include hlength

/-- Means of scores are means of machine numbers. -/
theorem computes_meanScore {score : Analyzed Json → Json} (h : ∀ p ∈ paths, (score p).IsMachine) :
    Computes (meanScore score paths) :=
  computes_mean_map (fun p hp => computes_pure (h p hp)) hlength

theorem computes_meanCoverage : Computes (meanCoverage paths) :=
  computes_mean_map (fun p _ => Signal.computes_testCoverage p.path) hlength

/-- Percentages can be written for any mean coverage. -/
theorem gives_coverageFinding : Gives (fun _ => True) (coverageFinding paths) := by
  unfold coverageFinding
  split
  · exact .pure trivial
  · refine (computes_meanCoverage hlength).bind ?_
    rintro _ ⟨x, rfl⟩
    exact .pure trivial

theorem gives_measure (h : ∀ p ∈ paths, p.IsMachine) : Gives (fun _ => True) (measure paths) := by
  have hfour : 4 < Number.machineBound := Number.lt_machineBound (by decide)
  unfold measure
  split
  · exact .pure trivial
  · refine (computes_meanScore hlength fun p hp => (h p hp).intent.quality).bind
      fun _ hquality => ?_
    refine (computes_sub computes_one (computes_meanScore hlength fun p hp =>
      (h p hp).risk.architectural)).bind fun _ hhealth => ?_
    refine (computes_meanCoverage hlength).bind fun _ hmaturity => ?_
    refine (computes_meanScore hlength fun p hp => (h p hp).intent.business).bind
      fun _ hbusiness => ?_
    have hoverall := computes_mean (List.forall_mem_cons.2 ⟨computes_pure hquality,
      List.forall_mem_cons.2 ⟨computes_pure hhealth,
      List.forall_mem_cons.2 ⟨computes_pure hmaturity,
        List.forall_mem_singleton.2 (computes_pure hbusiness)⟩⟩⟩) (by simpa using hfour)
    exact hoverall.bind fun _ _ => .pure trivial

end Means

/-- The largest of some machine numbers is written. -/
theorem gives_topFinding (text : String) {write : Json → Except Failure String}
    (hwrite : ∀ x, Gives (fun _ => True) (write (.ofFloat x))) {scores : List Json}
    (h : ∀ v ∈ scores, v.IsMachine) : Gives (fun _ => True) (topFinding text write scores) := by
  cases scores with
  | nil => exact .pure trivial
  | cons v rest =>
    have hlargest := gives_largest (fun _ hv => Json.IsMachine.isNumber hv) (h v List.mem_cons_self)
      (fun w hw => h w (List.mem_cons_of_mem v hw))
    refine hlargest.bind ?_
    rintro _ ⟨x, rfl⟩
    exact (hwrite x).bind fun _ _ => .pure trivial

section Sections

variable {golden risk neutral : List (Analyzed Json)}
  (h : ∀ p ∈ golden ++ risk ++ neutral, p.IsMachine)
  (hlength : (golden ++ risk ++ neutral).length < Number.machineBound)

include h hlength

/-- The summary has counts and mean scores, none of which look at measures. -/
theorem gives_summarize : Gives (fun _ => True) (summarize golden risk neutral) := by
  have hgolden : golden.length ≤ (golden ++ risk ++ neutral).length := by
    rw [List.length_append, List.length_append]
    omega
  have hrisk : risk.length ≤ (golden ++ risk ++ neutral).length := by
    rw [List.length_append, List.length_append]
    omega
  refine (computes_share hgolden).bind fun _ _ => ?_
  refine (computes_share hrisk).bind fun _ _ => ?_
  refine (computes_meanScore hlength fun p hp => (h p hp).intent.total).bind fun _ _ => ?_
  refine (computes_meanScore hlength fun p hp => (h p hp).risk.total).bind fun _ _ => ?_
  refine (computes_meanScore hlength fun p hp => (h p hp).confidence).bind fun _ _ => ?_
  exact .pure trivial

/-- Neither do the findings. -/
theorem gives_findings : Gives (fun _ => True) (findings golden risk neutral) := by
  have hgolden : ∀ v ∈ golden.map (·.intent.business), v.IsMachine := by
    intro v hv
    obtain ⟨p, hp, rfl⟩ := List.mem_map.1 hv
    exact (h p (List.mem_append_left _ (List.mem_append_left _ hp))).intent.business
  have hrisk : ∀ v ∈ risk.map (·.risk.total), v.IsMachine := by
    intro v hv
    obtain ⟨p, hp, rfl⟩ := List.mem_map.1 hv
    exact (h p (List.mem_append_left _ (List.mem_append_right _ hp))).risk.total
  refine (gives_topFinding _ (fun _ => .pure trivial) hgolden).bind fun _ _ => ?_
  refine (gives_topFinding _ (fun _ => .pure trivial) hrisk).bind fun _ _ => ?_
  exact (gives_coverageFinding hlength).bind fun _ _ => .pure trivial

omit h hlength in
theorem gives_opportunities (golden : List (Analyzed Json)) :
    Gives (fun _ => True) (opportunities golden) := by
  have htested : ∀ p ∈ golden, Decides (isWellTested p) := by
    intro p _
    exact decides_test .atLeast (Computes.isNumber (Signal.computes_testCoverage p.path))
      (isNumber_hundredths 80)
  exact (Condition.gives_count htested).bind fun _ _ => .pure trivial

end Sections

/-! ## Recommendations -/

section Recommendations

variable {limit : Json} (hlimit : limit.IsNumber) {p : Analyzed Json} (hp : p.path.Measured)

include hp

include hlimit in
/-- The one place of the report that looks at complexities. -/
theorem decides_isComplex (hrange : MeanInRange (·.complexity.toJson) p.path.methods) :
    Decides (isComplex limit p) :=
  decides_test .above (Computes.isNumber (computes_mean_measured hp.ne_nil hp.complexity hrange))
    (isNumber_pure hlimit)

/-- A mean complexity out of range stops the report, not just the recommendation. -/
theorem isComplex_out (limit : Json)
    (hrange : ¬MeanInRange (·.complexity.toJson) p.path.methods) :
    isComplex limit p = .error .quotientRange := by
  have hmean : (Signal.averageComplexity p.path : Except Failure Json) = .error .quotientRange :=
    mean_measured_out hp.ne_nil hp.complexity hrange
  rw [isComplex, test, hmean]
  rfl

/-- The same for lengths. -/
theorem decides_isLong (hrange : MeanInRange (·.linesOfCode) p.path.methods) : Decides (isLong p) :=
  decides_test .above (Computes.isNumber (computes_mean_measured hp.ne_nil hp.linesOfCode hrange))
    (isNumber_whole 50)

theorem isLong_out (hrange : ¬MeanInRange (·.linesOfCode) p.path.methods) :
    isLong p = .error .quotientRange := by
  have hmean : (Signal.averageLength p.path : Except Failure Json) = .error .quotientRange :=
    mean_measured_out hp.ne_nil hp.linesOfCode hrange
  rw [isLong, test, hmean]
  rfl

end Recommendations

section Generate

variable {t : Thresholds Json} (hlimit : (t .complexity).IsNumber)
  {golden risk neutral : List (Analyzed Json)}
  (h : ∀ p ∈ golden ++ risk ++ neutral, p.IsMachine)
  (hmeasured : ∀ p ∈ golden ++ risk ++ neutral, p.path.Measured)
  (hlength : (golden ++ risk ++ neutral).length < Number.machineBound)

include hlimit h hmeasured

/-- With all means within the range, every recommendation can be decided on. -/
theorem gives_recommend (hrange : ∀ p ∈ golden ++ risk ++ neutral, p.path.InRange) :
    Gives (fun _ => True) (recommend (t .complexity) golden risk neutral) := by
  have huntested : ∀ p ∈ risk, Decides (isUntested p) := by
    intro p _
    exact decides_test .below (Computes.isNumber (Signal.computes_testCoverage p.path))
      (isNumber_hundredths 50)
  have hpromotable : ∀ p ∈ neutral, Decides (isPromotable p) := by
    intro p hp
    have hp := h p (List.mem_append_right _ hp)
    exact Condition.decides_both
      (decides_test .atLeast (isNumber_pure hp.intent.total.isNumber) (isNumber_hundredths 40))
      (decides_test .atMost (isNumber_pure hp.risk.total.isNumber) (isNumber_hundredths 50))
  refine (Condition.gives_count fun p hp =>
    decides_isComplex hlimit (hmeasured p hp) (hrange p hp).1).bind fun _ _ => ?_
  refine (Condition.gives_count fun p hp =>
    decides_isLong (hmeasured p hp) (hrange p hp).2).bind fun _ _ => ?_
  refine (Condition.gives_count huntested).bind fun _ _ => ?_
  exact (Condition.gives_count hpromotable).bind fun _ _ => .pure trivial

omit h in
/-- With one of them out of range there are no recommendations at all. -/
theorem recommend_out (hrange : ¬∀ p ∈ golden ++ risk ++ neutral, p.path.InRange) :
    recommend (t .complexity) golden risk neutral = .error .quotientRange := by
  by_cases hcomplexity : ∀ p ∈ golden ++ risk ++ neutral,
      MeanInRange (·.complexity.toJson) p.path.methods
  · -- the complexities are all right, so some path is too long
    obtain ⟨holds, hholds, -⟩ := Condition.gives_count fun p hp =>
      decides_isComplex hlimit (hmeasured p hp) (hcomplexity p hp)
    have hlong : Condition.count isLong (golden ++ risk ++ neutral) = .error .quotientRange := by
      refine Condition.count_error (fun p => MeanInRange (·.linesOfCode) p.path.methods)
        (fun p hp => decides_isLong (hmeasured p hp)) (fun p hp => isLong_out (hmeasured p hp)) ?_
      intro hlines
      exact hrange fun p hp => ⟨hcomplexity p hp, hlines p hp⟩
    unfold recommend
    dsimp only
    rw [hholds, hlong]
    rfl
  · -- the complexities are counted first, so their failure is the one that shows
    have hcomplex : Condition.count (isComplex (t .complexity)) (golden ++ risk ++ neutral) =
        .error .quotientRange :=
      Condition.count_error _ (fun p hp => decides_isComplex hlimit (hmeasured p hp))
        (fun p hp => isComplex_out (hmeasured p hp) _) hcomplexity
    unfold recommend
    dsimp only
    rw [hcomplex]
    rfl

include hlength

/-- The report is written when the means of all paths are within the range. -/
theorem gives_generate (hrange : ∀ p ∈ golden ++ risk ++ neutral, p.path.InRange) :
    Gives (fun _ => True) (generate t golden risk neutral) := by
  refine (gives_summarize h hlength).bind fun _ _ => ?_
  refine (gives_findings h hlength).bind fun _ _ => ?_
  refine (gives_recommend hlimit h hmeasured hrange).bind fun _ _ => ?_
  refine (gives_opportunities golden).bind fun _ _ => ?_
  exact (gives_measure hlength h).bind fun _ _ => .pure trivial

/-- A single mean beyond the range keeps the report from being written. -/
theorem generate_out (hrange : ¬∀ p ∈ golden ++ risk ++ neutral, p.path.InRange) :
    generate t golden risk neutral = .error .quotientRange := by
  obtain ⟨summary, hsummary, -⟩ := gives_summarize h hlength
  obtain ⟨found, hfound, -⟩ := gives_findings h hlength
  unfold generate
  dsimp only
  rw [hsummary, hfound, recommend_out hlimit hmeasured hrange]
  rfl

end Generate

end Report
end PathTriage
