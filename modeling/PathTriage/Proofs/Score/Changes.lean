import PathTriage.Proofs.Score.Weights
import PathTriage.Verdict

/-!
Changes off the path.

The risk of a path is computed twice, under two collections of changed ids that agree on the methods
of the path. What is found is the same both times, and so is the verdict that follows from it: an
observer who does not look at the confidence cannot tell the two runs apart, whether they give a
result or fail. The confidence counts all changed ids, on the path or not.
-/

namespace PathTriage

open Outcome Scalar

/-! ## Changed methods -/

/-- Two collections of ids that have the same members among the methods of a path. -/
def CallPath.AgreeOn (p : CallPath) (changed changed' : List String) : Prop :=
  ∀ id ∈ p.methodIds, id ∈ changed ↔ id ∈ changed'

instance CallPath.instDecidableAgreeOn (p : CallPath) (changed changed' : List String) :
    Decidable (p.AgreeOn changed changed') :=
  inferInstanceAs (Decidable (∀ id ∈ p.methodIds, id ∈ changed ↔ id ∈ changed'))

namespace Risk

/-- Which methods count as changed is a matter of membership, not of order or repetition. -/
theorem changedOn_congr {changed changed' : List String} {methods : List Method}
    (h : ∀ m ∈ methods, m.id ∈ changed ↔ m.id ∈ changed') :
    ∀ seen, changedOn changed seen methods = changedOn changed' seen methods := by
  induction methods with
  | nil =>
    intro seen
    rfl
  | cons m methods ih =>
    intro seen
    have hm : changed.contains m.id = changed'.contains m.id := by
      rw [Bool.eq_iff_iff, List.contains_iff_mem, List.contains_iff_mem]
      exact h m List.mem_cons_self
    have hrest := ih fun m' hm' => h m' (List.mem_cons_of_mem m hm')
    rw [changedOn, changedOn, hm, hrest, hrest]

theorem changedOn_eq_of_agreeOn {p : CallPath} {changed changed' : List String}
    (h : p.AgreeOn changed changed') :
    changedOn changed [] p.methods = changedOn changed' [] p.methods :=
  changedOn_congr (fun _ hm => h _ (List.mem_map_of_mem hm)) []

/-- Changes elsewhere leave no changed method on the path. -/
theorem changedOn_eq_nil {p : CallPath} {changed : List String}
    (h : ∀ id ∈ p.methodIds, id ∉ changed) :
    changedOn changed [] p.methods = [] := by
  rw [List.eq_nil_iff_forall_not_mem]
  intro m hm
  obtain ⟨hon, hchanged⟩ := mem_changedOn hm
  exact h m.id (List.mem_map_of_mem hon) hchanged

/-! ## Confidence -/

theorem settles_capped_quotient (part total : Nat) :
    Settles (fun _ => True) Json.IsMachine (capped (quotient part total)) :=
  have hquotient (v : Json) (h : Json.div (.ofInt part) (.ofInt total) = .ok v) : v.IsMachine :=
    Json.isMachine_of_div h
  settles_atMost computes_one ⟨hquotient, fun _ _ => trivial⟩

/-- The number of changed ids has a say in the confidence, but not in whether there is one. -/
theorem reason?_confidence (methods : List Method) {n n' : Nat} (hn : n < Number.machineBound * 5)
    (hn' : n' < Number.machineBound * 5) :
    reason? (confidence methods n : Except Failure Json) =
      reason? (confidence methods n' : Except Failure Json) := by
  have hterms (k : Nat) : ∀ x ∈ ([capped (quotient methods.length 10), capped (quotient k 5),
      meanOf (fun m => m.isTested && !m.annotations.isEmpty) (hundredths 50) methods] :
        List (Except Failure Json)), Settles (fun _ => True) Json.IsMachine x := by
    simp only [List.forall_mem_cons]
    refine ⟨settles_capped_quotient _ 10, settles_capped_quotient k 5, ?_, nofun⟩
    exact ⟨fun _ h => isMachine_of_mean h, fun _ _ => trivial⟩
  have hcount {k : Nat} (hk : k < Number.machineBound * 5) :
      reason? (capped (quotient k 5) : Except Failure Json) = none := by
    obtain ⟨v, hv, -⟩ := computes_capped (computes_quotient (by decide) hk)
    exact reason?_eq_none.2 ⟨v, hv⟩
  have hthree : 3 < Number.machineBound := Number.lt_machineBound (by decide)
  unfold confidence
  rw [reason?_mean (hterms n) hthree, reason?_mean (hterms n') hthree]
  -- the terms for the length and the tests may fail, but do so in both runs
  apply reason?_mapM
  exact .cons rfl (.cons ((hcount hn).trans (hcount hn').symm) (.cons rfl .nil))

end Risk

/-! ## Findings -/

/-- What is found about the risk of a path: all but the confidence. -/
def RiskWeight.findings {α : Type} (w : RiskWeight α) : RiskScores α × Level × RiskDetails :=
  (w.toRiskScores, w.level, w.details)

namespace Risk

/-- The size of a change goes into the confidence only, so the findings are the same for two sizes
    that both have a confidence. -/
theorem findings_complete (s : RiskScores Json) (p : CallPath) (onPath : List Method) {n n' : Nat}
    (hn : n < Number.machineBound * 5) (hn' : n' < Number.machineBound * 5) :
    (complete s p onPath n).map RiskWeight.findings =
      (complete s p onPath n').map RiskWeight.findings := by
  have hreason := reason?_confidence p.methods hn hn'
  unfold complete
  refine map_bind_congr fun level => ?_
  -- nothing after the confidence looks at it, and the view leaves it out
  refine map_bind_of_reason hreason fun c c' => ?_
  refine map_bind_congr fun violations => ?_
  exact map_bind_congr fun details => rfl

/-- Changes that agree on the path give the same findings. -/
theorem findings_weigh (known : String → String → Bool) {p : CallPath}
    {changed changed' : List String}
    (hagree : p.AgreeOn changed changed')
    (hsize : changed.eraseDups.length < Number.machineBound * 5)
    (hsize' : changed'.eraseDups.length < Number.machineBound * 5) :
    (weigh known p changed : Except Failure (RiskWeight Json)).map RiskWeight.findings =
      (weigh known p changed' : Except Failure (RiskWeight Json)).map RiskWeight.findings := by
  unfold weigh
  rw [changedOn_eq_of_agreeOn hagree]
  exact map_bind_congr fun s => findings_complete s p _ hsize hsize'

/-! ## No changes on the path -/

/-- Without changed methods the two scores of a change are zero, and the others are as before. -/
theorem settles_scores_nil (known : String → String → Bool) (p : CallPath) :
    Settles (fun _ => True) (fun s : RiskScores Json => s.blastRadius = .ofFloat 0 ∧
      s.changeComplexity = .ofFloat 0) (scores known p []) := by
  have hzero : Settles (fun _ => True) (· = Json.ofFloat 0) (zero : Except Failure Json) := by
    refine .pure ?_
    with_unfolding_all rfl
  have hblast :
      Settles (fun _ => True) (· = Json.ofFloat 0) (blastRadius [] : Except Failure Json) := hzero
  have hcomplexity : Settles (fun _ => True) (· = Json.ofFloat 0)
      (changeComplexity [] p.methods.length : Except Failure Json) := hzero
  unfold scores
  refine .bind_any fun architectural => ?_
  refine hblast.bind fun blastRadius hblast => ?_
  refine hcomplexity.bind fun changeComplexity hcomplexity => ?_
  refine .bind_any fun dataFlow => ?_
  refine .bind_any fun total => ?_
  exact .pure ⟨hblast, hcomplexity⟩

/-- And no component is impacted. -/
theorem settles_details_nil (violations : Json) (methods : List Method) :
    Settles (fun _ => True) (fun d : RiskDetails => d.impactedComponents = [])
      (details violations methods []) := by
  unfold details
  refine .bind_any fun critical => ?_
  refine .bind_any fun someComplex => ?_
  refine .bind_any fun someFanIn => ?_
  refine .bind_any fun crossed => ?_
  refine .bind_any fun complex => ?_
  refine .bind_any fun untested => ?_
  exact .pure rfl

theorem settles_weigh_nil (known : String → String → Bool) {p : CallPath} {changed : List String}
    (hoff : ∀ id ∈ p.methodIds, id ∉ changed) :
    Settles (fun _ => True)
      (fun w : RiskWeight Json => w.blastRadius = .ofFloat 0 ∧
        w.changeComplexity = .ofFloat 0 ∧ w.details.impactedComponents = [])
      (weigh known p changed) := by
  unfold weigh complete
  rw [changedOn_eq_nil hoff]
  refine (settles_scores_nil known p).bind fun s hs => ?_
  refine .bind_any fun level => ?_
  refine .bind_any fun confidence => ?_
  refine .bind_any fun violations => ?_
  refine (settles_details_nil violations p.methods).bind fun d hd => ?_
  exact .pure ⟨hs.1, hs.2, hd⟩

end Risk

/-! ## Verdicts -/

namespace Verdict

/-- Verdicts look at the scores of a risk only. -/
theorem classify_of_findings (t : Thresholds Json) (p : CallPath) (intent : IntentWeight Json)
    (w w' : RiskWeight Json) (h : w.findings = w'.findings) :
    classify t p intent w = classify t p intent w' := by
  obtain ⟨s, level, confidence, details⟩ := w
  obtain ⟨s', level', confidence', details'⟩ := w'
  obtain rfl : s = s' := congrArg Prod.fst h
  rfl

/-- The priority is made of scores. -/
theorem priority_of_findings (intent : IntentWeight Json) (w w' : RiskWeight Json)
    (h : w.findings = w'.findings) : priority intent w = priority intent w' := by
  obtain ⟨s, level, confidence, details⟩ := w
  obtain ⟨s', level', confidence', details'⟩ := w'
  obtain rfl : s = s' := congrArg Prod.fst h
  rfl

end Verdict

/-- **Changes off the path do not matter.** Take two collections of changed ids that agree on the
    methods of a path. If they are equally large, the risk of the path is the same under both. In
    any case, as long as their sizes are within the range of quotients, what is found about the risk
    is the same, and so are the class of the path and the priority of a review, whatever the intent
    and the thresholds are; where one run fails, so does the other, for the same reason. If no
    method of the path has changed, blast radius and change complexity are exactly zero and no
    component is impacted. -/
theorem verdict_ignores_changes_off_path (known : String → String → Bool) {p : CallPath}
    {changed changed' : List String} (hagree : p.AgreeOn changed changed') :
    let run : Except Failure (RiskWeight Json) := Risk.weigh known p changed
    let run' : Except Failure (RiskWeight Json) := Risk.weigh known p changed'
    (changed.eraseDups.length = changed'.eraseDups.length → run = run') ∧
    (changed.eraseDups.length < Number.machineBound * 5 →
      changed'.eraseDups.length < Number.machineBound * 5 →
        run.map RiskWeight.findings = run'.map RiskWeight.findings ∧
        ∀ (t : Thresholds Json) (intent : IntentWeight Json),
          (run >>= fun risk => Verdict.classify t p intent risk) =
            (run' >>= fun risk => Verdict.classify t p intent risk) ∧
          (run >>= fun risk => Verdict.priority intent risk) =
            (run' >>= fun risk => Verdict.priority intent risk)) ∧
    ((∀ id ∈ p.methodIds, id ∉ changed) → ∀ risk, run = .ok risk →
      risk.blastRadius = .ofFloat 0 ∧ risk.changeComplexity = .ofFloat 0 ∧
        risk.details.impactedComponents = []) := by
  intro run run'
  refine ⟨?_, ?_, ?_⟩
  · intro hsize
    change Risk.weigh known p changed = Risk.weigh known p changed'
    unfold Risk.weigh
    rw [Risk.changedOn_eq_of_agreeOn hagree, hsize]
  · intro hsize hsize'
    have hfindings := Risk.findings_weigh known hagree hsize hsize'
    refine ⟨hfindings, fun t intent => ⟨?_, ?_⟩⟩
    · exact bind_eq_of_map_eq hfindings (Verdict.classify_of_findings t p intent)
    · exact bind_eq_of_map_eq hfindings (Verdict.priority_of_findings intent)
  · intro hoff risk hrisk
    exact (Risk.settles_weigh_nil known hoff).result risk hrisk

/-- A path that comes back to where it started. -/
def roundTrip : CallPath where
  id := "p"
  methods := [{ id := "a", name := "a" }, { id := "b", name := "b" }, { id := "a", name := "a" }]
  slots := [none, none]
  slots_length := rfl

theorem roundTrip_fit : ∀ m ∈ roundTrip.methods, m.Fit := by
  have hfit (m : Method) (hcomplexity : m.complexity.toJson = .ofInt 1)
      (hin : m.inDegree = .ofInt 0)
      (hout : m.outDegree = .ofInt 0) (hsignature : m.signature.memberFailure? = none) : m.Fit := by
    have hbound : 1 < Number.machineBound := Number.lt_machineBound (by decide)
    exact ⟨⟨1, hcomplexity, hbound⟩, ⟨0, hin, by omega⟩, ⟨0, hout, by omega⟩, hsignature⟩
  simp only [roundTrip, List.forall_mem_cons]
  exact ⟨hfit _ rfl rfl rfl rfl, hfit _ rfl rfl rfl rfl, hfit _ rfl rfl rfl rfl, nofun⟩

/-- A change on the path and others off it, as many or more; and no change on the path. -/
theorem verdict_ignores_changes_off_path_roundTrip :
    (roundTrip.AgreeOn ["b", "x"] ["y", "b", "y"] ∧
      (Risk.weigh (fun _ _ => false) roundTrip ["b", "x"] : Except Failure (RiskWeight Json)) =
        Risk.weigh (fun _ _ => false) roundTrip ["y", "b", "y"]) ∧
    (roundTrip.AgreeOn ["b"] ["x", "b", "y"] ∧
      (Risk.weigh (fun _ _ => false) roundTrip ["b"] :
          Except Failure (RiskWeight Json)).map RiskWeight.findings =
        (Risk.weigh (fun _ _ => false) roundTrip ["x", "b", "y"] :
          Except Failure (RiskWeight Json)).map RiskWeight.findings) ∧
    (roundTrip.AgreeOn ["x"] [] ∧ ∃ risk : RiskWeight Json,
      (Risk.weigh (fun _ _ => false) roundTrip ["x"] :
        Except Failure (RiskWeight Json)) = .ok risk ∧
        risk.blastRadius = .ofFloat 0 ∧ risk.changeComplexity = .ofFloat 0 ∧
        risk.details.impactedComponents = []) := by
  have hbound : 1 < Number.machineBound := Number.lt_machineBound (by decide)
  have hsame : roundTrip.AgreeOn ["b", "x"] ["y", "b", "y"] := by decide
  have hmore : roundTrip.AgreeOn ["b"] ["x", "b", "y"] := by decide
  have hnone : roundTrip.AgreeOn ["x"] [] := by decide
  have hoff : ∀ id ∈ roundTrip.methodIds, id ∉ ["x"] := by decide
  have hgives : Gives RiskWeight.IsMachine (Risk.weigh (fun _ _ => false) roundTrip ["x"]) :=
    Risk.gives_weigh roundTrip_fit (by decide)
      (fun m hm hchanged => absurd hchanged (hoff m.id (List.mem_map_of_mem hm))) hbound _
  obtain ⟨risk, hrisk, -⟩ := hgives
  refine ⟨⟨hsame, ?_⟩, ⟨hmore, ?_⟩, ⟨hnone, risk, hrisk, ?_⟩⟩
  · exact (verdict_ignores_changes_off_path (fun _ _ => false) hsame).1 (by decide)
  · have hone : (["b"] : List String).eraseDups.length = 1 := by decide
    have hthree : (["x", "b", "y"] : List String).eraseDups.length = 3 := by decide
    exact ((verdict_ignores_changes_off_path (fun _ _ => false) hmore).2.1 (by omega) (by omega)).1
  · exact (verdict_ignores_changes_off_path (fun _ _ => false) hnone).2.2 hoff risk hrisk

end PathTriage
