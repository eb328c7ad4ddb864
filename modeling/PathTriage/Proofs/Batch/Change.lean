import PathTriage.Proofs.Batch.Partition
import PathTriage.Proofs.Discovery
import PathTriage.Proofs.Score.Scored

/-!
The analysis of a change in a store that can be reached.

Discovery finds at least one path for a change with a stored method, so the batch is never invalid.
Every stored method carries degrees that were counted, whatever the degrees it was put in with, so
it is fit for scoring as soon as its measures are within the range of machine numbers. Then all
tasks have scores, and the analysis has all paths that were discovered.
-/

namespace PathTriage

open Outcome Scalar

/-! ## Stored methods -/

namespace Store

variable {s : Store}

/-- What the stored methods and the sizes of a store need to be scored. Nothing is asked of
    degrees. -/
structure Scorable (s : Store) : Prop where
  complexity : ∀ {id m}, s.method? id = some m → m.complexity.toJson.IsWhole
  signature : ∀ {id m}, s.method? id = some m → m.signature.memberFailure? = none
  change : ∀ {id m}, s.method? id = some m → m.FitForChange
  methodCount : s.methods.size < pow2 63
  callCount : s.calls.size < Number.machineBound

/-- A stored method has counted degrees, not those that it came with. -/
theorem Valid.degrees (h : s.Valid) (hcalls : s.calls.size < Number.machineBound) {id : String}
    {m : Method} (hm : s.method? id = some m) : m.inDegree.IsCount ∧ m.outDegree.IsCount := by
  have hcounted := h.counted id m hm
  have hkeys : s.calls.keys.length = s.calls.size := Std.ExtTreeMap.length_keys
  have hcallers : s.callerCount m.id ≤ s.calls.keys.length := List.countP_le_length
  have hcallees : s.calleeCount m.id ≤ s.calls.keys.length := List.countP_le_length
  constructor
  · exact ⟨s.callerCount m.id, (congrArg Method.inDegree hcounted).symm, by omega⟩
  · exact ⟨s.calleeCount m.id, (congrArg Method.outDegree hcounted).symm, by omega⟩

theorem Valid.fit (h : s.Valid) (hs : s.Scorable) {id : String} {m : Method}
    (hm : s.method? id = some m) : m.Fit := by
  obtain ⟨hin, hout⟩ := h.degrees hs.callCount hm
  exact ⟨hs.complexity hm, hin, hout, hs.signature hm⟩

/-- Distinct stored methods are no more than the store holds. -/
theorem length_le_of_passable {route : List String} (h : Discovery.Passable s route) :
    route.length ≤ s.methods.size := by
  have hsub : route ⊆ s.methods.keys := by
    intro id hid
    rw [Std.ExtTreeMap.mem_keys]
    exact h.stored id hid
  have hle := (List.subperm_of_subset h.nodup hsub).length_le
  rwa [Std.ExtTreeMap.length_keys] at hle

theorem mem_methodsWith {ids : List String} {m : Method} (hm : m ∈ s.methodsWith ids) :
    ∃ id, s.method? id = some m := by
  obtain ⟨id, -, hid⟩ := List.mem_filterMap.1 hm
  exact ⟨id, hid⟩

end Store

namespace Discovery

variable {s : Store}

theorem mem_pathsOver {routes : List (List String)} {p : CallPath} (hp : p ∈ pathsOver s routes) :
    ∃ route ∈ routes, p.methods = s.methodsWith route := by
  obtain ⟨i, hi, rfl⟩ := List.mem_mapIdx.1 hp
  exact ⟨_, List.getElem_mem hi, rfl⟩

/-- A path over distinct stored methods has one method for each. -/
theorem length_methods {route : List String} (hs : s.Integral) (h : Passable s route) :
    (s.methodsWith route).length = route.length := by
  -- the name of the path is of no account
  have hids := congrArg List.length (methodIds_pathAlong hs "" h.stored)
  rwa [CallPath.methodIds, List.length_map] at hids

end Discovery

namespace Batch

theorem check_eq_ok {paths : List CallPath} (hne : paths ≠ [])
    (hmethods : ∀ p ∈ paths, p.methods ≠ []) : check paths = .ok () := by
  have hnone : (paths.find? fun p => p.methods.isEmpty) = none := by
    rw [List.find?_eq_none]
    intro p hp hempty
    exact hmethods p hp (List.isEmpty_iff.1 hempty)
  rw [check, if_neg (fun hempty => hne (List.isEmpty_iff.1 hempty)), hnone]

/-- A batch is refused because it is empty or has a path without methods. -/
def Refused (r : Run) : Prop :=
  r.answer = .error .empty ∨ ∃ id, r.answer = .error (.withoutMethods id)

/-- Once a batch is checked, it is not refused any more. -/
theorem not_refused_run {paths : List CallPath} (hcheck : check paths = .ok ()) (plan : Plan)
    (known : String → String → Bool) (context : ChangeContext) (course : Course) :
    ¬Refused (run plan known context course paths) := by
  -- all that can go wrong from here on is a computation
  have hfailed : ∀ e, (run plan known context course paths).answer = .error e →
      ∃ cause, e = .failed cause := by
    intro e he
    rw [run, hcheck] at he
    dsimp only at he
    split at he
    · cases he
      exact ⟨_, rfl⟩
    split at he
    · cases he
      exact ⟨_, rfl⟩
    · unfold conclude at he
      dsimp only at he
      split at he
      · cases he
        exact ⟨_, rfl⟩
      · next ranked _ =>
        cases hreport : withReport plan.thresholds ranked with
        | error cause =>
          rw [hreport] at he
          cases he
          exact ⟨cause, rfl⟩
        | ok a =>
          rw [hreport] at he
          cases he
  rintro (hempty | ⟨id, hmissing⟩)
  · obtain ⟨cause, hcause⟩ := hfailed _ hempty
    cases hcause
  · obtain ⟨cause, hcause⟩ := hfailed _ hmissing
    cases hcause

/-! ## Discovered paths -/

/-- What a run over discovered paths needs beyond a store that can be reached. -/
structure Feasible (plan : Plan) (s : Store) (context : ChangeContext) (paths : List CallPath) :
    Prop where
  thresholds : ∀ name, (plan.thresholds name).IsNumber
  workers : plan.workers.IsNumber
  store : s.Scorable
  commitCount : context.commits.length < Number.machineBound
  changeCount : context.changed.length < Number.machineBound
  pathCount : paths.length < Number.machineBound

theorem map_path_score (known : String → String → Bool) (context : ChangeContext)
    (interrupt : TaskKind → String → Option Interruption) (paths : List CallPath) :
    (paths.map (score known context interrupt)).map (·.path) = paths := by
  rw [List.map_map]
  exact List.map_id _

/-- The score of a task is a result of its computation. -/
theorem scored_of_settles {β : Type} {P : β → Prop} {c : Except Failure β}
    {interruption : Option Interruption} {w : β} (h : Outcome.Settles (fun _ => True) P c)
    (hw : outcome interruption c = .scored w) : P w := by
  unfold outcome at hw
  split at hw
  · cases hw
  · cases hw
  · split at hw
    · cases hw
      exact h.result w rfl
    · cases hw

section Discovered

variable {s : Store} {routes : List (List String)} (hs : s.Valid)
  (hroutes : ∀ route ∈ routes, Discovery.Passable s route)

include hs hroutes

theorem methods_of_discovered {p : CallPath} (hp : p ∈ Discovery.pathsOver s routes) :
    p.methods ≠ [] ∧ p.methods.length ≤ s.methods.size ∧
      ∀ m ∈ p.methods, ∃ id, s.method? id = some m := by
  obtain ⟨route, hroute, hmethods⟩ := Discovery.mem_pathsOver hp
  have hpassable := hroutes route hroute
  have hlength := Discovery.length_methods hs.integral hpassable
  rw [hmethods]
  refine ⟨?_, ?_, ?_⟩
  · rw [← List.length_pos_iff, hlength, List.length_pos_iff]
    exact hpassable.ne_nil
  · rw [hlength]
    exact Store.length_le_of_passable hpassable
  · intro m hm
    exact Store.mem_methodsWith hm

theorem check_discovered (hne : routes ≠ []) : check (Discovery.pathsOver s routes) = .ok () := by
  refine check_eq_ok ?_ fun p hp => (methods_of_discovered hs hroutes hp).1
  rw [← List.length_pos_iff, Discovery.length_pathsOver, List.length_pos_iff]
  exact hne

/-- Paths through methods that are within the range are within it. -/
theorem inRange_discovered (hrange : ∀ id m, s.method? id = some m →
      m.complexity.toJson.IsWhole ∧ m.linesOfCode.IsWhole)
    {p : CallPath} (hp : p ∈ Discovery.pathsOver s routes) : p.InRange := by
  obtain ⟨hne, -, hstored⟩ := methods_of_discovered hs hroutes hp
  have hwhole : ∀ m ∈ p.methods, m.complexity.toJson.IsWhole ∧ m.linesOfCode.IsWhole := by
    intro m hm
    obtain ⟨id, hid⟩ := hstored m hm
    exact hrange id m hid
  exact ⟨meanInRange_of_isWhole hne fun m hm => (hwhole m hm).1,
    meanInRange_of_isWhole hne fun m hm => (hwhole m hm).2⟩

/-- Whatever becomes of the tasks, the batch of discovered paths is fit to be concluded. -/
theorem fit_discovered (hint : ∀ id m, s.method? id = some m →
      m.complexity.toJson.IsInteger ∧ m.linesOfCode.IsInteger)
    (hsize : s.methods.size < pow2 63)
    (hcount : (Discovery.pathsOver s routes).length < Number.machineBound) {t : Thresholds Json}
    (ht : ∀ name, (t name).IsNumber) (context : ChangeContext)
    (interrupt : TaskKind → String → Option Interruption) :
    Fit t ((Discovery.pathsOver s routes).map (score s.hasCall context interrupt)) := by
  have hmethod : ∀ x ∈ (Discovery.pathsOver s routes).map (score s.hasCall context interrupt),
      ∀ m ∈ x.path.methods, m.complexity.toJson.IsInteger ∧ m.linesOfCode.IsInteger := by
    intro x hx m hm
    obtain ⟨p, hp, rfl⟩ := List.mem_map.1 hx
    obtain ⟨id, hid⟩ := (methods_of_discovered hs hroutes hp).2.2 m hm
    exact hint id m hid
  refine ⟨ht, by rwa [List.length_map], ?_, ?_, ?_, ?_, ?_⟩
  · intro x hx
    obtain ⟨p, hp, rfl⟩ := List.mem_map.1 hx
    have hlength := (methods_of_discovered hs hroutes hp).2.1.trans_lt hsize
    exact Number.lt_machineBound (hlength.trans (pow2_lt (by decide)))
  · intro x hx w hw
    obtain ⟨p, -, rfl⟩ := List.mem_map.1 hx
    exact scored_of_settles (Intent.settles_weigh s.hasCall p context.commits) hw
  · intro x hx w hw
    obtain ⟨p, -, rfl⟩ := List.mem_map.1 hx
    exact scored_of_settles (Risk.settles_weigh s.hasCall p context.changed) hw
  · intro x hx m hm
    exact (hmethod x hx m hm).1
  · intro x hx m hm
    exact (hmethod x hx m hm).2

variable {plan : Plan} {context : ChangeContext} {course : Course}
  (hfeasible : Feasible plan s context (Discovery.pathsOver s routes))
  (hnone : ∀ kind id, course.interrupt kind id = none)

include hfeasible hnone

/-- Both tasks of every discovered path have scores. -/
theorem score_discovered {p : CallPath} (hp : p ∈ Discovery.pathsOver s routes) :
    ∃ intent risk, intent.IsMachine ∧ risk.IsMachine ∧
      (score s.hasCall context course.interrupt p).intent = .scored intent ∧
      (score s.hasCall context course.interrupt p).risk = .scored risk := by
  obtain ⟨-, hlength, hstored⟩ := methods_of_discovered hs hroutes hp
  refine score_of_fit s.hasCall context course.interrupt ?_
    (hlength.trans_lt hfeasible.store.methodCount) ?_ hfeasible.commitCount hfeasible.changeCount
    fun kind => hnone kind p.id
  · intro m hm
    obtain ⟨id, hid⟩ := hstored m hm
    exact hs.fit hfeasible.store hid
  · intro m hm _
    obtain ⟨id, hid⟩ := hstored m hm
    exact hfeasible.store.change hid

/-- A run over discovered paths lists them all. -/
theorem run_discovered (hne : routes ≠ [])
    (hlimit : course.awaited = true → limitFailure? plan.timeout = none) :
    ∃ a, (run plan s.hasCall context course (Discovery.pathsOver s routes)).answer = .ok a ∧
      a.errors = [] ∧ a.skipped = [] ∧ a.incomplete = false ∧
      a.total = (Discovery.pathsOver s routes).length := by
  have hcheck := check_discovered hs hroutes hne
  have hrange : ∀ id m, s.method? id = some m →
      m.complexity.toJson.IsWhole ∧ m.linesOfCode.IsWhole := fun _ _ hm =>
    ⟨hfeasible.store.complexity hm, (hfeasible.store.change hm).linesOfCode⟩
  have hfit := fit_discovered hs hroutes
    (fun id m hm => ⟨(hrange id m hm).1.isInteger, (hrange id m hm).2.isInteger⟩)
    hfeasible.store.methodCount hfeasible.pathCount hfeasible.thresholds context course.interrupt
  have hboth : ∀ x ∈ (Discovery.pathsOver s routes).map (score s.hasCall context course.interrupt),
      x.bothScored = true := by
    intro x hx
    obtain ⟨p, hp, rfl⟩ := List.mem_map.1 hx
    obtain ⟨intent, risk, -, -, hintent, hrisk⟩ := score_discovered hs hroutes hfeasible hnone hp
    exact ScoredPath.bothScored_iff.2 ⟨intent, risk, hintent, hrisk⟩
  obtain ⟨a, ha, hpartition⟩ := conclude_of_inRange (by rwa [map_path_score]) hfit plan.timeout (by
    intro x hx _
    obtain ⟨p, hp, rfl⟩ := List.mem_map.1 hx
    exact inRange_discovered hs hroutes hrange hp)
  obtain ⟨herrors, hskipped, hincomplete, htotal⟩ := hpartition.complete hboth
  rw [List.length_map] at htotal
  refine ⟨a, ?_, herrors, hskipped, hincomplete, htotal⟩
  -- no task is outstanding, so the limit counts only where some task is awaited
  rw [run_answer hcheck hfeasible.workers, waitFailure?_of_settled (pending_eq_zero hboth) hlimit,
    Option.elim_none, ha]

end Discovered

/-! ## Changes -/

/-- **A change is refused only when it is unknown.** In every store that can be reached, the
    analysis of a change is refused exactly when none of the changed methods is stored, whatever the
    depth and the limit of the search are. Otherwise at least one path is discovered. If then no
    task is interrupted, and the time limit can be waited for where some task has to be, no task
    fails and no path is skipped: the analysis has all discovered paths. A limit that cannot be
    waited for is the failure of the analysis as soon as some task has to be. The degrees that
    methods were put in with do not matter. -/
theorem runChange_refused_iff {s : Store} (h : s.Reachable) {plan : Plan}
    (hdepth : plan.maxDepth.IsNumber) {limit : Int} (hlimit : plan.maxPaths = .ofInt limit)
    (context : ChangeContext) (course : Course) :
    (Refused (runChange plan s context course) ↔
      ∀ id ∈ context.changed, s.hasMethod id = false) ∧
    ((∃ id ∈ context.changed, s.hasMethod id = true) →
      ∃ paths events,
        Discovery.candidates s context.changed plan.maxDepth plan.maxPaths = .ok (paths, events) ∧
        1 ≤ paths.length ∧
        (Feasible plan s context paths → (∀ kind id, course.interrupt kind id = none) →
          (course.awaited = true → limitFailure? plan.timeout = none) →
          ∃ a, (runChange plan s context course).answer = .ok a ∧ a.errors = [] ∧
            a.skipped = [] ∧ a.incomplete = false ∧ a.total = paths.length) ∧
        (plan.workers.IsNumber → course.awaited = true →
          ∀ cause, limitFailure? plan.timeout = some cause →
            (runChange plan s context course).answer = .error (.failed cause))) := by
  have hs := h.valid
  obtain ⟨n, hn⟩ := Option.isSome_iff_exists.1 hdepth
  obtain ⟨routes, events, hfound, hroutes, hnil, -⟩ :=
    Discovery.exists_candidates hs hn limit context.changed
  rw [← hlimit] at hfound
  have hanswer : (runChange plan s context course).answer =
      (run plan s.hasCall context course (Discovery.pathsOver s routes)).answer := by
    rw [runChange, hfound]
  refine ⟨?_, ?_⟩
  · rw [← hnil, Refused, hanswer]
    refine ⟨?_, ?_⟩
    · intro hrefused
      by_contra hne
      exact not_refused_run (check_discovered hs hroutes hne) plan s.hasCall context course hrefused
    · -- without candidates the batch is empty
      rintro rfl
      exact .inl rfl
  · rintro ⟨id, hid, hstored⟩
    have hne : routes ≠ [] := by
      intro hempty
      have hunknown := hnil.1 hempty id hid
      rw [hstored] at hunknown
      cases hunknown
    refine ⟨_, events, hfound, ?_, ?_, ?_⟩
    · rw [Discovery.length_pathsOver]
      exact List.length_pos_iff.2 hne
    · intro hfeasible hnone hwait
      rw [hanswer]
      exact run_discovered hs hroutes hfeasible hnone hne hwait
    · intro hworkers hawaited cause hcause
      rw [hanswer]
      rw [run_answer (check_discovered hs hroutes hne) hworkers, waitFailure?, hawaited,
        Bool.true_or, if_pos rfl, hcause, Option.elim_some]

/-- Whether a method has the measures that hold when nothing is given. -/
def isPlain (m : Method) : Bool :=
  match m.complexity.val, m.linesOfCode, m.signature, m.paramTypes with
  | .int 1, .number (.int 0), .string _, .array [] => true
  | _, _, _, _ => false

theorem scorable_of_isPlain {s : Store} (h : (s.methods.toList.all fun e => isPlain e.2) = true)
    (hmethods : s.methods.size < pow2 63) (hcalls : s.calls.size < pow2 126) : s.Scorable := by
  have hplain : ∀ {id m}, s.method? id = some m → m.complexity.toJson = .ofInt 1 ∧
      m.linesOfCode = .ofInt 0 ∧ (∃ text, m.signature = .string text) ∧
      m.paramTypes = .array [] := by
    intro id m hm
    have hmem := Std.ExtTreeMap.mem_toList_iff_getElem?_eq_some.2 hm
    have hm := List.all_eq_true.1 h (id, m) hmem
    -- the test has one pattern that holds, and it fixes all four measures
    unfold isPlain at hm
    dsimp only at hm
    split at hm
    · next text hcomplexity hlines hsignature hparams =>
      exact ⟨congrArg Json.number hcomplexity, hlines, ⟨text, hsignature⟩, hparams⟩
    · cases hm
  refine ⟨?_, ?_, ?_, hmethods, Number.lt_machineBound hcalls⟩
  · intro id m hm
    exact ⟨1, (hplain hm).1, Number.lt_machineBound (by decide)⟩
  · intro id m hm
    obtain ⟨-, -, ⟨text, htext⟩, -⟩ := hplain hm
    rw [htext]
    rfl
  · intro id m hm
    obtain ⟨-, hlines, -, hparams⟩ := hplain hm
    refine ⟨⟨0, hlines, Number.lt_machineBound (by decide)⟩, ?_, ?_⟩
    · rw [hparams]
      rfl
    · rw [hparams]
      exact Number.lt_machineBound (by decide : 0 < pow2 126)

/-- A method that was put in with a negative number of callers is analysed like any other. -/
theorem runChange_refused_iff_roundTrip :
    Discovery.roundTrip.Reachable ∧
      ∃ a, (runChange Settings.initial.plan Discovery.roundTrip { changed := ["c", "e"] }
        { awaited := true }).answer = .ok a ∧
          a.errors = [] ∧ a.skipped = [] ∧ a.incomplete = false := by
  have hr : Discovery.roundTrip.Reachable := Store.reachable_after _
  have hdepth : Settings.initial.plan.maxDepth.IsNumber := rfl
  have hlimit : Settings.initial.plan.maxPaths = .ofInt 500 := rfl
  obtain ⟨paths, events, hpaths, -, hanalysis, -⟩ :=
    (runChange_refused_iff hr hdepth hlimit { changed := ["c", "e"] } { awaited := true }).2
      ⟨"c", List.mem_cons_self, by decide +kernel⟩
  obtain ⟨routes, events', hroutes, -, -, hcount⟩ :=
    Discovery.exists_candidates hr.valid (rfl : Settings.initial.plan.maxDepth.number? = _) 500
      ["c", "e"]
  have hsame : Discovery.pathsOver Discovery.roundTrip routes = paths := by
    have heq := hroutes.symm.trans hpaths
    cases heq
    rfl
  have hfeasible :
      Feasible Settings.initial.plan Discovery.roundTrip { changed := ["c", "e"] } paths := by
    refine ⟨initial_isNumber, rfl, ?_, Number.lt_machineBound (by decide),
      Number.lt_machineBound (by decide), Number.lt_machineBound ?_⟩
    · exact scorable_of_isPlain (by decide +kernel) (by decide +kernel) (by decide +kernel)
    · have hlength : paths.length ≤ 500 := by
        rw [← hsame, Discovery.length_pathsOver]
        exact hcount
      have hpow : 500 < pow2 126 := by decide
      omega
  obtain ⟨a, ha, herrors, hskipped, hincomplete, -⟩ := hanalysis hfeasible (fun _ _ => rfl)
    fun _ => limitFailure?_initial
  exact ⟨hr, a, ha, herrors, hskipped, hincomplete⟩

end Batch
end PathTriage
