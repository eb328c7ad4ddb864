import PathTriage.Proofs.Command.Inputs
import PathTriage.Proofs.Store.Figures

/-!
When a run breaks off.

A run that is asked a proper question answers it or refuses to, and in either case prints one
object. It breaks off over a file exactly when the first file that cannot be used holds no text,
goes beyond a limit of the JSON reader or has an impossible name. Once all files are read, only a
number can make it break off, and only one that lies beyond all machine numbers.
-/

namespace PathTriage.Command

open Outcome

/-! ## Answers -/

/-- What a run prints together with its exit code: a result, or an object with nothing but an
    error. -/
inductive Printed.Fits : Nat → Printed → Prop where
  | result {fields : Fields Json} (h : Fields.get? "error" fields = none) :
      Fits 0 (.document (.object fields))
  | refusal (message : String) : Fits 1 (.document (.object [("error", .string message)]))

/-- A reply that is a result or a refusal. -/
def Reply.IsProper (reply : Reply) : Prop := reply.printed.Fits reply.exit

theorem Reply.isProper_refusal (message : String) (events : List Event) :
    (Reply.refusal message events).IsProper := .refusal message

section Steps

variable {α β : Type} {allowed : Fault → Prop} {P : α → Prop} {Q : β → Prop}

theorem settles_bind {x : ExceptT Fault Id α} {f : α → ExceptT Fault Id β}
    (hx : Settles allowed P x.run.run) (hf : ∀ a, P a → Settles allowed Q (f a).run.run) :
    Settles allowed Q (x >>= f).run.run := by
  rw [run_bind]
  exact hx.bind hf

theorem settles_attempt {causes : Failure → Prop} {c : Except Failure α} (h : Settles causes P c)
    (himp : ∀ cause, causes cause → allowed (.failed cause)) :
    Settles allowed P (attempt (m := Id) c).run.run := by
  cases c with
  | ok a => exact .pure (h.result a rfl)
  | error cause => exact .error (himp cause (h.failure cause rfl))

theorem settles_withLoaded {complaint : String} {events : List Event}
    {loaded : ExceptT LoadError Id β} {next : β → ExceptT Fault Id Reply} {b : β}
    (h : loaded.run.run = .ok b) (hnext : Settles allowed Reply.IsProper (next b).run.run) :
    Settles allowed Reply.IsProper (withLoaded complaint events loaded next).run.run := by
  rw [withLoaded_ok h]
  exact hnext

/-- A document about a method that is known, or a refusal. -/
theorem settles_aboutMethod {causes : Failure → Prop} {document : Except Failure Json}
    (h : Settles causes (fun v => ∃ fields, v = .object fields ∧ Fields.get? "error" fields = none)
      document)
    (himp : ∀ cause, causes cause → allowed (.failed cause)) (s : Store) (method : String)
    (events : List Event) :
    Settles allowed Reply.IsProper (aboutMethod (m := Id) s method events document).run.run := by
  unfold aboutMethod
  split
  · refine settles_bind (settles_attempt h himp) ?_
    rintro _ ⟨fields, rfl, hfields⟩
    exact .pure (.result hfields)
  · exact .pure (Reply.isProper_refusal _ _)

end Steps

/-! ## Requests -/

/-- A request with whole bounds and a time limit that can be waited for, which asks for no counters;
    the settings are no matter of files. -/
def Request.IsProper : Request → Prop
  | .analysis r => (∀ v, r.maxDepth = some v → v.IsInteger) ∧
      (∀ v, r.timeout = some v → Batch.limitFailure? v = none) ∧ r.metrics = false
  | .graph _ (.statistics top) | .graph _ (.update _ _ top) => top.IsInteger
  | .graph _ (.paths _ _ depth) => ∀ v, depth = some v → v.IsInteger
  | .graph _ (.impact _ depth) | .graph _ (.propagation _ depth) => depth.IsInteger
  | .settings => False

/-- The analyses in one of the files of a request. -/
def Request.Reads (look : String → FileEntry) (r : Request) (files : List FileAnalysis) : Prop :=
  ∃ path, Input.analyses path ∈ r.inputs ∧ analyses path (look path) = .ok files

/-- The sizes of a project can be counted. -/
def IsCountable (files : List FileAnalysis) : Prop :=
  (Store.ofFiles files).methods.size < pow2 63 ∧ (Store.ofFiles files).calls.size < pow2 63

/-- Which numbers make a run break off once its files are read: a quotient, if some measure was
    found that is beyond the range of machine numbers, and in a propagation a power of the decay, if
    the powers of the machine are to blame. -/
def Request.FailsOver (look : String → FileEntry) (r : Request) : Fault → Prop
  | .failed .quotientRange => ∃ files, r.Reads look files ∧
      ∃ a ∈ files, ∃ f ∈ a.methods, ¬f.InRange
  | .failed .powerRange => (∃ file method depth, r = .graph file (.propagation method depth)) ∧
      ¬Number.PowersStayFinite
  | _ => False

section Answer

variable {look : String → FileEntry}

theorem isCounted_of_analyses {path : String} {entry : FileEntry} {files : List FileAnalysis}
    (h : analyses path entry = .ok files) : ∀ a ∈ files, ∀ f ∈ a.methods, f.IsCounted := by
  unfold analyses records at h
  split at h
  · cases h
  · dsimp only at h
    split at h
    · next hvalid =>
      cases h
      exact Payload.isCounted_of_bundle hvalid
    · cases h

theorem Request.Reads.isCounted {r : Request} {files : List FileAnalysis} (h : r.Reads look files) :
    ∀ a ∈ files, ∀ f ∈ a.methods, f.IsCounted := by
  obtain ⟨path, -, hfiles⟩ := h
  exact isCounted_of_analyses hfiles

/-- A quotient that is out of range in a store comes from the findings that it was made of. -/
theorem failsOver_of_quotientBreaks {r : Request} {s : Store} {files : List FileAnalysis}
    (hs : s.MadeOf files) (hreads : ∀ a ∈ files, ∃ files', r.Reads look files' ∧ a ∈ files')
    {cause : Failure} (h : s.QuotientBreaks cause) : r.FailsOver look (.failed cause) := by
  obtain ⟨rfl, hrange⟩ := h
  have hcounted : ∀ a ∈ files, ∀ f ∈ a.methods, f.IsCounted := by
    intro a ha
    obtain ⟨files', hfiles', ha⟩ := hreads a ha
    exact hfiles'.isCounted a ha
  by_contra hnone
  refine hrange (hs.inRange hcounted fun a ha f hf => ?_)
  by_contra hout
  obtain ⟨files', hfiles', ha⟩ := hreads a ha
  exact hnone ⟨files', hfiles', a, ha, f, hf, hout⟩

theorem settles_spreadRisk {s : Store} (h : s.Measured) (hs : s.Valid)
    (hcalls : s.calls.size < Number.machineBound) (method : String) (depth : Int) :
    Settles (fun cause => s.QuotientBreaks cause ∨ Graph.DecayBreaks cause) (fun _ => True)
      (spreadRisk s method (.ofInt depth)) := by
  have hrisks :
      ∀ m ∈ s.methodList, Settles s.QuotientBreaks Json.IsMachine (Store.riskOf none m) := by
    intro m hm
    obtain ⟨id, hm⟩ := Store.exists_of_mem_methodList hm
    exact Store.settles_riskOf h hs hcalls hm
  obtain ⟨hrefreshed, hmachine⟩ :=
    Store.settles_refreshEach hrisks [] fun _ _ hm => h.riskScore hm
  unfold spreadRisk Store.refreshRisks
  refine (hrefreshed.allow fun _ => .inl).bind fun _ _ => ?_
  exact (Store.settles_propagateRisk hmachine method depth).allow fun _ => .inr

variable {r : Request} {files : List FileAnalysis} (hreads : r.Reads look files)

include hreads

theorem settles_answerChange (hcount : IsCountable files) {r' : AnalysisRequest}
    (hr : Request.IsProper (.analysis r')) (now : String) (course : Batch.Course)
    (context : ChangeContext) :
    Settles (r.FailsOver look) Reply.IsProper
      (answerChange (m := Id) now course .initial r' files context).run.run := by
  have hmade := Store.madeOf_ofFiles files
  have hvalid : (Store.ofFiles files).Valid := Store.valid_stable.ofFiles Store.valid_empty files
  -- a plan has what the request gives, and otherwise the initial settings, which are all usable
  have hdepth : (r'.plan .initial).maxDepth.IsNumber := by
    unfold AnalysisRequest.plan
    cases hv : r'.maxDepth with
    | none => rfl
    | some v =>
      obtain ⟨n, rfl⟩ := hr.1 v hv
      rfl
  have hthresholds : ∀ name, ((r'.plan .initial).thresholds name).IsNumber := by
    intro name
    cases name <;> rfl
  have hworkers : (r'.plan .initial).workers.IsNumber := rfl
  have htimeout : Batch.limitFailure? (r'.plan .initial).timeout = none := by
    unfold AnalysisRequest.plan
    cases hv : r'.timeout with
    | none => exact Batch.limitFailure?_initial
    | some v => exact hr.2.1 v hv
  have hlimit : (r'.plan .initial).maxPaths = .ofInt Settings.usualMaxPaths := rfl
  have hrun := Batch.settles_runChange (hmade.measured hreads.isCounted) hvalid hcount.1 hthresholds
    hworkers htimeout hdepth hlimit (by decide) context course
  unfold answerChange
  dsimp only
  split
  · exact .pure (Reply.isProper_refusal _ _)
  · -- a failed computation, a refused batch, an analysis
    split
    · next cause hcause =>
      exact .error (failsOver_of_quotientBreaks hmade (fun a ha => ⟨files, hreads, ha⟩)
        (hrun.failure _ hcause cause rfl))
    · exact .pure (Reply.isProper_refusal _ _)
    · rw [hr.2.2, if_neg Bool.false_ne_true]
      exact .pure (.result rfl)

theorem settles_answerUpdate {more : Option (List FileAnalysis)}
    (hmore : ∀ files', more = some files' → r.Reads look files') (top : Int) (events : List Event)
    (changes : List FileChange) :
    Settles (r.FailsOver look) Reply.IsProper (answerUpdate (m := Id) (Store.ofFiles files) events
      (.ofInt top) changes (more.map analyzerOf)).run.run := by
  -- whatever the changes do, the store is made of the two lists of analyses
  have hall : ∀ a ∈ files ++ more.getD [], ∃ files', r.Reads look files' ∧ a ∈ files' := by
    intro a ha
    rcases List.mem_append.1 ha with ha | ha
    · exact ⟨files, hreads, ha⟩
    · cases more with
      | none => cases ha
      | some files' => exact ⟨files', hmore files' rfl, ha⟩
  have hanalyzer : ∀ analyze, more.map analyzerOf = some analyze →
      ∀ path a, analyze path = .ok a → a ∈ files ++ more.getD [] := by
    intro analyze hanalyze path a ha
    obtain ⟨files', rfl, rfl⟩ := Option.map_eq_some_iff.1 hanalyze
    unfold analyzerOf at ha
    split at ha
    · next hfind =>
      cases ha
      exact List.mem_append_right _ (List.mem_reverse.1 (List.mem_of_find?_eq_some hfind))
    · cases ha
  have hmade := ((Store.madeOf_ofFiles files).mono (List.subset_append_left _ _)).update hanalyzer
    changes
  have hcounted : ∀ a ∈ files ++ more.getD [], ∀ f ∈ a.methods, f.IsCounted := by
    intro a ha
    obtain ⟨files', hfiles', ha⟩ := hall a ha
    exact hfiles'.isCounted a ha
  refine settles_bind (settles_attempt (Store.settles_statistics (hmade.measured hcounted) top)
    fun cause => failsOver_of_quotientBreaks hmade hall) ?_
  intro statistics _
  exact .pure (.result rfl)

theorem settles_answerQuery (hcount : IsCountable files) {query : GraphQuery} {file : String}
    (hr : r = .graph file query) (hproper : r.IsProper)
    (hinputs : query.inputs.findSome? (·.error? look) = none) (events : List Event) :
    Settles (r.FailsOver look) Reply.IsProper
      (answerQuery (m := Id) look .initial (Store.ofFiles files) events query).run.run := by
  have hmade := Store.madeOf_ofFiles files
  have hmeasured := hmade.measured hreads.isCounted
  have hvalid : (Store.ofFiles files).Valid := Store.valid_stable.ofFiles Store.valid_empty files
  have hquotient : ∀ cause, (Store.ofFiles files).QuotientBreaks cause →
      r.FailsOver look (.failed cause) := fun cause =>
    failsOver_of_quotientBreaks hmade fun a ha => ⟨files, hreads, ha⟩
  -- a search that cannot fail is one that fails for no cause
  have hnone : ∀ cause : Failure, False → r.FailsOver look (.failed cause) := fun _ => False.elim
  subst hr
  cases query with
  | statistics top =>
    obtain ⟨n, rfl⟩ := hproper
    refine settles_bind (settles_attempt (Store.settles_statistics hmeasured n) hquotient) ?_
    intro statistics _
    exact .pure (.result rfl)
  | paths source target maxDepth =>
    have hdepth : (maxDepth.getD (Settings.initial.value .maxPathDepth)).IsNumber := by
      cases maxDepth with
      | none => rfl
      | some v =>
        obtain ⟨n, rfl⟩ := hproper v rfl
        rfl
    have hpaths := (Store.ofFiles files).gives_findPaths source target hdepth Settings.usualMaxPaths
    refine settles_bind (settles_attempt hpaths.settles hnone) ?_
    intro paths _
    exact .pure (.result rfl)
  | impact method depth =>
    obtain ⟨n, rfl⟩ := hproper
    have himpact := (Store.ofFiles files).gives_impactOf method n
    exact settles_aboutMethod (himpact.settles.map fun methods _ => ⟨_, rfl, rfl⟩) hnone _ _ _
  | propagation method depth =>
    obtain ⟨n, rfl⟩ := hproper
    have hcalls : (Store.ofFiles files).calls.size < Number.machineBound :=
      Number.lt_machineBound (hcount.2.trans (pow2_lt (by decide)))
    have hspread := settles_spreadRisk hmeasured hvalid hcalls method n
    refine settles_aboutMethod (hspread.map fun risks _ => ⟨_, rfl, rfl⟩) ?_ _ _ _
    -- either the risk of the origin is out of range, or a power of the decay is
    rintro cause (hcause | ⟨rfl, hpowers⟩)
    · exact hquotient cause hcause
    · exact ⟨⟨file, method, _, rfl⟩, hpowers⟩
  | update changesFile analysisFile top =>
    obtain ⟨n, rfl⟩ := hproper
    rw [← reason?_updateInputs, reason?_eq_none] at hinputs
    obtain ⟨⟨changes, analyzer⟩, hloaded⟩ := hinputs
    obtain ⟨more, rfl, hmore⟩ := analyzer_of_updateInputs hloaded
    refine settles_withLoaded hloaded (settles_answerUpdate hreads ?_ n events changes)
    intro files' hfiles'
    obtain ⟨hmem, hread⟩ := hmore files' hfiles'
    exact ⟨analysisFile, List.mem_cons_of_mem _ (List.mem_cons_of_mem _ hmem), hread⟩

omit hreads

/-- Once its files are read, a proper request is answered unless a number is out of range. -/
theorem settles_answer (hproper : r.IsProper)
    (hcount : ∀ files, r.Reads look files → IsCountable files) (herror : r.error? look = none)
    (now : String) (course : Batch.Course) :
    Settles (r.FailsOver look) Reply.IsProper
      (answer (m := Id) look now course .initial r).run.run := by
  cases r with
  | analysis r =>
    rw [← reason?_analysisInputs, reason?_eq_none] at herror
    obtain ⟨⟨files, context⟩, hloaded⟩ := herror
    have hreads : (Request.analysis r).Reads look files := by
      obtain ⟨_, hfiles, hloaded⟩ := run_bind_eq_ok.1 hloaded
      obtain ⟨_, -, hloaded⟩ := run_bind_eq_ok.1 hloaded
      obtain ⟨_, -, hloaded⟩ := run_bind_eq_ok.1 hloaded
      cases hloaded
      exact ⟨r.graph, List.mem_cons_self, hfiles⟩
    exact settles_withLoaded hloaded
      (settles_answerChange hreads (hcount files hreads) hproper now course context)
  | graph file query =>
    rw [Request.error?, Request.inputs, findSome?_error?_cons, Option.or_eq_none_iff] at herror
    obtain ⟨files, hfiles⟩ := reason?_eq_none.1 herror.1
    have hreads : (Request.graph file query).Reads look files :=
      ⟨file, List.mem_cons_self, hfiles⟩
    exact settles_withLoaded hfiles
      (settles_answerQuery hreads (hcount files hreads) rfl hproper herror.2 _)
  | settings => exact hproper.elim

end Answer

/-! ## Runs -/

section Run

variable {look : String → FileEntry} {env : Settings.Environment} {now : String}
  {course : Batch.Course} {args : List String} {i : Invocation} {r : Request}
  {notices : List Event} {level : Int}

/-- A request belongs to a command. -/
theorem isNamed_of_request (hi : invocation args = .ok i) (hr : i.request = some r) :
    i.isNamed = true := by
  unfold invocation at hi
  cases hc : read grammar args with
  | error stop =>
    rw [hc] at hi
    cases hi
  | ok c =>
    rw [hc] at hi
    cases hi
    cases hcommands : c.commands with
    | nil => simp [Choice.request?, hcommands] at hr
    | cons name rest => simp [hcommands]

/-- A run with initial settings comes down to the answer to its request. -/
theorem run_eq_map_answer (hi : invocation args = .ok i) (hr : i.request = some r)
    (hcomplete : i.isComplete = true)
    (hsettings : (Settings.load (m := Id) look env i.settingsFile).run = .ok (.initial, notices))
    (hlevel : levelOf i.logLevel .initial = .ok level) :
    (run (m := Id) look env now course args).run =
      (answer (m := Id) look now course .initial r).run.run.map fun reply =>
        { exit := reply.exit, printed := reply.printed, notices, level,
          events := reply.events } := by
  have hnamed := isNamed_of_request hi hr
  change Settings.load (m := Id) look env i.settingsFile = Except.ok _ at hsettings
  unfold run
  rw [hi]
  change (follow (m := Id) look env now course i).run.run = _
  unfold follow
  rw [hnamed, hsettings, hr, hcomplete]
  change (do
    let level ← (levelOf i.logLevel .initial : Except Fault Int)
    let reply ← answer (m := Id) look now course .initial r
    pure { exit := reply.exit, printed := reply.printed, notices, level, events := reply.events } :
      ExceptT Fault Id Transcript).run.run = _
  rw [hlevel]
  refine (run_bind (answer (m := Id) look now course .initial r) _).trans ?_
  cases (answer (m := Id) look now course .initial r).run.run <;> rfl

/-- **When a run breaks off.** Whatever is in the files and however the tasks of an analysis go, a
    run with initial settings that is asked a proper question breaks off over a file exactly when
    the first file that cannot be used holds no text, goes beyond a limit of the JSON reader or has
    an impossible name. If there is no such file, the run prints one object: a result without an
    error, or nothing but an error, and the latter whenever some file cannot be used. The only other
    way to end is a number out of range: a quotient, for which some file has to hold a measure
    beyond all machine numbers, or a power of the decay, for which the powers of the machine have to
    leave the finite numbers between zero and one. -/
theorem run_breaks_iff (hi : invocation args = .ok i) (hr : i.request = some r)
    (hcomplete : i.isComplete = true) (hproper : r.IsProper)
    (hsettings : (Settings.load (m := Id) look env i.settingsFile).run = .ok (.initial, notices))
    (hlevel : levelOf i.logLevel .initial = .ok level)
    (hcount : ∀ files, r.Reads look files → IsCountable files) :
    (∀ e, (run (m := Id) look env now course args).run = .error (.file e) ↔ r.BreaksOver look e) ∧
    ((∀ e, ¬r.BreaksOver look e) →
      (∃ t, (run (m := Id) look env now course args).run = .ok t ∧ t.printed.Fits t.exit ∧
        t.usageError = none ∧ ((∃ input ∈ r.inputs, input.error? look ≠ none) → t.exit = 1)) ∨
      ∃ fault, (run (m := Id) look env now course args).run = .error fault ∧
        r.FailsOver look fault) := by
  rw [run_eq_map_answer hi hr hcomplete hsettings hlevel]
  simp only [← Request.error?_eq_fault]
  cases herror : r.error? look with
  | some e =>
    obtain ⟨complaint, events, hanswer⟩ := answer_of_error herror now course .initial
    rw [hanswer]
    cases e with
    | fault e =>
      refine ⟨fun e' => ?_, fun hnone => absurd rfl (hnone e)⟩
      simp [LoadError.reply, Except.map]
    | refused message =>
      refine ⟨fun e' => ?_, fun _ => .inl ⟨_, rfl, .refusal _, rfl, fun _ => rfl⟩⟩
      simp [LoadError.reply, Except.map]
  | none =>
    have hsettles := settles_answer hproper hcount herror now course
    have husable : ¬∃ input ∈ r.inputs, input.error? look ≠ none := by
      rintro ⟨input, hinput, hne⟩
      exact hne (List.findSome?_eq_none_iff.1 herror input hinput)
    cases hanswer : (answer (m := Id) look now course .initial r).run.run with
    | ok reply =>
      refine ⟨fun e => by simp [Except.map],
        fun _ => .inl ⟨_, rfl, ?_, rfl, fun h => (husable h).elim⟩⟩
      exact hsettles.result reply hanswer
    | error fault =>
      -- a number that is out of range is no matter of files
      have hfails := hsettles.failure fault hanswer
      refine ⟨fun e => ?_, fun _ => .inr ⟨fault, rfl, hfails⟩⟩
      constructor
      · intro heq
        cases heq
        exact hfails.elim
      · nofun

end Run

/-- A project of one file with one method. -/
def oneMethod (path : String) : FileEntry :=
  if path = "g.json" then
    .file ("[\x7b\"file_path\": \"f\", \"methods\": " ++
      "[\x7b\"method_id\": \"m\", \"method_name\": \"m\"\x7d]\x7d]").toUTF8
  else .missing

/-- The request for an analysis of its only method. -/
def oneMethodRequest : Request := .analysis
  { graph := "g.json", commits := "", changed := ["m"], changedFile := "", maxDepth := none
    timeout := none, metrics := false }

/-- The files of the request are usable, and all that was found is within the range. -/
theorem findings_oneMethod : oneMethodRequest.error? oneMethod = none ∧
    ∀ files, oneMethodRequest.Reads oneMethod files →
      IsCountable files ∧ ∀ a ∈ files, ∀ f ∈ a.methods, f.InRange := by
  have hsizes : ((analyses "g.json" (oneMethod "g.json")).map fun files =>
      ((Store.ofFiles files).methods.size, (Store.ofFiles files).calls.size)) = .ok (1, 0) := by
    with_unfolding_all rfl
  have hmeasures : ((analyses "g.json" (oneMethod "g.json")).map fun files =>
      files.flatMap fun a => a.methods.map fun f => (f.complexity, f.linesOfCode)) =
        .ok [(.int 1, .ofInt 0)] := by
    with_unfolding_all rfl
  constructor
  · with_unfolding_all rfl
  · rintro files ⟨path, hpath, hfiles⟩
    simp only [oneMethodRequest, Request.inputs, optionalInput, List.mem_cons] at hpath
    obtain rfl : path = "g.json" := by simpa using hpath
    rw [hfiles] at hsizes hmeasures
    simp only [Except.map, Except.ok.injEq, Prod.mk.injEq] at hsizes hmeasures
    constructor
    · rw [IsCountable, hsizes.1, hsizes.2]
      decide
    · intro a ha f hf
      have hmem : (f.complexity, f.linesOfCode) ∈
          files.flatMap fun a => a.methods.map fun f => (f.complexity, f.linesOfCode) :=
        List.mem_flatMap.2 ⟨a, ha, List.mem_map.2 ⟨f, hf, rfl⟩⟩
      rw [hmeasures, List.mem_singleton, Prod.mk.injEq] at hmem
      rw [MethodFinding.InRange, hmem.1, hmem.2]
      exact ⟨⟨1, rfl, Number.lt_machineBound (by decide)⟩, 0, rfl,
        Number.lt_machineBound (by decide)⟩

theorem run_breaks_iff_oneMethod :
    (∀ e, ¬oneMethodRequest.BreaksOver oneMethod e) ∧
      ∃ t, (run (m := Id) oneMethod [] "" { awaited := true }
        ["analyze", "--graph", "g.json", "--changed", "m"]).run = .ok t ∧
          t.printed.Fits t.exit := by
  obtain ⟨husable, hread⟩ := findings_oneMethod
  have hi : invocation ["analyze", "--graph", "g.json", "--changed", "m"] = .ok
      { settingsFile := none, logLevel := "", isNamed := true, isComplete := true,
        request := some oneMethodRequest } := by
    with_unfolding_all rfl
  have hsettings : (Settings.load (m := Id) oneMethod [] none).run = .ok (.initial, []) := by
    with_unfolding_all rfl
  have hlevel : levelOf "" .initial = .ok 20 := by
    with_unfolding_all rfl
  have hnone : ∀ e, ¬oneMethodRequest.BreaksOver oneMethod e := by
    intro e he
    rw [← Request.error?_eq_fault, husable] at he
    cases he
  refine ⟨hnone, ?_⟩
  have hproper : oneMethodRequest.IsProper := ⟨nofun, nofun, rfl⟩
  rcases (run_breaks_iff hi rfl rfl hproper hsettings hlevel fun files h => (hread files h).1).2
    hnone with ⟨t, ht, hfits, -⟩ | ⟨fault, -, hfails⟩
  · exact ⟨t, ht, hfits⟩
  · unfold Request.FailsOver at hfails
    split at hfails
    · obtain ⟨files, hfiles, a, ha, f, hf, hout⟩ := hfails
      exact absurd ((hread files hfiles).2 a ha f hf) hout
    · obtain ⟨⟨file, method, depth, heq⟩, -⟩ := hfails
      cases heq
    · exact hfails.elim

/-- Bytes that are no text make a run break off, although nothing else is wrong. -/
theorem run_breaks_over_bytes :
    (run (m := Id) (fun path => if path = "g.json" then .file ⟨#[0xff]⟩ else .missing) [] "" {}
      ["graph", "stats", "--graph", "g.json"]).run = .error (.file .notText) := by
  with_unfolding_all rfl

end PathTriage.Command
