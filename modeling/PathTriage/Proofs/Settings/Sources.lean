import PathTriage.Proofs.Settings.Layers

/-!
What the sources record.

Each setting and threshold that was overridden stands among the sources, with the last place that
gave it a value. Nothing else should stand there, and nothing else does, with one exception: a file
that has thresholds has all their names recorded, also names that are no threshold's and that give
nothing a value (`Stray`). The other keys of a file are recorded only when they are settings.
-/

namespace PathTriage.Settings

/-! ## Names of sources -/

theorem thresholdSource_inj {name name' : String} :
    thresholdSource name = thresholdSource name' ↔ name = name' := by
  refine ⟨?_, congrArg thresholdSource⟩
  intro h
  have hlist := congrArg String.toList h
  simp only [thresholdSource, String.toList_append] at hlist
  exact String.toList_inj.1 (List.append_cancel_left hlist)

/-- No setting's name starts as the names of thresholds do. -/
theorem name_ne_thresholdSource (n : Setting) (name : String) :
    Named.name n ≠ thresholdSource name := by
  intro h
  have hhead := congrArg (fun text => text.toList.head?) h
  have hthreshold : (thresholdSource name).toList.head? = some 't' := by
    rw [thresholdSource, String.toList_append, String.toList_append]
    rfl
  have hsetting : (Named.name n).toList.head? = some 't' := hhead.trans hthreshold
  revert hsetting
  cases n <;> decide

theorem Target.source_inj {target target' : Target} :
    target.source = target'.source ↔ target = target' := by
  refine ⟨?_, congrArg Target.source⟩
  cases target with
  | setting n =>
    cases target' with
    | setting n' => exact fun h => congrArg Target.setting (Setting.name_inj.1 h)
    | threshold t' => exact fun h => absurd h (name_ne_thresholdSource n _)
  | threshold t =>
    cases target' with
    | setting n' => exact fun h => absurd h.symm (name_ne_thresholdSource n' _)
    | threshold t' =>
      exact fun h => congrArg Target.threshold (Threshold.name_inj.1 (thresholdSource_inj.1 h))

/-! ## What is recorded -/

/-- The place that a target has its value from, if it was overridden. -/
def origin? (env : Environment) (fields : Fields Json) (target : Target) : Option Origin :=
  if (environmentValue? env target).isSome then some .environment
  else if (fileValue? fields target).isSome then some .file
  else none

/-- What the sources are for: a setting or threshold that was overridden, and by what. -/
def Recorded (env : Environment) (fields : Fields Json) (key : String) (origin : Origin) : Prop :=
  ∃ target : Target, key = target.source ∧ origin? env fields target = some origin

/-- A name that a file has among its thresholds although no threshold is called so. -/
def Stray (fields : Fields Json) (name : String) : Prop :=
  ∃ table, Fields.get? thresholdsKey fields = some (.object table) ∧ name ∈ Fields.keys table ∧
    (Named.ofName? name : Option Threshold) = none

section Marks

variable {fields : Fields Json} {key name : String}

theorem Stray.source_ne (h : Stray fields name) (target : Target) :
    target.source ≠ thresholdSource name := by
  obtain ⟨-, -, -, hname⟩ := h
  cases target with
  | setting n => exact name_ne_thresholdSource n name
  | threshold t =>
    intro heq
    rw [← thresholdSource_inj.1 heq, Threshold.ofName?_name] at hname
    cases hname

/-- A file has the names of the targets that it gives a value recorded, and the stray ones. -/
theorem mem_fieldMarks (hkeys : (Fields.keys fields).Nodup) : key ∈ fields.flatMap fieldMarks ↔
    (∃ target : Target, key = target.source ∧ ∃ value, fileValue? fields target = some value) ∨
      ∃ name, key = thresholdSource name ∧ Stray fields name := by
  rw [List.mem_flatMap]
  refine ⟨?_, ?_⟩
  · rintro ⟨field, hfield, hkey⟩
    obtain ⟨n, value, rfl⟩ | ⟨table, rfl⟩ | hmeans := field_cases field
    · rw [fieldMarks_name, List.mem_singleton] at hkey
      refine Or.inl ⟨.setting n, hkey, value, ?_⟩
      have hget : Fields.get? (Target.setting n).key fields = some value :=
        Fields.get?_of_mem hkeys hfield
      rw [fileValue?, hget]
      rfl
    -- a name in the table of thresholds is that of a threshold, or stray
    · rw [fieldMarks_thresholds, List.mem_map] at hkey
      obtain ⟨name, hname, rfl⟩ := hkey
      have hget : Fields.get? thresholdsKey fields = some (.object table) :=
        Fields.get?_of_mem hkeys hfield
      cases hthreshold : (Named.ofName? name : Option Threshold) with
      | none => exact Or.inr ⟨name, rfl, table, hget, hname, hthreshold⟩
      | some t =>
        obtain ⟨value, hvalue⟩ := Fields.mem_keys_iff.1 hname
        have ht := Named.name_of_ofName? hthreshold
        subst ht
        refine Or.inl ⟨.threshold t, rfl, value, ?_⟩
        have hget' : Fields.get? (Target.threshold t).key fields = some (.object table) := hget
        rw [fileValue?, hget']
        exact hvalue
    · rw [fieldMarks_of_meaningless hmeans] at hkey
      cases hkey
  · rintro (⟨target, rfl, value, hvalue⟩ | ⟨name, rfl, table, hget, hname, -⟩)
    · obtain ⟨held, hget, hwithin⟩ := Option.bind_eq_some_iff.1 hvalue
      refine ⟨(target.key, held), Fields.mem_of_get? hget, ?_⟩
      cases target with
      | setting n =>
        show _ ∈ fieldMarks (Named.name n, held)
        rw [fieldMarks_name]
        exact List.mem_singleton_self _
      | threshold t =>
        cases held with
        -- a threshold has its value from a table, so the field holds one
        | object table =>
          exact List.mem_map_of_mem (Fields.mem_keys_iff.2 ⟨value, hwithin⟩)
        | _ => cases hwithin
    · exact ⟨_, Fields.mem_of_get? hget, List.mem_map_of_mem hname⟩

theorem mem_variableMarks {env : Environment} :
    key ∈ knownVariables.flatMap (variableMarks env) ↔
      ∃ target : Target, key = target.source ∧
        ∃ value, environmentValue? env target = some value := by
  rw [List.mem_flatMap]
  refine ⟨?_, ?_⟩
  · rintro ⟨v, hv, hkey⟩
    rw [variableMarks] at hkey
    split at hkey
    · next hset =>
      obtain ⟨value, hvalue⟩ := Option.isSome_iff_exists.1 hset
      refine ⟨v.target, List.mem_singleton.1 hkey, value, ?_⟩
      rw [environmentValue?, Target.mem_knownVariables_iff.1 hv]
      exact hvalue
    · cases hkey
  · rintro ⟨target, rfl, value, hvalue⟩
    obtain ⟨v, hv, hreading⟩ := Option.bind_eq_some_iff.1 hvalue
    have htarget := Target.target_of_setBy? hv
    subst htarget
    refine ⟨v, Target.mem_knownVariables_iff.2 hv, ?_⟩
    rw [variableMarks, if_pos (Option.isSome_iff_exists.2 ⟨value, hreading⟩)]
    exact List.mem_singleton_self _

end Marks

section Loaded

variable {look : String → FileEntry} {named : Option String} {fields : Fields Json}
  {env : Environment} {key : String} {origin : Origin}

theorem nodup_keys_sources_applyFields (fields : Fields Json) :
    (Fields.keys (initial.applyFields fields).1.sources).Nodup := by
  rw [sources_applyFields]
  exact Fields.nodup_keys_putAll List.nodup_nil

theorem nodup_keys_sources (env : Environment) (fields : Fields Json) :
    (Fields.keys (applyEnvironment env (initial.applyFields fields).1).1.sources).Nodup := by
  rw [sources_applyEnvironment]
  exact Fields.nodup_keys_putAll (nodup_keys_sources_applyFields fields)

/-- A target that the environment says nothing about has its value from the file, if from
    anywhere. -/
theorem origin?_of_unset {target : Target} (h : environmentValue? env target = none) :
    origin? env fields target = some origin ↔
      origin = .file ∧ ∃ value, fileValue? fields target = some value := by
  rw [origin?, h, ← Option.isSome_iff_exists]
  by_cases hfile : (fileValue? fields target).isSome
  · simp [hfile, eq_comm]
  · simp [hfile]

/-- Under a key that the environment says nothing about, only the file is to be recorded. -/
theorem recorded_of_unset
    (h : ∀ target : Target, key = target.source → environmentValue? env target = none) :
    Recorded env fields key origin ↔ origin = .file ∧
      ∃ target : Target, key = target.source ∧ ∃ value, fileValue? fields target = some value := by
  refine ⟨?_, ?_⟩
  · rintro ⟨target, hsource, horigin⟩
    obtain ⟨rfl, hvalue⟩ := (origin?_of_unset (h target hsource)).1 horigin
    exact ⟨rfl, target, hsource, hvalue⟩
  · rintro ⟨rfl, target, hsource, hvalue⟩
    exact ⟨target, hsource, (origin?_of_unset (h target hsource)).2 ⟨rfl, hvalue⟩⟩

theorem get?_sources (hkeys : (Fields.keys fields).Nodup) :
    Fields.get? key (applyEnvironment env (initial.applyFields fields).1).1.sources = some origin ↔
      Recorded env fields key origin ∨
        origin = .file ∧ ∃ name, key = thresholdSource name ∧ Stray fields name := by
  rw [sources_applyEnvironment, sources_applyFields, Fields.get?_putAll]
  -- the environment comes last, so what it records stays
  by_cases henv : key ∈ knownVariables.flatMap (variableMarks env)
  · rw [if_pos henv]
    obtain ⟨target, rfl, value, hvalue⟩ := mem_variableMarks.1 henv
    have horigin : origin? env fields target = some .environment := by
      rw [origin?, hvalue]
      rfl
    refine ⟨?_, ?_⟩
    · rintro ⟨⟩
      exact Or.inl ⟨target, rfl, horigin⟩
    · rintro (⟨target', hsource, horigin'⟩ | ⟨-, name, hsource, hstray⟩)
      · rw [← Target.source_inj.1 hsource, horigin] at horigin'
        exact horigin'
      · exact absurd hsource (hstray.source_ne target)
  · have hunset : ∀ target : Target, key = target.source →
        environmentValue? env target = none := by
      intro target hsource
      rw [Option.eq_none_iff_forall_ne_some]
      exact fun value hvalue => henv (mem_variableMarks.2 ⟨target, hsource, value, hvalue⟩)
    rw [if_neg henv, recorded_of_unset hunset, ← and_or_left, ← mem_fieldMarks hkeys]
    exact Fields.get?_putAll_nil

/-- The sources record the overrides and nothing else exactly when the file has no stray names. -/
theorem recorded_iff_forall_not_stray (hkeys : (Fields.keys fields).Nodup) :
    (∀ key origin,
      Fields.get? key (applyEnvironment env (initial.applyFields fields).1).1.sources =
          some origin ↔
        Recorded env fields key origin) ↔ ∀ name, ¬Stray fields name := by
  refine ⟨?_, ?_⟩
  · intro hexact name hstray
    have hget : Fields.get? (thresholdSource name)
        (applyEnvironment env (initial.applyFields fields).1).1.sources = some .file :=
      (get?_sources hkeys).2 (Or.inr ⟨rfl, name, rfl, hstray⟩)
    obtain ⟨target, hsource, -⟩ := (hexact _ _).1 hget
    exact hstray.source_ne target hsource.symm
  · intro hnone key origin
    refine (get?_sources hkeys).trans (or_iff_left ?_)
    rintro ⟨-, name, -, hstray⟩
    exact hnone name hstray

end Loaded

/-! ## Loading -/

/-- The sources of loaded settings are a table by name, and what stands in it are the overridden
    settings and thresholds with the place that each has its value from, and beside them the stray
    names of the file. So they record the overrides and nothing else exactly when the file has no
    stray names. -/
theorem load_sources {look : String → FileEntry} {named : Option String} {fields : Fields Json}
    (hfile : Configured look named fields) (env : Environment) :
    ∃ s events, (load (m := Id) look env named).run = .ok (s, events) ∧
      (Fields.keys s.sources).Nodup ∧
      (∀ key origin, Fields.get? key s.sources = some origin ↔ Recorded env fields key origin ∨
        origin = .file ∧ ∃ name, key = thresholdSource name ∧ Stray fields name) ∧
      ((∀ key origin, Fields.get? key s.sources = some origin ↔ Recorded env fields key origin) ↔
        ∀ name, ¬Stray fields name) := by
  obtain ⟨events, hload⟩ := hfile.load_eq env
  exact ⟨_, events, hload, nodup_keys_sources env fields, fun _ _ => get?_sources hfile.nodup_keys,
    recorded_iff_forall_not_stray hfile.nodup_keys⟩

/-- A file whose only threshold is none. -/
def strayText : String := "\x7b\"thresholds\":\x7b\"x\":1\x7d\x7d"

def strayFields : Fields Json := [("thresholds", .object [("x", .ofInt 1)])]

theorem configured_strayText : Configured (onlyFile strayText) none strayFields :=
  configured_onlyFile (by with_unfolding_all rfl)

theorem stray_x : Stray strayFields "x" :=
  ⟨[("x", .ofInt 1)], rfl, List.mem_singleton_self _, by decide⟩

/-- The stray name is recorded beside a setting that the environment overrides. -/
theorem load_sources_strayText :
    Configured (onlyFile strayText) none strayFields ∧
      ∃ s events, (load (m := Id) (onlyFile strayText) [("GOLDENPATH_MAX_WORKERS", "4")] none).run =
          .ok (s, events) ∧
        Fields.get? "thresholds.x" s.sources = some .file ∧
        Fields.get? "max_workers" s.sources = some .environment := by
  obtain ⟨s, events, hload, -, hsources, -⟩ :=
    load_sources configured_strayText [("GOLDENPATH_MAX_WORKERS", "4")]
  refine ⟨configured_strayText, s, events, hload, ?_, ?_⟩
  · exact (hsources _ _).2 (Or.inr ⟨rfl, "x", rfl, stray_x⟩)
  · refine (hsources _ _).2 (Or.inl ⟨.setting .maxWorkers, rfl, ?_⟩)
    with_unfolding_all rfl

/-- What is recorded there is no override: no threshold is called so, and every value is the initial
    one. -/
theorem stray_name_recorded :
    ∃ s events, (load (m := Id) (onlyFile strayText) [] none).run = .ok (s, events) ∧
      Fields.get? "thresholds.x" s.sources = some .file ∧
      ¬Recorded [] strayFields "thresholds.x" .file ∧
      ∀ target, s.get target = initial.get target := by
  obtain ⟨events, hload⟩ := configured_strayText.load_eq []
  refine ⟨_, events, hload, ?_, ?_, ?_⟩
  · exact (get?_sources configured_strayText.nodup_keys).2 (Or.inr ⟨rfl, "x", rfl, stray_x⟩)
  · rintro ⟨target, hsource, -⟩
    exact stray_x.source_ne target hsource.symm
  · intro target
    rw [configured_strayText.get_load]
    rcases target with n | t
    · cases n <;> rfl
    · cases t <;> rfl

end PathTriage.Settings
