import PathTriage.Settings.Load
import PathTriage.Proofs.Json.Fields

/-!
How fields and variables override settings.

A field of a file and a variable of the environment do the same kind of thing. Each gives some of
the settings and thresholds a value, leaves the others as they are, and records names under one
origin (`Overriding`). What a whole run of them does follows once for both: the last value given
counts (`Overriding.get_run`), and all names are recorded (`Overriding.sources_run`). Where no key
stands twice and no two variables are for the same thing, the last value is the only one.
-/

namespace PathTriage

/-! ## Names -/

/-- Names that lead back to their members are distinct. -/
theorem Named.name_injective {α : Type} [Named α] (h : ∀ a : α, ofName? (name a) = some a) :
    Function.Injective (name : α → String) := by
  intro a b hname
  have hb := h b
  rw [← hname, h a] at hb
  exact Option.some.inj hb

/-- A setting is found under its name. -/
theorem Setting.ofName?_name (n : Setting) : Named.ofName? (Named.name n) = some n := by
  cases n <;> rfl

theorem Threshold.ofName?_name (t : Threshold) : Named.ofName? (Named.name t) = some t := by
  cases t <;> rfl

/-- So no two settings have one name. -/
theorem Setting.name_inj {n n' : Setting} : Named.name n = Named.name n' ↔ n = n' :=
  (Named.name_injective ofName?_name).eq_iff

theorem Threshold.name_inj {t t' : Threshold} : Named.name t = Named.name t' ↔ t = t' :=
  (Named.name_injective ofName?_name).eq_iff

namespace Settings

/-- And none is called like the table of thresholds. -/
theorem name_ne_thresholdsKey (n : Setting) : Named.name n ≠ thresholdsKey := by
  cases n <;> decide

/-! ## Targets -/

/-- The value of a setting or threshold. -/
def get (s : Settings) : Target → Json
  | .setting name => s.value name
  | .threshold name => s.thresholds name

namespace Target

/-- The name under which the origin of a value is recorded. -/
def source : Target → String
  | .setting name => Named.name name
  | .threshold name => thresholdSource (Named.name name)

/-- The key of a file under which a value stands: the settings have keys of their own, the
    thresholds share one. -/
def key : Target → String
  | .setting name => Named.name name
  | .threshold _ => thresholdsKey

/-- The value for a target in what its key holds: all of it for a setting, and for a threshold the
    field of its name, if this is an object that has it. -/
def within : Target → Json → Option Json
  | .setting _, value => some value
  | .threshold name, value => value.get? (Named.name name)

/-- The variable for a target. Not all have one. -/
def setBy? : Target → Option Variable
  | .setting .maxWorkers => some ⟨"GOLDENPATH_MAX_WORKERS", .setting .maxWorkers, .int⟩
  | .setting .batchTimeout => some ⟨"GOLDENPATH_BATCH_TIMEOUT", .setting .batchTimeout, .float⟩
  | .setting .maxPathDepth => some ⟨"GOLDENPATH_MAX_PATH_DEPTH", .setting .maxPathDepth, .int⟩
  | .setting .maxPaths => some ⟨"GOLDENPATH_MAX_PATHS", .setting .maxPaths, .int⟩
  | .setting .logLevel => some ⟨"GOLDENPATH_LOG_LEVEL", .setting .logLevel, .text⟩
  | .threshold .goldenIntent =>
    some ⟨"GOLDENPATH_GOLDEN_INTENT_THRESHOLD", .threshold .goldenIntent, .float⟩
  | .threshold .goldenRisk =>
    some ⟨"GOLDENPATH_GOLDEN_RISK_THRESHOLD", .threshold .goldenRisk, .float⟩
  | .threshold .riskRisk => some ⟨"GOLDENPATH_RISK_THRESHOLD", .threshold .riskRisk, .float⟩
  | _ => none

/-- A variable is known if it is the one that sets its target: no two variables set the same. -/
theorem mem_knownVariables_iff {v : Variable} :
    v ∈ knownVariables ↔ v.target.setBy? = some v := by
  refine ⟨?_, ?_⟩
  · have hall : ∀ v ∈ knownVariables, v.target.setBy? = some v := by decide
    exact hall v
  · intro h
    have hall : ∀ target : Target, ∀ v ∈ target.setBy?, v ∈ knownVariables := by
      rintro (name | name) <;> cases name <;> decide
    exact hall v.target v h

theorem target_of_setBy? {target : Target} {v : Variable} (h : target.setBy? = some v) :
    v.target = target := by
  have hall : ∀ target : Target, ∀ v ∈ target.setBy?, v.target = target := by
    rintro (name | name) <;> cases name <;> decide
  exact hall target v h

end Target

/-- The value that the fields of a file give. -/
def fileValue? (fields : Fields Json) (target : Target) : Option Json :=
  (Fields.get? target.key fields).bind target.within

/-- The value of a variable, if it is set and can be read. -/
def reading? (env : Environment) (v : Variable) : Option Json :=
  (env.get? v.name).bind v.reading.value?

/-- The value that the environment gives. -/
def environmentValue? (env : Environment) (target : Target) : Option Json :=
  target.setBy?.bind (reading? env)

/-! ## One step and many -/

/-- What one step does: it gives some targets a value, and it records names under one origin. -/
structure Overriding {α : Type} (origin : Origin) (gives : α → Target → Option Json)
    (marks : α → List String) (step : Settings → α → Settings × List Event) : Prop where
  get_step : ∀ s x target, (step s x).1.get target = (gives x target).getD (s.get target)
  sources_step : ∀ s x, (step s x).1.sources = Fields.putAll (marks x) origin s.sources

section Run

variable {α : Type} {origin : Origin} {gives : α → Target → Option Json} {marks : α → List String}
  {step : Settings → α → Settings × List Event}

/-- Reports do not change what a run does. -/
theorem fst_foldl_step (step : Settings → α → Settings × List Event) (xs : List α)
    (acc : Settings × List Event) :
    (xs.foldl (fun acc x => ((step acc.1 x).1, acc.2 ++ (step acc.1 x).2)) acc).1 =
      xs.foldl (fun s x => (step s x).1) acc.1 := by
  induction xs generalizing acc with
  | nil => rfl
  | cons x xs ih => exact ih _

/-- The last value that is given counts. -/
theorem Overriding.get_run (h : Overriding origin gives marks step) (xs : List α) (s : Settings)
    (target : Target) : (xs.foldl (fun s x => (step s x).1) s).get target =
      (xs.reverse.findSome? (gives · target)).getD (s.get target) := by
  induction xs generalizing s with
  | nil => rfl
  | cons x xs ih =>
    rw [List.foldl_cons, ih, h.get_step, List.reverse_cons, List.findSome?_append,
      List.findSome?_singleton]
    cases xs.reverse.findSome? (gives · target) <;> rfl

/-- What many steps mark as their own is what each of them marks, one after the other. -/
theorem Overriding.sources_run (h : Overriding origin gives marks step) (xs : List α)
    (s : Settings) : (xs.foldl (fun s x => (step s x).1) s).sources =
      Fields.putAll (xs.flatMap marks) origin s.sources := by
  induction xs generalizing s with
  | nil => rfl
  | cons x xs ih =>
    rw [List.foldl_cons, ih, h.sources_step, List.flatMap_cons, Fields.putAll_append]

/-- Where only one element can give a value, it does not matter where it stands. -/
theorem findSome?_of_unique {β : Type} {g : α → Option β} {xs : List α} {x : α} (hx : x ∈ xs)
    (h : ∀ y ∈ xs, g y ≠ none → y = x) : xs.findSome? g = g x := by
  induction xs with
  | nil => cases hx
  | cons y ys ih =>
    rw [List.findSome?_cons]
    cases hy : g y with
    | some b =>
      have heq : y = x := h y List.mem_cons_self (by rw [hy]; exact Option.some_ne_none b)
      rw [← heq, hy]
    | none =>
      have hys : ∀ z ∈ ys, g z ≠ none → z = x := fun z hz => h z (List.mem_cons_of_mem y hz)
      rcases List.mem_cons.1 hx with rfl | hx
      · rw [hy]
        refine List.findSome?_eq_none_iff.2 fun z hz => ?_
        by_contra hne
        rw [hys z hz hne] at hne
        exact hne hy
      · exact ih hx hys

end Run

/-! ## The fields of a file -/

/-- Whether a field means something: it is a setting, or it holds thresholds. -/
def means (field : String × Json) : Bool :=
  (Named.ofName? field.1 : Option Setting).isSome ||
    decide (field.1 = thresholdsKey ∧ field.2.kind = .table)

/-- The names that a field records. -/
def fieldMarks (field : String × Json) : List String :=
  match (Named.ofName? field.1 : Option Setting), field.2 with
  | some name, _ => [Named.name name]
  | none, .object table =>
    if field.1 = thresholdsKey then (Fields.keys table).map thresholdSource else []
  | none, _ => []

/-- What a field can be. -/
theorem field_cases (field : String × Json) :
    (∃ (n : Setting) (value : Json), field = (Named.name n, value)) ∨
      (∃ table, field = (thresholdsKey, .object table)) ∨ means field = false := by
  obtain ⟨key, value⟩ := field
  cases hname : (Named.ofName? key : Option Setting) with
  | some n => exact Or.inl ⟨n, value, by rw [Named.name_of_ofName? hname]⟩
  | none =>
    by_cases htable : key = thresholdsKey ∧ value.kind = .table
    · obtain ⟨rfl, hkind⟩ := htable
      cases value with
      | object table => exact Or.inr (Or.inl ⟨table, rfl⟩)
      | number n => cases n <;> cases hkind
      | _ => cases hkind
    · refine Or.inr (Or.inr ?_)
      rw [means, hname, decide_eq_false htable]
      rfl

section Equations

variable (s : Settings) (n : Setting) (value : Json) (table : Fields Json)
  {field : String × Json}

/-- The three kinds of fields: a setting, the table of thresholds, and anything else. -/
theorem applyField_name : s.applyField (Named.name n, value) = (s.set n value .file, []) := by
  unfold applyField
  rw [Setting.ofName?_name]

theorem applyField_thresholds : s.applyField (thresholdsKey, .object table) =
    (s.overrideThresholds table .file, []) := rfl

theorem fieldMarks_name : fieldMarks (Named.name n, value) = [Named.name n] := by
  unfold fieldMarks
  rw [Setting.ofName?_name]

theorem fieldMarks_thresholds : fieldMarks (thresholdsKey, .object table) =
    (Fields.keys table).map thresholdSource := rfl

theorem ofName?_of_meaningless (h : means field = false) :
    (Named.ofName? field.1 : Option Setting) = none := by
  rw [means, Bool.or_eq_false_iff] at h
  exact Option.not_isSome_iff_eq_none.1 (by simp [h.1])

theorem key_ne_of_meaningless {key : String} (h : means (key, .object table) = false) :
    key ≠ thresholdsKey := by
  rintro rfl
  cases h

/-- A field without a meaning changes nothing and is reported. -/
theorem applyField_of_meaningless (h : means field = false) :
    s.applyField field = (s, [.unknownSetting field.1]) := by
  obtain ⟨key, value⟩ := field
  unfold applyField
  rw [ofName?_of_meaningless h]
  cases value with
  | object table => exact if_neg (key_ne_of_meaningless table h)
  | _ => rfl

theorem fieldMarks_of_meaningless (h : means field = false) : fieldMarks field = [] := by
  obtain ⟨key, value⟩ := field
  unfold fieldMarks
  rw [ofName?_of_meaningless h]
  cases value with
  | object table => exact if_neg (key_ne_of_meaningless table h)
  | _ => rfl

end Equations

section Single

variable {key : String} {value : Json} {target : Target}

/-- What a file of one field says about a target. -/
theorem fileValue?_single_of_eq (h : key = target.key) :
    fileValue? [(key, value)] target = target.within value := by
  rw [fileValue?, Fields.get?_cons, if_pos h]
  rfl

theorem fileValue?_single_of_ne (h : key ≠ target.key) :
    fileValue? [(key, value)] target = none := by
  rw [fileValue?, Fields.get?_cons, if_neg h]
  rfl

/-- A field without a meaning says nothing about any target. -/
theorem fileValue?_single_of_meaningless (h : means (key, value) = false) (target : Target) :
    fileValue? [(key, value)] target = none := by
  by_cases hkey : key = target.key
  · rw [fileValue?_single_of_eq hkey]
    cases target with
    | setting n =>
      -- the key of a setting always means something
      have hname := ofName?_of_meaningless h
      rw [show key = Named.name n from hkey, Setting.ofName?_name] at hname
      cases hname
    | threshold t =>
      cases value with
      | object table => exact absurd hkey (key_ne_of_meaningless table h)
      | _ => rfl
  · exact fileValue?_single_of_ne hkey

end Single

theorem get_set (s : Settings) (n : Setting) (value : Json) (target : Target) :
    (s.set n value .file).get target =
      (fileValue? [(Named.name n, value)] target).getD (s.get target) := by
  cases target with
  | setting n' =>
    show (if n' = n then value else s.value n') = _
    by_cases hn : n' = n
    · subst hn
      have hkey : Named.name n' = (Target.setting n').key := rfl
      rw [if_pos rfl, fileValue?_single_of_eq hkey]
      rfl
    · rw [if_neg hn, fileValue?_single_of_ne fun h => hn (Setting.name_inj.1 h).symm]
      rfl
  | threshold t =>
    rw [fileValue?_single_of_ne (name_ne_thresholdsKey n)]
    rfl

/-- Thresholds that the table does not name stay as they were, and names that are no thresholds are
    passed over. -/
theorem get_overrideThresholds (s : Settings) (table : Fields Json) (target : Target) :
    (s.overrideThresholds table .file).get target =
      (fileValue? [(thresholdsKey, .object table)] target).getD (s.get target) := by
  cases target with
  | setting n =>
    rw [fileValue?_single_of_ne (name_ne_thresholdsKey n).symm]
    rfl
  | threshold t =>
    have hkey : thresholdsKey = (Target.threshold t).key := rfl
    rw [fileValue?_single_of_eq hkey]
    rfl

/-- Every name in the table is marked, whether it is a threshold or not. -/
theorem sources_overrideThresholds (s : Settings) (table : Fields Json) :
    (s.overrideThresholds table .file).sources =
      Fields.putAll ((Fields.keys table).map thresholdSource) .file s.sources := by
  rw [Fields.putAll, List.foldl_map]
  rfl

/-- One field is one step of overriding. -/
theorem overriding_applyField :
    Overriding .file (fun field => fileValue? [field]) fieldMarks applyField where
  get_step s field target := by
    obtain ⟨n, value, rfl⟩ | ⟨table, rfl⟩ | hmeans := field_cases field
    · rw [applyField_name, get_set]
    · rw [applyField_thresholds, get_overrideThresholds]
    · rw [applyField_of_meaningless s hmeans, fileValue?_single_of_meaningless hmeans]
      rfl
  sources_step s field := by
    obtain ⟨n, value, rfl⟩ | ⟨table, rfl⟩ | hmeans := field_cases field
    · rw [applyField_name, fieldMarks_name]
      rfl
    · rw [applyField_thresholds, fieldMarks_thresholds, sources_overrideThresholds]
    · rw [applyField_of_meaningless s hmeans, fieldMarks_of_meaningless hmeans]
      rfl

/-- If no key stands twice, the only value for a target is the last. -/
theorem findSome?_fileValue? {fields : Fields Json} (h : (Fields.keys fields).Nodup)
    (target : Target) :
    fields.reverse.findSome? (fun field => fileValue? [field] target) =
      fileValue? fields target := by
  cases hget : Fields.get? target.key fields with
  | none =>
    rw [fileValue?, hget]
    refine List.findSome?_eq_none_iff.2 fun field hfield => fileValue?_single_of_ne fun hkey => ?_
    apply Fields.get?_eq_none_iff.1 hget
    rw [← hkey]
    exact List.mem_map_of_mem (List.mem_reverse.1 hfield)
  | some value =>
    have hmem : (target.key, value) ∈ fields.reverse := List.mem_reverse.2 (Fields.mem_of_get? hget)
    rw [findSome?_of_unique hmem, fileValue?_single_of_eq rfl, fileValue?, hget]
    · rfl
    · rintro ⟨key, value'⟩ hfield hgives
      have hkey : key = target.key := by
        by_contra hne
        exact hgives (fileValue?_single_of_ne hne)
      subst hkey
      have hget' := Fields.get?_of_mem h (List.mem_reverse.1 hfield)
      rw [hget] at hget'
      cases hget'
      rfl

/-- With distinct keys, what the fields leave is told by a look-up and not by their order. -/
theorem get_applyFields (s : Settings) {fields : Fields Json} (h : (Fields.keys fields).Nodup)
    (target : Target) :
    (s.applyFields fields).1.get target = (fileValue? fields target).getD (s.get target) := by
  rw [applyFields, fst_foldl_step, overriding_applyField.get_run, findSome?_fileValue? h]

/-- The marks of the fields, in order. -/
theorem sources_applyFields (s : Settings) (fields : Fields Json) :
    (s.applyFields fields).1.sources =
      Fields.putAll (fields.flatMap fieldMarks) .file s.sources := by
  rw [applyFields, fst_foldl_step, overriding_applyField.sources_run]

/-! ## The variables of the environment -/

/-- The names that a variable records. -/
def variableMarks (env : Environment) (v : Variable) : List String :=
  if (reading? env v).isSome then [v.target.source] else []

/-- A variable that is not set, or cannot be read, changes nothing. -/
theorem applyVariable_eq (env : Environment) (s : Settings) (v : Variable) :
    (applyVariable env s v).1 = ((reading? env v).map (s.override v.target)).getD s := by
  unfold applyVariable reading?
  cases env.get? v.name with
  | none => rfl
  | some raw =>
    dsimp only [Option.bind_some]
    cases v.reading.value? raw <;> rfl

/-- Overriding one target leaves every other as it was. -/
theorem get_override (s : Settings) (target target' : Target) (value : Json) :
    (s.override target value).get target' = if target = target' then value else s.get target' := by
  cases target <;> cases target' <;>
    simp [override, get, set, setThreshold, Thresholds.set, eq_comm]

theorem sources_override (s : Settings) (target : Target) (value : Json) :
    (s.override target value).sources = s.sources.put target.source .environment := by
  cases target <;> rfl

/-- One variable is one step of overriding, of its own target. -/
theorem overriding_applyVariable (env : Environment) :
    Overriding .environment (fun v target => if v.target = target then reading? env v else none)
      (variableMarks env) (applyVariable env) where
  get_step s v target := by
    rw [applyVariable_eq]
    cases reading? env v with
    | none => simp
    | some value =>
      show (s.override v.target value).get target = _
      rw [get_override]
      split <;> rfl
  sources_step s v := by
    rw [applyVariable_eq, variableMarks]
    cases reading? env v with
    | none => rfl
    | some value => exact sources_override s v.target value

/-- Since each target has one variable at most, the order of the variables does not matter. -/
theorem findSome?_reading? (env : Environment) (target : Target) :
    knownVariables.reverse.findSome? (fun v => if v.target = target then reading? env v else none) =
      environmentValue? env target := by
  unfold environmentValue?
  have hsetBy : ∀ v ∈ knownVariables.reverse, v.target = target → target.setBy? = some v := by
    rintro v hv rfl
    exact Target.mem_knownVariables_iff.1 (List.mem_reverse.1 hv)
  cases hvar : target.setBy? with
  | none =>
    refine List.findSome?_eq_none_iff.2 fun v hv => if_neg fun htarget => ?_
    rw [hsetBy v hv htarget] at hvar
    cases hvar
  | some v =>
    have htarget := Target.target_of_setBy? hvar
    have hmem : v ∈ knownVariables.reverse := by
      rw [List.mem_reverse, Target.mem_knownVariables_iff, htarget, hvar]
    rw [findSome?_of_unique hmem, if_pos htarget]
    · rfl
    · intro v' hv' hgives
      have htarget' : v'.target = target := by
        by_contra hne
        exact hgives (if_neg hne)
      rw [hsetBy v' hv' htarget'] at hvar
      exact Option.some.inj hvar

/-- What the environment leaves is told by the variable of the target. -/
theorem get_applyEnvironment (env : Environment) (s : Settings) (target : Target) :
    (applyEnvironment env s).1.get target = (environmentValue? env target).getD (s.get target) := by
  rw [applyEnvironment, fst_foldl_step, (overriding_applyVariable env).get_run, findSome?_reading?]

theorem sources_applyEnvironment (env : Environment) (s : Settings) :
    (applyEnvironment env s).1.sources =
      Fields.putAll (knownVariables.flatMap (variableMarks env)) .environment s.sources := by
  rw [applyEnvironment, fst_foldl_step, (overriding_applyVariable env).sources_run]

end Settings
end PathTriage
