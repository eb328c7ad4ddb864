import PathTriage.Proofs.Settings.Overriding

/-!
The layers that settings are made of: initial values, a file, the environment.

The file is the first one that is there, and no object that it holds has a key twice, so the order
of its fields does not matter. What a setting or threshold ends up with is then told by three
look-ups (`load_layers`).
-/

namespace PathTriage.Settings

/-! ## The file that is read -/

/-- The paths at which settings are looked for. An empty name counts as none. -/
def candidates (named : Option String) : List String :=
  match named.filter fun path => !path.isEmpty with
  | some path => [Path.tidy path]
  | none => usualFiles

/-- A program reads its settings from an object with the given fields: the first path that leads
    anywhere leads to a file that holds it. -/
def Configured (look : String → FileEntry) (named : Option String) (fields : Fields Json) : Prop :=
  ∃ before path after, candidates named = before ++ path :: after ∧
    (∀ p ∈ before, (look p).isThere = .ok false) ∧ (look path).readJson path = .ok (.object fields)

section Load

variable {look : String → FileEntry} {named : Option String} {fields : Fields Json}

/-- A path from which something could be read leads somewhere. -/
theorem isThere_of_readJson {path : String} {entry : FileEntry} {v : Json}
    (h : entry.readJson path = .ok v) : entry.isThere = .ok true := by
  cases entry with
  | file bytes => rfl
  | directory => rfl
  | _ => cases h

/-- No object in a file has a key twice, however the file was written. -/
theorem distinctKeys_of_readJson {path : String} {entry : FileEntry} {v : Json}
    (h : entry.readJson path = .ok v) : v.DistinctKeys := by
  unfold FileEntry.readJson at h
  split at h
  · cases h
  · next cs _ =>
    cases hread : Json.read cs with
    | error e => rw [hread] at h; cases h
    | ok v' =>
      rw [hread] at h
      cases h
      exact Json.distinctKeys_of_read hread

/-- So the fields of a settings file have distinct keys. -/
theorem Configured.nodup_keys (h : Configured look named fields) : (Fields.keys fields).Nodup := by
  obtain ⟨_, path, _, -, -, hread⟩ := h
  exact distinctKeys_of_readJson hread

/-- The first path that leads anywhere is taken; the paths after it are not looked at. -/
theorem firstThere_append {before after : List String} {path : String}
    (hbefore : ∀ p ∈ before, (look p).isThere = .ok false)
    (hpath : (look path).isThere = .ok true) :
    (firstThere (m := Id) look (before ++ path :: after)).run = .ok (some (path, look path)) := by
  induction before with
  | nil =>
    rw [List.nil_append, firstThere, Id.run_bind]
    rw [show (Id.run (look path)).isThere = _ from hpath]
    rfl
  | cons p before ih =>
    rw [List.cons_append, firstThere, Id.run_bind]
    rw [show (Id.run (look p)).isThere = _ from hbefore p List.mem_cons_self]
    exact ih fun q hq => hbefore q (List.mem_cons_of_mem p hq)

/-- Settings start from the initial ones and take in the fields of the file. -/
theorem Configured.fromFile_eq (h : Configured look named fields) :
    (fromFile (m := Id) look named).run = .ok (initial.applyFields fields) := by
  obtain ⟨before, path, after, hpaths, hbefore, hread⟩ := h
  show (firstThere (m := Id) look (candidates named) >>= _).run = _
  rw [Id.run_bind, hpaths, firstThere_append hbefore (isThere_of_readJson hread)]
  show applyFile path (look path) initial = _
  rw [applyFile, hread]

/-- Loading takes in the file and then the environment. -/
theorem Configured.load_eq (h : Configured look named fields) (env : Environment) :
    ∃ events, (load (m := Id) look env named).run =
      .ok ((applyEnvironment env (initial.applyFields fields).1).1, events) := by
  have hfile : fromFile (m := Id) look named = Except.ok (initial.applyFields fields) :=
    h.fromFile_eq
  unfold load
  rw [hfile]
  -- what taking in the environment does is of no interest here, and takes long to unfold
  generalize applyEnvironment env = apply
  exact ⟨(initial.applyFields fields).2 ++ (apply (initial.applyFields fields).1).2, rfl⟩

/-- The environment comes before the file, and the file before the initial values. -/
theorem Configured.get_load (h : Configured look named fields) (env : Environment)
    (target : Target) : (applyEnvironment env (initial.applyFields fields).1).1.get target =
      ((environmentValue? env target).or (fileValue? fields target)).getD (initial.get target) := by
  rw [get_applyEnvironment, get_applyFields initial h.nodup_keys]
  cases environmentValue? env target <;> rfl

end Load

/-! ## What counts for nothing -/

/-- Fields without a meaning can be left out, as far as the settings go. -/
theorem applyFields_filter_means (s : Settings) (fields : Fields Json) :
    (s.applyFields (fields.filter means)).1 = (s.applyFields fields).1 := by
  rw [applyFields, applyFields, fst_foldl_step, fst_foldl_step, List.foldl_filter]
  congr 1
  funext s field
  split
  · rfl
  · next hmeans => rw [applyField_of_meaningless s (Bool.eq_false_iff.2 hmeans)]

/-- A variable with its text, if it is set and can be read. -/
def legible? (env : Environment) (v : Variable) : Option (String × String) :=
  (env.get? v.name).bind fun raw => (v.reading.value? raw).map fun _ => (v.name, raw)

/-- The environment in which only the variables that can be read are set. -/
def readable (env : Environment) : Environment := knownVariables.filterMap (legible? env)

/-- A variable counts if it is set to a text that can be read as its kind of value. -/
theorem legible?_eq_some {env : Environment} {v : Variable} {name raw : String} :
    legible? env v = some (name, raw) ↔
      v.name = name ∧ env.get? name = some raw ∧ ∃ value, v.reading.value? raw = some value := by
  simp only [legible?, Option.bind_eq_some_iff, Option.map_eq_some_iff, Prod.mk.injEq]
  refine ⟨?_, ?_⟩
  · rintro ⟨_, hraw, value, hvalue, rfl, rfl⟩
    exact ⟨rfl, hraw, value, hvalue⟩
  · rintro ⟨rfl, hraw, value, hvalue⟩
    exact ⟨raw, hraw, value, hvalue, rfl, rfl⟩

theorem nodup_keys_readable (env : Environment) : (Fields.keys (readable env)).Nodup := by
  have hnames : knownVariables.Pairwise fun v v' => v.name ≠ v'.name := by decide
  rw [Fields.keys, readable, List.Nodup, List.pairwise_map, List.pairwise_filterMap]
  refine hnames.imp fun {v v'} hne => ?_
  rintro ⟨name, raw⟩ h ⟨name', raw'⟩ h'
  rw [← (legible?_eq_some.1 h).1, ← (legible?_eq_some.1 h').1]
  exact hne

/-- What is read from a variable is the same once all that cannot be read is left out. -/
theorem reading?_readable (env : Environment) {v : Variable} (h : v ∈ knownVariables) :
    reading? (readable env) v = reading? env v := by
  refine Option.ext fun value => ?_
  simp only [reading?, Option.bind_eq_some_iff]
  refine ⟨?_, ?_⟩
  · rintro ⟨raw, hraw, hvalue⟩
    -- the entry may come from any variable of that name, but its text is that of the name
    obtain ⟨v', -, hentry⟩ := List.mem_filterMap.1 (Fields.mem_of_get? hraw)
    exact ⟨raw, (legible?_eq_some.1 hentry).2.1, hvalue⟩
  · rintro ⟨raw, hraw, hvalue⟩
    have hentry : legible? env v = some (v.name, raw) :=
      legible?_eq_some.2 ⟨rfl, hraw, value, hvalue⟩
    have hmem : (v.name, raw) ∈ readable env := List.mem_filterMap.2 ⟨v, h, hentry⟩
    exact ⟨raw, Fields.get?_of_mem (nodup_keys_readable env) hmem, hvalue⟩

/-- Variables that are unknown or cannot be read change nothing. -/
theorem applyEnvironment_readable (env : Environment) (s : Settings) :
    (applyEnvironment (readable env) s).1 = (applyEnvironment env s).1 := by
  rw [applyEnvironment, applyEnvironment, fst_foldl_step, fst_foldl_step]
  refine List.foldl_ext _ _ _ fun s v hv => ?_
  rw [applyVariable_eq, applyVariable_eq, reading?_readable env hv]

/-! ## Layers -/

/-- Every setting and every threshold has the value of its variable, if that is set and can be read,
    otherwise that of the file, if it has one, and otherwise the initial value. Fields that mean
    nothing and variables that cannot be read could as well not be there. -/
theorem load_layers {look : String → FileEntry} {named : Option String} {fields : Fields Json}
    (hfile : Configured look named fields) (env : Environment) :
    ∃ s events, (load (m := Id) look env named).run = .ok (s, events) ∧
      (∀ target, s.get target =
        ((environmentValue? env target).or (fileValue? fields target)).getD (initial.get target)) ∧
      s = (applyEnvironment (readable env) (initial.applyFields (fields.filter means)).1).1 := by
  obtain ⟨events, hload⟩ := hfile.load_eq env
  refine ⟨_, events, hload, hfile.get_load env, ?_⟩
  rw [applyEnvironment_readable, applyFields_filter_means]

/-- The only file is the second one that settings are looked for in. -/
def onlyFile (text : String) (path : String) : FileEntry :=
  if path = "goldenpath.json" then .file text.toUTF8 else .missing

theorem configured_onlyFile {text : String} {fields : Fields Json}
    (h : (FileEntry.file text.toUTF8).readJson "goldenpath.json" = .ok (.object fields)) :
    Configured (onlyFile text) none fields := by
  refine ⟨[".goldenpath/config.json"], "goldenpath.json", [], rfl, ?_, h⟩
  intro p hp
  rw [List.mem_singleton.1 hp]
  rfl

/-- A file with a key that means nothing, one threshold, and settings behind it. -/
def mixedText : String :=
  "\x7b\"x\":1,\"thresholds\":\x7b\"complexity_threshold\":9\x7d," ++
    "\"max_workers\":2,\"max_paths\":\"many\"\x7d"

def mixedFields : Fields Json :=
  [("x", .ofInt 1), ("thresholds", .object [("complexity_threshold", .ofInt 9)]),
   ("max_workers", .ofInt 2), ("max_paths", .string "many")]

/-- The workers are set, and the timeout is set to what is no number. -/
def mixedEnvironment : Environment :=
  [("GOLDENPATH_BATCH_TIMEOUT", "soon"), ("GOLDENPATH_MAX_WORKERS", " 4 ")]

theorem load_layers_mixed :
    Configured (onlyFile mixedText) none mixedFields ∧
      ∃ s events,
        (load (m := Id) (onlyFile mixedText) mixedEnvironment none).run = .ok (s, events) ∧
        s.value .maxWorkers = .ofInt 4 ∧ s.value .maxPaths = .string "many" ∧
        s.value .batchTimeout = .ofFloat 30 ∧ s.thresholds .complexity = .ofInt 9 ∧
        s.thresholds .goldenRisk = .ofFloat 0.3 := by
  have hfile : Configured (onlyFile mixedText) none mixedFields :=
    configured_onlyFile (by with_unfolding_all rfl)
  obtain ⟨s, events, hload, hget, -⟩ := load_layers hfile mixedEnvironment
  refine ⟨hfile, s, events, hload, ?_, ?_, ?_, ?_, ?_⟩
  · exact (hget (.setting .maxWorkers)).trans (by with_unfolding_all rfl)
  · exact (hget (.setting .maxPaths)).trans (by with_unfolding_all rfl)
  · exact (hget (.setting .batchTimeout)).trans (by with_unfolding_all rfl)
  · exact (hget (.threshold .complexity)).trans (by with_unfolding_all rfl)
  · exact (hget (.threshold .goldenRisk)).trans (by with_unfolding_all rfl)

end PathTriage.Settings
