import PathTriage.Proofs.Settings.Sources

/-!
Settings read back from the document that they are written to.

The document lists every setting under its name, all thresholds together under one key, and the
sources. What is read back has the same values, because each stands where it is looked for
(`fileValue?_toFields`). The sources of the document are not read: every value now comes from the
document itself, and there are nineteen of them.
-/

namespace PathTriage

/-- The list of settings has every one of them, so a statement about the list is about all. -/
theorem Setting.mem_all (n : Setting) : n ∈ (Named.all : List Setting) :=
  List.mem_of_find?_eq_some (ofName?_name n)

theorem Threshold.mem_all (t : Threshold) : t ∈ (Named.all : List Threshold) :=
  List.mem_of_find?_eq_some (ofName?_name t)

namespace Settings

/-! ## The document -/

/-- The thresholds by name. -/
def thresholdFields (t : Thresholds Json) : Fields Json :=
  (Named.all : List Threshold).map fun n => (Named.name n, t n)

/-- The fields of the document. -/
def toFields (s : Settings) : Fields Json :=
  (Named.all : List Setting).map (fun n => (Named.name n, s.value n)) ++
    [(thresholdsKey, .object (thresholdFields s.thresholds)),
     ("sources", .object (s.sources.map fun e => (e.1, .string (Named.name e.2))))]

theorem toJson_eq (s : Settings) : s.toJson = .object s.toFields := rfl

/-- A document has no key twice, since the names of settings differ from each other and from the key
    of the thresholds. -/
theorem nodup_keys_toFields (s : Settings) : (Fields.keys s.toFields).Nodup := by
  show (Named.names Setting ++ [thresholdsKey, "sources"]).Nodup
  decide

theorem nodup_keys_thresholdFields (t : Thresholds Json) :
    (Fields.keys (thresholdFields t)).Nodup := by
  show (Named.names Threshold).Nodup
  decide

/-- Under the name of a setting stands its value. -/
theorem get?_toFields_name (s : Settings) (n : Setting) :
    Fields.get? (Named.name n) s.toFields = some (s.value n) := by
  refine Fields.get?_of_mem s.nodup_keys_toFields (List.mem_append_left _ ?_)
  exact List.mem_map_of_mem (f := fun n => (Named.name n, s.value n)) n.mem_all

/-- Under the key of the thresholds stands the table of them. -/
theorem get?_toFields_thresholdsKey (s : Settings) :
    Fields.get? thresholdsKey s.toFields = some (.object (thresholdFields s.thresholds)) :=
  Fields.get?_of_mem s.nodup_keys_toFields (List.mem_append_right _ List.mem_cons_self)

/-- Under the name of a threshold stands its value, whatever kind of value it is. -/
theorem get?_thresholdFields (t : Thresholds Json) (n : Threshold) :
    Fields.get? (Named.name n) (thresholdFields t) = some (t n) := by
  refine Fields.get?_of_mem (nodup_keys_thresholdFields t) ?_
  exact List.mem_map_of_mem (f := fun n => (Named.name n, t n)) n.mem_all

/-- The document gives every setting and every threshold its value. -/
theorem fileValue?_toFields (s : Settings) (target : Target) :
    fileValue? s.toFields target = some (s.get target) := by
  cases target with
  | setting n =>
    show (Fields.get? (Named.name n) s.toFields).bind _ = _
    rw [get?_toFields_name]
    rfl
  | threshold t =>
    show (Fields.get? thresholdsKey s.toFields).bind _ = _
    rw [get?_toFields_thresholdsKey]
    exact get?_thresholdFields s.thresholds t

/-- A document has no key that means nothing, so reading it back reports nothing. -/
theorem not_stray_toFields (s : Settings) (name : String) : ¬Stray s.toFields name := by
  rintro ⟨table, hget, hname, hnone⟩
  rw [get?_toFields_thresholdsKey] at hget
  cases hget
  -- whatever stands in the document under the thresholds has the name of one
  obtain ⟨_, hentry, rfl⟩ := List.mem_map.1 hname
  obtain ⟨t, -, rfl⟩ := List.mem_map.1 hentry
  rw [Threshold.ofName?_name] at hnone
  cases hnone

/-! ## Reading it back -/

/-- All settings and thresholds. -/
def Target.all : List Target :=
  (Named.all : List Setting).map .setting ++ (Named.all : List Threshold).map .threshold

theorem Target.mem_all (target : Target) : target ∈ all := by
  cases target with
  | setting n => exact List.mem_append_left _ (List.mem_map_of_mem n.mem_all)
  | threshold t => exact List.mem_append_right _ (List.mem_map_of_mem t.mem_all)

section ReadBack

variable (s : Settings)

/-- Every setting and every threshold comes back as it was. -/
theorem get_applyFields_toFields (target : Target) :
    (initial.applyFields s.toFields).1.get target = s.get target := by
  rw [get_applyFields initial s.nodup_keys_toFields, fileValue?_toFields]
  rfl

/-- Everything that is read back has the file as its source, and nothing else has a source. -/
theorem get?_sources_applyFields_toFields (key : String) (origin : Origin) :
    Fields.get? key (initial.applyFields s.toFields).1.sources = some origin ↔
      origin = .file ∧ ∃ target : Target, key = target.source := by
  have hmarks : key ∈ s.toFields.flatMap fieldMarks ↔ ∃ target : Target, key = target.source := by
    rw [mem_fieldMarks s.nodup_keys_toFields, or_iff_left]
    · simp only [fileValue?_toFields, Option.some.injEq, exists_eq', and_true]
    · rintro ⟨name, -, hstray⟩
      exact s.not_stray_toFields name hstray
  rw [sources_applyFields, ← hmarks]
  exact Fields.get?_putAll_nil

/-- The sources are those of the eight settings and the eleven thresholds, each once. -/
theorem length_sources_applyFields_toFields :
    (initial.applyFields s.toFields).1.sources.length = 19 := by
  have hnames : (Target.all.map Target.source).Nodup := by decide
  have hperm : (Fields.keys (initial.applyFields s.toFields).1.sources).Perm
      (Target.all.map Target.source) := by
    refine (List.perm_ext_iff_of_nodup (nodup_keys_sources_applyFields s.toFields) hnames).2 ?_
    intro key
    simp only [Fields.mem_keys_iff, get?_sources_applyFields_toFields, List.mem_map]
    refine ⟨?_, ?_⟩
    · rintro ⟨_, -, target, rfl⟩
      exact ⟨target, target.mem_all, rfl⟩
    · rintro ⟨target, -, rfl⟩
      exact ⟨.file, rfl, target, rfl⟩
  have hlength := hperm.length_eq
  rw [Fields.keys, List.length_map] at hlength
  rw [hlength]
  rfl

end ReadBack

/-- Settings that are read back from their document have the same values, and their sources name all
    nineteen settings and thresholds as coming from it, whatever the sources were before. -/
theorem applyFields_toJson (s : Settings) :
    ∃ fields, s.toJson = .object fields ∧
      (∀ target, (initial.applyFields fields).1.get target = s.get target) ∧
      (∀ key origin, Fields.get? key (initial.applyFields fields).1.sources = some origin ↔
        origin = .file ∧ ∃ target : Target, key = target.source) ∧
      (Fields.keys (initial.applyFields fields).1.sources).Nodup ∧
      (initial.applyFields fields).1.sources.length = 19 :=
  ⟨s.toFields, s.toJson_eq, s.get_applyFields_toFields, s.get?_sources_applyFields_toFields,
    nodup_keys_sources_applyFields s.toFields, s.length_sources_applyFields_toFields⟩

end Settings
end PathTriage
