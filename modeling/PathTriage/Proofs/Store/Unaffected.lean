import PathTriage.Proofs.Store.Renaming

/-!
Updates that report nothing as affected.

Each kind of change has a count of its own, and a count of nothing has to mean that the change did
nothing. For removals it does, since they count what they lose; for a rename, since it counts what
it moves; for an added file, since it counts what it brings. The replacement of a file counts what
it brings and what it restores, but not what it takes out: a file that is analysed again and has
nothing left in it takes its methods and classes along unreported (`applyChange_quiet`). This is the
only way for an update to change a store and report nothing (`update_unaffected`).
-/

namespace PathTriage

theorem Tally.add_eq_zero {t u : Tally} : t.add u = {} ↔ t = {} ∧ u = {} := by
  obtain ⟨n, l⟩ := t
  obtain ⟨n', l'⟩ := u
  simp only [Tally.add, Tally.mk.injEq]
  omega

namespace FileChange

/-- The analysis of the file of a change, if there is one. -/
def analysis? (analyzer : Option Analyzer) (c : FileChange) : Option FileAnalysis :=
  analyzer.bind fun analyze => (analyze c.filePath).toOption

/-- The file that a change of a modified file analyses again. -/
def analysedAgain? (analyzer : Option Analyzer) (c : FileChange) : Option String :=
  if c.kind = .modified then (c.analysis? analyzer).map (·.filePath) else none

end FileChange

namespace Store

/-- The files that a list of changes has analysed again. -/
def analysedAgain (analyzer : Option Analyzer) (cs : List FileChange) : List String :=
  cs.filterMap (·.analysedAgain? analyzer)

/-! ## Steps that count nothing -/

section Steps

variable {s : Store}

/-- Links of which a store accepts none change nothing. -/
theorem foldl_of_accepted {β : Type} {add : Store → β → Store} {ends : β → Arrow}
    {label : β → String} (hadd : ∀ l, ¬s.knows (ends l) = true → add s l = s) {ls : List β}
    (h : s.accepted (ls.map fun l => (ends l, label l)) = 0) : ls.foldl add s = s := by
  rw [accepted, List.countP_map, List.countP_eq_zero] at h
  exact foldl_eq_self fun l hl => hadd l (h l hl)

theorem addCalls_of_accepted {cs : List Call} (h : s.accepted (callLabels cs) = 0) :
    cs.foldl addCall s = s :=
  foldl_of_accepted (fun c hc => by rw [addCall, if_neg hc]) h

theorem restore_of_accepted {k : Kept} (h : s.accepted k.labels = 0) : s.restore k = s := by
  rw [accepted, Kept.labels, List.countP_append, List.countP_append, Nat.add_eq_zero_iff,
    Nat.add_eq_zero_iff] at h
  obtain ⟨⟨hcalls, himpls⟩, hflows⟩ := h
  have himpls : k.implementations.foldl addImplementation s = s :=
    foldl_of_accepted (fun i hi => by rw [addImplementation, if_neg hi]) himpls
  have hflows : k.dataFlows.foldl addDataFlow s = s :=
    foldl_of_accepted (fun f hf => by rw [addDataFlow, if_neg hf]) hflows
  rw [restore, addCalls_of_accepted hcalls, himpls, hflows]

/-- An analysis without classes and methods, of whose calls none is accepted, changes nothing. -/
theorem applyAnalysis_of_quiet {a : FileAnalysis}
    (h : (⟨a.classes.length + a.methods.length, (s.putNodes a).accepted (callLabels a.callLinks)⟩ :
      Tally) = {}) : s.applyAnalysis a = s := by
  obtain ⟨hnodes, hlinks⟩ := Tally.mk.inj h
  obtain ⟨hclasses, hmethods⟩ := Nat.add_eq_zero_iff.1 hnodes
  rw [List.length_eq_zero_iff] at hclasses hmethods
  have hput : s.putNodes a = s := by
    rw [putNodes, FileAnalysis.methodNodes, FileAnalysis.classNodes, hclasses, hmethods]
    rfl
  rw [hput] at hlinks
  rw [applyAnalysis, hput, addCalls_of_accepted hlinks]

theorem dropListed_of_quiet (hs : s.Valid) {c : FileChange}
    (h : (({ store := s } : Progress).dropListed c).tally = {}) :
    (({ store := s } : Progress).dropListed c).store = s := by
  have hleft : Remnant s (({ store := s } : Progress).dropListed c).store := by
    rw [dropListed_store]
    exact .removeMethods hs c.deletedMethods
  rw [dropListed_tally c (p := { store := s }) hs, Tally.zero_add] at h
  exact hleft.eq_of_missing hs h

end Steps

/-! ## Changes that count nothing -/

section Changes

variable {s : Store} {analyzer : Option Analyzer} {c : FileChange}

theorem apply_quiet {p : Progress} {a : FileAnalysis} (h : (p.apply a).tally = {}) :
    p.tally = {} ∧ (p.apply a).store = p.store := by
  obtain ⟨hbefore, hbrought⟩ := Tally.add_eq_zero.1 h
  exact ⟨hbefore, applyAnalysis_of_quiet hbrought⟩

/-- The replacement of a file that counts nothing has only taken the file out. -/
theorem replace_quiet {p : Progress} {a : FileAnalysis} (h : (p.replace a).tally = {}) :
    p.tally = {} ∧ (p.replace a).store = p.store.removeFile a.filePath := by
  obtain ⟨happlied, hrestored⟩ := Tally.add_eq_zero.1 h
  obtain ⟨hbefore, hstore⟩ := apply_quiet happlied
  refine ⟨hbefore, ?_⟩
  rw [hstore] at hrestored
  have hstore : (p.store.removeFile a.filePath).applyAnalysis a = p.store.removeFile a.filePath :=
    hstore
  change p.store.replaceFile a = _
  rw [replaceFile, hstore, restore_of_accepted (Tally.mk.inj hrestored).2]

/-- A file that is analysed anew, after the methods that its change lists were removed. -/
theorem reanalyze_quiet {p : Progress} {take : Progress → FileAnalysis → Progress}
    {left : FileAnalysis → Store}
    (htake : ∀ a, (take p a).tally = {} → p.tally = {} ∧ (take p a).store = left a)
    (h : (p.reanalyze analyzer c take).1.tally = {}) :
    p.tally = {} ∧ (p.reanalyze analyzer c take).1.store =
      (c.analysis? analyzer).elim p.store left := by
  cases analyzer with
  | none => exact ⟨(Tally.add_eq_zero.1 h).1, rfl⟩
  | some analyze =>
    cases ha : analyze c.filePath with
    | error reason =>
      simp only [Progress.reanalyze, ha] at h ⊢
      refine ⟨h, ?_⟩
      simp [FileChange.analysis?, ha, Except.toOption]
    | ok a =>
      rw [reanalyze_ok ha] at h ⊢
      obtain ⟨hbefore, hstore⟩ := htake a h
      refine ⟨hbefore, hstore.trans ?_⟩
      simp [FileChange.analysis?, ha, Except.toOption]

/-- One change that counts nothing has done nothing, unless it has analysed a file again: then it
    has taken out what the file owned. -/
theorem applyChange_quiet (hs : s.Valid) (h : (s.applyChange analyzer c).1.tally = {}) :
    (s.applyChange analyzer c).1.store = (c.analysedAgain? analyzer).elim s s.removeFile := by
  rw [FileChange.analysedAgain?]
  cases hkind : c.kind with
  | renamed =>
    rw [if_neg (by decide), Option.elim_none]
    rw [applyChange, hkind] at h ⊢
    cases hold : c.oldPath with
    | none => rfl
    | some old =>
      rw [hold] at h
      dsimp only at h ⊢
      by_cases hempty : old.isEmpty = true
      · rw [if_pos hempty]
      · rw [if_neg hempty] at h ⊢
        -- a rename counts what the old file owns, so there was nothing to move
        exact renameFile_of_unowned c.filePath (Tally.mk.inj h).1
  | deleted =>
    rw [if_neg (by decide), Option.elim_none]
    have hleft := ((Without.refl hs).deleted analyzer hkind).toRemnant
    rw [tally_deleted analyzer hs hkind] at h
    -- nothing is missing, so what is left is everything
    exact hleft.eq_of_missing hs h
  | added =>
    rw [if_neg (by decide), Option.elim_none]
    rw [applyChange, hkind] at h ⊢
    obtain ⟨hlisted, hstore⟩ := reanalyze_quiet (fun _ => apply_quiet) h
    rw [dropListed_of_quiet hs hlisted] at hstore
    refine hstore.trans ?_
    cases c.analysis? analyzer <;> rfl
  | modified =>
    rw [if_pos rfl]
    rw [applyChange, hkind] at h ⊢
    obtain ⟨hlisted, hstore⟩ := reanalyze_quiet (fun _ => replace_quiet) h
    rw [dropListed_of_quiet hs hlisted] at hstore
    refine hstore.trans ?_
    cases c.analysis? analyzer <;> rfl

end Changes

/-! ## Updates that count nothing -/

section Updates

variable {s : Store} {analyzer : Option Analyzer}

theorem Without.quiet {files : List String} {t : Store} (h : Without s files [] t) {c : FileChange}
    (hquiet : (t.applyChange analyzer c).1.tally = {}) :
    Without s (files ++ (c.analysedAgain? analyzer).toList) []
      (t.applyChange analyzer c).1.store := by
  rw [applyChange_quiet h.valid hquiet]
  cases c.analysedAgain? analyzer with
  | none => simpa using h
  | some path => exact h.removeFile path

/-- A run of changes that each count nothing. -/
theorem Without.quietAll (cs : List FileChange) (happlies : ∀ c ∈ cs, c.applies analyzer = true) :
    ∀ {files : List String} {t : Store}, Without s files [] t →
      Tally.total (((t.turns analyzer cs).filter (·.2.applies analyzer)).map
        (tallyAt analyzer)) = {} →
      Without s (files ++ analysedAgain analyzer cs) []
        (cs.foldl (fun s c => (s.applyChange analyzer c).1.store) t) := by
  induction cs with
  | nil =>
    intro files t h _
    simpa [analysedAgain] using h
  | cons c cs ih =>
    intro files t h hquiet
    obtain ⟨hc, hcs⟩ := List.forall_mem_cons.1 happlies
    rw [turns, List.filter_cons, if_pos hc, List.map_cons, Tally.total_cons,
      Tally.add_eq_zero] at hquiet
    have hrest := ih hcs (h.quiet hquiet.1) hquiet.2
    have hfiles : analysedAgain analyzer (c :: cs) =
        (c.analysedAgain? analyzer).toList ++ analysedAgain analyzer cs := by
      unfold analysedAgain
      cases hfile : c.analysedAgain? analyzer <;> simp [hfile]
    rw [hfiles, ← List.append_assoc, List.foldl_cons]
    exact hrest

/-- Taking files out leaves a store as it was exactly when they own nothing. -/
theorem without_self_iff (hs : s.Valid) {files : List String} :
    Without s files [] s ↔ ∀ path ∈ files, s.ownedCount path = 0 := by
  constructor
  · intro h path hpath
    rw [ownedCount_eq_zero, List.eq_nil_iff_forall_not_mem]
    refine ⟨fun id hid => ?_, fun id c hc => ((h.class_iff id c).1 hc).2 path hpath⟩
    obtain ⟨m, hm, hin⟩ := (Option.any_eq_true _ _).1 (s.mem_methodsOf.1 hid)
    rw [((h.method_iff id m).1 hm).2.2 path hpath] at hin
    cases hin
  · intro h
    refine ⟨.refl hs, fun id m => ?_, fun id c => ?_⟩
    · refine ⟨fun hm => ⟨hm, List.not_mem_nil, fun path hpath => ?_⟩, fun hm => hm.1⟩
      have hnone := ((s.ownedCount_eq_zero).1 (h path hpath)).1
      refine Bool.eq_false_iff.2 fun hin => ?_
      have hid : id ∈ s.methodsOf path := by
        rw [mem_methodsOf, owns, hm]
        exact hin
      rw [hnone] at hid
      cases hid
    · refine ⟨fun hc => ⟨hc, fun path hpath => ?_⟩, fun hc => hc.1⟩
      exact ((s.ownedCount_eq_zero).1 (h path hpath)).2 id c hc

/-- **Updates that report nothing.** An update that succeeds and counts nothing as affected has
    taken out what those files owned that it analysed again, and has done nothing else. So the store
    is as it was exactly when none of these files owned a method or a class. -/
theorem update_unaffected (hs : s.Reachable) {cs : List FileChange}
    (hsuccess : (s.update analyzer cs).result.success = true)
    (htally : (s.update analyzer cs).result.tally = {}) :
    Without s (analysedAgain analyzer cs) [] (s.update analyzer cs).store ∧
      ((s.update analyzer cs).store = s ↔
        ∀ path ∈ analysedAgain analyzer cs, s.ownedCount path = 0) := by
  -- without a message, every change went through
  have happlies : ∀ c ∈ cs, c.applies analyzer = true := by
    intro c hc
    have herrors : c.errors analyzer = [] := by
      rw [UpdateResult.success, List.isEmpty_iff, update_errors] at hsuccess
      exact List.flatMap_eq_nil_iff.1 hsuccess c hc
    rw [FileChange.errors] at herrors
    rw [FileChange.applies]
    cases hfail : c.failure? analyzer with
    | none => rfl
    | some failure => simp [hfail] at herrors
  have hleft : Without s (analysedAgain analyzer cs) [] (s.update analyzer cs).store := by
    rw [update_tally] at htally
    rw [update_store]
    simpa using Without.quietAll cs happlies (.refl hs.valid) htally
  refine ⟨hleft, ?_⟩
  rw [← without_self_iff hs.valid]
  constructor
  · intro hsame
    rw [hsame] at hleft
    exact hleft
  · intro hself
    exact hleft.unique hself (fun _ => .rfl) fun _ => .rfl

end Updates

/-- An analyser that finds nothing in any file. -/
def emptyHanded : Analyzer := fun path => .ok { filePath := path }

/-- A file of which nothing is left, and changes to files that the store does not know: together
    they count nothing, and the file is gone with its links. -/
theorem update_unaffected_crossedFiles :
    let cs : List FileChange :=
      [{ filePath := "unknown", kind := .deleted },
       { filePath := "main", kind := .renamed, oldPath := some "unknown" },
       { filePath := "server", kind := .modified },
       { filePath := "unknown", kind := .modified }]
    let u := crossedFiles.update (some emptyHanded) cs
    crossedFiles.Reachable ∧ u.result.success = true ∧ u.result.tally = {} ∧
      Without crossedFiles ["server", "unknown"] [] u.store ∧ u.store.linkCount = 4 := by
  intro cs u
  have hr : crossedFiles.Reachable := reachable_after _
  have hsuccess : u.result.success = true := by decide +kernel
  have htally : u.result.tally = {} := by decide +kernel
  exact ⟨hr, hsuccess, htally, (update_unaffected hr hsuccess htally).1, by decide +kernel⟩

/-- A file that is analysed again and has nothing left in it loses its methods and their call, and
    the update reports that nothing was affected. -/
theorem vanished_methods_unreported :
    let u := callerAndCallee.update (some emptyHanded) [{ filePath := "f", kind := .modified }]
    callerAndCallee.Reachable ∧ u.result.success = true ∧ u.result.tally = {} ∧
      callerAndCallee.nodeCount = 2 ∧ callerAndCallee.linkCount = 1 ∧
      u.store.nodeCount = 0 ∧ u.store.linkCount = 0 ∧ u.store ≠ callerAndCallee := by
  intro u
  have hbefore : callerAndCallee.nodeCount = 2 := by decide +kernel
  have hafter : u.store.nodeCount = 0 := by decide +kernel
  refine ⟨reachable_after _, by decide +kernel, by decide +kernel, hbefore, by decide +kernel,
    hafter, by decide +kernel, fun hsame => ?_⟩
  rw [hsame, hbefore] at hafter
  cases hafter

end Store
end PathTriage
