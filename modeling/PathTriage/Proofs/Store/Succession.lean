import PathTriage.Proofs.Store.Effect
import PathTriage.Proofs.Store.Reanalysis
import PathTriage.Proofs.Store.Removal

/-!
Two changes of one file in succession.

When a file is analysed again with the same result, the second change finds the file as owner of
exactly what the analysis gives, so it takes out what it is about to bring, and a call keeps its
place whichever of its ends the file owns. Only the calls of a method that the analysis takes over
are different: the stored ones stay the first time, when the method was not yet the file's own, and
go the second. So the file is as it was after the first change exactly when the analysis lists them
(`replaceFile_again_iff`).

A file that is added and then deleted has not been there: of the store with the file, the store
without it is what is left when the file is taken out (`without_applyAnalysis`).
-/

namespace PathTriage

/-- An analysis of a file that is new to a store: the store has nothing of the file, no method or
    class of the analysis, and every call of the analysis is at one of its methods. -/
@[mk_iff] structure FileAnalysis.NewTo (a : FileAnalysis) (s : Store) : Prop where
  file : s.ownedCount a.filePath = 0
  methods : ∀ id ∈ a.methodIds, s.hasMethod id = false
  classes : ∀ id ∈ a.classIds, s.classes.contains id = false
  placed : a.Placed
  calls : ∀ k ∈ a.calls, k.caller ∈ a.methodIds ∨ k.callee ∈ a.methodIds

instance (a : FileAnalysis) (s : Store) : Decidable (a.NewTo s) :=
  decidable_of_iff' _ (FileAnalysis.newTo_iff a s)

namespace Store

theorem hasMethod_eq_false_iff {s : Store} {id : String} :
    s.hasMethod id = false ↔ s.bare? id = none := by
  rw [hasMethod_eq, Option.isSome_eq_false_iff, Option.isNone_iff_eq_none]

theorem not_mem_of_stored {s : Store} {ids : List String} (h : ∀ id ∈ ids, s.hasMethod id = false)
    {id : String} (hid : s.hasMethod id = true) : id ∉ ids := by
  intro hmem
  rw [h id hmem] at hid
  cases hid

/-- No link is at a method that is not stored. -/
theorem LinkTable.getElem?_of_absent {β : Type} (l : LinkTable β) {s : Store} (hs : s.Integral)
    {e : Arrow} (h : s.hasMethod e.source = false ∨ s.hasMethod e.target = false) :
    (l.view s)[e]? = none := by
  refine l.getElem?_of_not_knows hs fun hknows => ?_
  obtain ⟨hsrc, htgt⟩ := (s.knows_iff e).1 hknows
  rcases h with h | h
  · rw [hsrc] at h
    cases h
  · rw [htgt] at h
    cases h

/-! ## The same analysis again -/

section Again

variable {s : Store} {a : FileAnalysis} {ids : List String}

/-- After a file is replaced, it owns exactly the methods of its analysis. -/
theorem owns_replaceFile_iff (hplaced : a.Placed) {id : String} :
    (s.replaceFile a).owns a.filePath id = true ↔ id ∈ a.methodIds := by
  rw [owns_replaceFile, Option.any_eq_true, ← FileAnalysis.exists_method?]
  constructor
  · rintro ⟨m, hm, -⟩
    exact ⟨m, hm⟩
  · rintro ⟨m, hm⟩
    exact ⟨m, hm, (hplaced.isIn_of_method? hm a.filePath).2 rfl⟩

theorem owns_removeMethods (filePath id : String) :
    (ids.foldl removeMethod s).owns filePath id = true ↔ id ∉ ids ∧ s.owns filePath id = true := by
  rw [owns, bare?_removeMethods]
  by_cases hid : id ∈ ids
  · simp [hid]
  · simp [hid, owns]

variable (hids : ∀ id ∈ ids, s.hasMethod id = false)

section Nodes

include hids

theorem bare?_again (id : String) :
    ((ids.foldl removeMethod (s.replaceFile a)).replaceFile a).bare? id =
      (s.replaceFile a).bare? id := by
  rw [bare?_replaceFile, bare?_removeMethods, bare?_replaceFile]
  cases a.method? id with
  | some m => simp
  | none =>
    by_cases hid : id ∈ ids
    · have hnone : s.bare? id = none := hasMethod_eq_false_iff.1 (hids id hid)
      simp [hid, hnone]
    · simp [hid, Option.filter_filter]

omit hids in
theorem class?_again (id : String) :
    ((ids.foldl removeMethod (s.replaceFile a)).replaceFile a).class? id =
      (s.replaceFile a).class? id := by
  have hdrop : (ids.foldl removeMethod (s.replaceFile a)).class? id =
      (s.replaceFile a).class? id := by
    rw [class?, classes_removeMethods, class?]
  rw [class?_replaceFile, hdrop, class?_replaceFile]
  cases a.class? id with
  | some c => simp
  | none => simp [Option.filter_filter]

/-- Links that no analysis brings are where they were. -/
theorem SideTable.getElem?_again {β : Type} (l : SideTable β) (hs : s.Integral) (e : Arrow) :
    (l.view ((ids.foldl removeMethod (s.replaceFile a)).replaceFile a))[e]? =
      (l.view (s.replaceFile a))[e]? := by
  have hfirst := integral_stable.replaceFile hs a
  rw [l.getElem?_replaceFile (integral_stable.removeMethods hfirst ids),
    knows_congr (bare?_again hids), l.getElem?_removeMethods hfirst, l.getElem?_replaceFile hs]
  by_cases hends : e.source ∈ ids ∨ e.target ∈ ids
  · have hnone : (l.view s)[e]? = none :=
      l.getElem?_of_absent hs (hends.imp (hids e.source) (hids e.target))
    simp [hnone]
  · by_cases hknows : (s.replaceFile a).knows e = true <;> simp [hends, hknows]

end Nodes

variable (hs : s.Valid) (hplaced : a.Placed)

include hs hplaced

/-- The calls of a method that the analysis gives are those of the analysis, if all calls out of the
    file are. -/
theorem calls_replaceFile_of_given (hfresh : OutgoingFresh a (s.replaceFile a)) {e : Arrow}
    (hknows : (s.replaceFile a).knows e = true) (hsrc : e.source ∈ a.methodIds) :
    (s.replaceFile a).calls[e]? = a.call? e := by
  have hout : (s.replaceFile a).owns a.filePath e.source = true :=
    (owns_replaceFile_iff hplaced).2 hsrc
  cases hk : (s.replaceFile a).calls[e]? with
  | some k => exact (hfresh e k hk hout).symm
  | none =>
    refine (Option.eq_none_iff_forall_ne_some.2 fun k hlisted => ?_).symm
    -- a call that is listed between known methods is there
    have hmem : e ∈ (s.replaceFile a).calls := (mem_calls_replaceFile a hs.integral e).2
      ⟨hknows, .inr (.inr (FileAnalysis.exists_call?.1 ⟨k, hlisted⟩))⟩
    rw [Std.ExtTreeMap.mem_iff_isSome_getElem?, hk] at hmem
    cases hmem

include hids

/-- A call by a method that the analysis does not give is the same again: if the file owns its
    callee, the stored one comes first, and there is one if the analysis lists one; if not, the one
    that the analysis lists comes first both times. -/
theorem calls_again_of_outside {e : Arrow}
    (hknows : (s.replaceFile a).knows e = true) (hsrc : e.source ∉ a.methodIds) :
    ((ids.foldl removeMethod (s.replaceFile a)).replaceFile a).calls[e]? =
      (s.replaceFile a).calls[e]? := by
  have hfirst := integral_stable.replaceFile hs.integral a
  have hends := (knows_iff _ e).1 hknows
  obtain ⟨hstored, hout⟩ := ((hasMethod_replaceFile a e.source).1 hends.1).resolve_right hsrc
  have hkept : e.source ∉ ids := not_mem_of_stored hids hstored
  rw [calls_replaceFile (integral_stable.removeMethods hfirst ids), knows_congr (bare?_again hids),
    if_pos hknows, calls_removeMethods hfirst, calls_replaceFile hs.integral, if_pos hknows, hout]
  simp only [owns_removeMethods, owns_replaceFile_iff hplaced]
  by_cases htgt : e.target ∈ ids
  · -- the callee was not stored, so the call came with the analysis
    have hnone : s.calls[e]? = none :=
      LinkTable.ofCalls.getElem?_of_absent hs.integral (.inr (hids e.target htgt))
    simp [hsrc, htgt, hnone]
  · by_cases hgiven : e.target ∈ a.methodIds
    · simp only [hsrc, hkept, htgt, hgiven]
      cases hlisted : a.call? e <;> cases hold : s.calls[e]? <;>
        cases s.owns a.filePath e.target <;> simp
    · have houtside : s.owns a.filePath e.target = false :=
        (((hasMethod_replaceFile a e.target).1 hends.2).resolve_right hgiven).2
      cases hlisted : a.call? e <;> simp [hsrc, hkept, htgt, hgiven, houtside]

theorem calls_again (hfresh : OutgoingFresh a (s.replaceFile a)) (e : Arrow) :
    ((ids.foldl removeMethod (s.replaceFile a)).replaceFile a).calls[e]? =
      (s.replaceFile a).calls[e]? := by
  have hfirst := integral_stable.replaceFile hs.integral a
  have hdropped := integral_stable.removeMethods hfirst ids
  have hagain := knows_congr (bare?_again (a := a) hids) e
  by_cases hknows : (s.replaceFile a).knows e = true
  · by_cases hsrc : e.source ∈ a.methodIds
    · -- whatever is stored in between, it is the call of the analysis
      rw [calls_replaceFile hdropped, hagain, if_pos hknows, calls_removeMethods hfirst,
        calls_replaceFile_of_given hs hplaced hfresh hknows hsrc]
      by_cases hends : e.source ∈ ids ∨ e.target ∈ ids
      · simp [hends]
      · simp [hends]
    · exact calls_again_of_outside hids hs hplaced hknows hsrc
  · have hunknown :
        ¬((ids.foldl removeMethod (s.replaceFile a)).replaceFile a).knows e = true := by
      rw [hagain]
      exact hknows
    rw [hfirst.calls_eq_none hknows]
    exact (integral_stable.replaceFile hdropped a).calls_eq_none hunknown

omit hids in
/-- What a second replacement leaves of the calls out of the file, it has from the analysis. -/
theorem outgoingFresh_again :
    OutgoingFresh a ((ids.foldl removeMethod (s.replaceFile a)).replaceFile a) := by
  intro e k hk hout
  have hdropped := (valid_stable.removeMethods (valid_stable.replaceFile hs a) ids).integral
  rcases outgoing_cases hdropped hk hout with hlisted | ⟨htaken, -⟩
  · exact hlisted
  · -- the file owns what is left of the methods of the analysis, so there is nothing to take over
    obtain ⟨hstored, hforeign, -⟩ := takesOver_iff.1 htaken
    have hleft : e.source ∉ ids := by
      intro hmem
      rw [hasMethod_eq, bare?_removeMethods, if_pos hmem] at hstored
      cases hstored
    have howns := (owns_removeMethods (s := s.replaceFile a) a.filePath e.source).2
      ⟨hleft, (owns_replaceFile_iff hplaced).2 ((owns_replaceFile_iff hplaced).1 hout)⟩
    rw [hforeign] at howns
    cases howns

/-- Replacing a file by the same analysis a second time changes nothing exactly when the analysis
    lists the stored calls of the methods that it took over the first time, even if methods are
    removed in between that were not stored before. -/
theorem replaceFile_again_iff :
    (ids.foldl removeMethod (s.replaceFile a)).replaceFile a = s.replaceFile a ↔
      ListsTakenOver s a := by
  rw [← outgoingFresh_replaceFile_iff hs.integral]
  refine ⟨?_, ?_⟩
  · intro hsame
    rw [← hsame]
    exact outgoingFresh_again hs hplaced
  · intro hfresh
    have hfirst : (s.replaceFile a).Valid := valid_stable.replaceFile hs a
    have hdropped := valid_stable.removeMethods hfirst ids
    refine eq_of_content (valid_stable.replaceFile hdropped a) hfirst (bare?_again hids)
      class?_again (calls_again hids hs hplaced hfresh) ?_ ?_
    · exact Std.ExtTreeMap.ext_getElem? fun e =>
        SideTable.ofImplementations.getElem?_again hids hs.integral e
    · exact Std.ExtTreeMap.ext_getElem? fun e =>
        SideTable.ofDataFlows.getElem?_again hids hs.integral e

end Again

/-- An analysis takes over nothing, if every method of it that is stored is one of its file. -/
theorem listsTakenOver_of_owned {s : Store} {a : FileAnalysis}
    (h : ∀ id ∈ a.methodIds, s.hasMethod id = true → s.owns a.filePath id = true) :
    ListsTakenOver s a := by
  intro e k _ htaken
  obtain ⟨hstored, hforeign, hout⟩ := takesOver_iff.1 htaken
  rw [owns_replaceFile, Option.any_eq_true] at hout
  obtain ⟨m, hm, -⟩ := hout
  rw [h e.source (FileAnalysis.mem_methodIds hm) hstored] at hforeign
  cases hforeign

/-- **When analysing a file again twice is the same as once.** For an analysis whose methods are
    placed in its file, a change of the file leaves a store that the same change does not alter
    exactly when the analysis lists the stored calls of the methods that it takes over. It makes no
    difference whether the change comes again in a second update or in the same one. In particular,
    twice is the same as once if every method of the analysis that is stored is one of the file. -/
theorem update_modified_twice_iff {s : Store} (hs : s.Reachable) {analyze : Analyzer}
    {c : FileChange} {a : FileAnalysis} (ha : analyze c.filePath = .ok a)
    (hkind : c.kind = .modified) (hplaced : a.Placed) :
    let old := c.deletedMethods.foldl removeMethod s
    let once := (s.update (some analyze) [c]).store
    ((once.update (some analyze) [c]).store = once ↔ ListsTakenOver old a) ∧
      ((s.update (some analyze) [c, c]).store = once ↔ ListsTakenOver old a) ∧
      ((∀ id ∈ a.methodIds, s.hasMethod id = true → s.owns a.filePath id = true) →
        (once.update (some analyze) [c]).store = once ∧
          (s.update (some analyze) [c, c]).store = once) := by
  intro old once
  -- the methods that the change lists are gone before the first analysis
  have hids : ∀ id ∈ c.deletedMethods, old.hasMethod id = false := by
    intro id hid
    rw [hasMethod_eq_false_iff, bare?_removeMethods, if_pos hid]
  have hold : Remnant s old := .removeMethods hs.valid c.deletedMethods
  have honce : once = old.replaceFile a := update_modified ha hkind
  have htwice : (once.update (some analyze) [c]).store = once ↔ ListsTakenOver old a := by
    rw [update_modified ha hkind, honce]
    exact replaceFile_again_iff hids hold.valid hplaced
  have hsame : (s.update (some analyze) [c, c]).store = (once.update (some analyze) [c]).store :=
    update_append_store [c] [c]
  have hlists : (∀ id ∈ a.methodIds, s.hasMethod id = true → s.owns a.filePath id = true) →
      ListsTakenOver old a := by
    intro hown
    refine listsTakenOver_of_owned fun id hid hstored => ?_
    exact (owns_removeMethods a.filePath id).2
      ⟨not_mem_of_stored hids hstored, hown id hid (hold.hasMethod hstored)⟩
  rw [hsame]
  exact ⟨htwice, htwice, fun hown => ⟨htwice.2 (hlists hown), htwice.2 (hlists hown)⟩⟩

/-- The analysis gives one method twice and lists a call from outside the file. The change lists the
    method that the analysis no longer gives. -/
theorem update_modified_twice_iff_linkedFiles :
    let c : FileChange := { filePath := "parser", kind := .modified, deletedMethods := ["peek"] }
    let once := (linkedFiles.update (some fun _ => .ok parserAlone) [c]).store
    linkedFiles.Reachable ∧ once ≠ linkedFiles ∧
      (once.update (some fun _ => .ok parserAlone) [c]).store = once := by
  intro c once
  have hr : linkedFiles.Reachable := reachable_after _
  have hchanged : once ≠ linkedFiles := by
    intro hsame
    have hgone : once.hasMethod "peek" = false := by decide +kernel
    have hstored : linkedFiles.hasMethod "peek" = true := by decide +kernel
    rw [hsame, hstored] at hgone
    cases hgone
  have htwice := @update_modified_twice_iff linkedFiles hr (fun _ => .ok parserAlone) c parserAlone
    rfl rfl (by decide)
  exact ⟨hr, hchanged, (htwice.2.2 (by decide +kernel)).1⟩

/-- A method of no file, which calls one of another file. -/
def strayCaller : Store :=
  after
    [.putMethod { id := "work", name := "work" },
     .putMethod { id := "log", name := "log", filePath := .string "old" },
     .addCall { caller := "work", callee := "log" }]

/-- A method that is stored under no file loses its call to the second change, not to the first,
    when it is found in a file as one that calls nothing. -/
theorem stray_method_loses_call :
    let c : FileChange := { filePath := "new", kind := .modified }
    let once := (strayCaller.update (some fun _ => .ok movedWork) [c]).store
    let twice := (once.update (some fun _ => .ok movedWork) [c]).store
    strayCaller.Reachable ∧ movedWork.Placed ∧ movedWork.classIds = [] ∧
      (∀ id ∈ movedWork.methodIds, ∀ path ≠ "", strayCaller.owns path id = false) ∧
      once.hasCall "work" "log" = true ∧ twice.hasCall "work" "log" = false := by
  intro c once twice
  have hstray : ∀ id ∈ movedWork.methodIds, ∀ path ≠ "", strayCaller.owns path id = false := by
    intro id hid path hpath
    obtain rfl := List.mem_singleton.1 hid
    have howns : strayCaller.owns path "work" = ("" == path) := by
      with_unfolding_all rfl
    rw [howns]
    exact beq_false_of_ne hpath.symm
  exact ⟨reachable_after _, by decide, rfl, hstray, by decide +kernel, by decide +kernel⟩

/-! ## A new file that is deleted -/

section New

variable {s : Store} {a : FileAnalysis} (h : a.NewTo s)

include h

theorem method?_of_stored {id : String} (hid : s.hasMethod id = true) : a.method? id = none := by
  rw [Option.eq_none_iff_forall_ne_some]
  intro m hm
  exact not_mem_of_stored h.methods hid (FileAnalysis.mem_methodIds hm)

theorem class?_of_stored {id : String} {c : ClassEntry} (hc : s.class? id = some c) :
    a.class? id = none := by
  rw [Option.eq_none_iff_forall_ne_some]
  intro c' hc'
  have habsent := h.classes id (FileAnalysis.mem_classIds hc')
  rw [Std.ExtTreeMap.contains_eq_isSome_getElem?] at habsent
  rw [class?] at hc
  rw [hc] at habsent
  cases habsent

theorem isIn_of_stored {id : String} {m : Method} (hm : s.bare? id = some m) :
    m.isIn a.filePath = false := by
  have hnone := ((s.ownedCount_eq_zero).1 h.file).1
  have hunowned : ¬s.owns a.filePath id = true := by
    rw [← mem_methodsOf, hnone]
    exact List.not_mem_nil
  rw [owns, hm, Option.any_some] at hunowned
  exact Bool.eq_false_iff.2 hunowned

/-- The analysis lists no call between methods that were stored without it. -/
theorem call?_of_knows {e : Arrow} (he : s.knows e = true) : a.call? e = none := by
  rw [Option.eq_none_iff_forall_ne_some]
  intro k hk
  obtain ⟨hmem, rfl⟩ := Table.mem_of_lastWith hk
  obtain ⟨f, hf, rfl⟩ := List.mem_map.1 hmem
  obtain ⟨hsrc, htgt⟩ := (s.knows_iff _).1 he
  rcases h.calls f hf with hcaller | hcallee
  · exact not_mem_of_stored h.methods hsrc hcaller
  · exact not_mem_of_stored h.methods htgt hcallee

theorem bare?_applyAnalysis_of_new (id : String) (m : Method) :
    s.bare? id = some m ↔
      (s.applyAnalysis a).bare? id = some m ∧ m.isIn a.filePath = false := by
  rw [bare?_applyAnalysis]
  constructor
  · intro hm
    rw [method?_of_stored h (hasMethod_of_bare? hm), Option.none_or]
    exact ⟨hm, isIn_of_stored h hm⟩
  · rintro ⟨hm, hout⟩
    rcases Option.or_eq_some_iff.1 hm with hgiven | ⟨-, hm⟩
    · -- what the analysis gives is in the file
      rw [(h.placed.isIn_of_method? hgiven a.filePath).2 rfl] at hout
      cases hout
    · exact hm

theorem class?_applyAnalysis_of_new (id : String) (c : ClassEntry) :
    s.class? id = some c ↔
      (s.applyAnalysis a).class? id = some c ∧ c.isIn a.filePath = false := by
  rw [class?_applyAnalysis]
  constructor
  · intro hc
    rw [class?_of_stored h hc, Option.none_or]
    exact ⟨hc, ((s.ownedCount_eq_zero).1 h.file).2 id c hc⟩
  · rintro ⟨hc, hout⟩
    rcases Option.or_eq_some_iff.1 hc with hgiven | ⟨-, hc⟩
    · rw [(FileAnalysis.isIn_of_class? hgiven a.filePath).2 rfl] at hout
      cases hout
    · exact hc

/-- Of a store with a new file in it, the store before is what is left without the file. -/
theorem without_applyAnalysis (hs : s.Valid) {ids : List String}
    (hids : ∀ id ∈ ids, s.hasMethod id = false) :
    Without (s.applyAnalysis a) [a.filePath] ids s where
  valid := hs
  methods id m hm := ((bare?_applyAnalysis_of_new h id m).1 hm).1
  classes id c hc := ((class?_applyAnalysis_of_new h id c).1 hc).1
  -- the analysis lists no call between methods that were there without it
  calls := by
    intro e
    by_cases hknows : s.knows e = true
    · rw [if_pos hknows, calls_applyAnalysis, call?_of_knows h hknows, Option.none_or, ite_self]
    · rw [if_neg hknows, hs.integral.calls_eq_none hknows]
  implementations := by
    intro e
    rw [show (s.applyAnalysis a).implementations = s.implementations from
      SideTable.ofImplementations.view_applyAnalysis s a]
    exact LinkTable.Inherits.refl (l := .ofImplementations) hs.integral e
  dataFlows := by
    intro e
    rw [show (s.applyAnalysis a).dataFlows = s.dataFlows from
      SideTable.ofDataFlows.view_applyAnalysis s a]
    exact LinkTable.Inherits.refl (l := .ofDataFlows) hs.integral e
  method_iff := by
    intro id m
    rw [bare?_applyAnalysis_of_new h, List.forall_mem_singleton]
    refine and_congr_right fun hm => ⟨fun hout => ⟨?_, hout⟩, fun hleft => hleft.2⟩
    have hstored : s.bare? id = some m := (bare?_applyAnalysis_of_new h id m).2 ⟨hm, hout⟩
    exact not_mem_of_stored hids (hasMethod_of_bare? hstored)
  class_iff := by
    intro id c
    rw [class?_applyAnalysis_of_new h, List.forall_mem_singleton]

theorem applyChange_deleted_of_new (hs : s.Valid) (analyzer : Option Analyzer) {d : FileChange}
    (hkind : d.kind = .deleted) (hpath : d.filePath = a.filePath)
    (hlisted : ∀ id ∈ d.deletedMethods, s.hasMethod id = false) :
    ((s.applyAnalysis a).applyChange analyzer d).1.store = s := by
  have hadded : (s.applyAnalysis a).Valid := valid_stable.applyAnalysis hs a
  have hdeleted := (Without.refl hadded).deleted analyzer hkind
  rw [hpath, List.nil_append, List.nil_append] at hdeleted
  exact hdeleted.unique (without_applyAnalysis h hs hlisted) (fun _ => .rfl) fun _ => .rfl

end New

/-- **Adding a file and deleting it again restores the store.** An analysis of a file that is new to
    a store is taken in, by itself or as an added file, and the file is then deleted: the store is
    the one there was. Neither change may list a stored method as deleted. -/
theorem update_deleted_of_new {s : Store} (hs : s.Reachable) {a : FileAnalysis} (h : a.NewTo s)
    {d : FileChange} (hkind : d.kind = .deleted) (hpath : d.filePath = a.filePath)
    (hlisted : ∀ id ∈ d.deletedMethods, s.hasMethod id = false) :
    (∀ analyzer, ((s.applyAnalysis a).update analyzer [d]).store = s) ∧
      ∀ (analyze : Analyzer) (c : FileChange), analyze c.filePath = .ok a → c.kind = .added →
        (∀ id ∈ c.deletedMethods, s.hasMethod id = false) →
        (s.update (some analyze) [c, d]).store = s ∧
          ∀ analyzer, ((s.update (some analyze) [c]).store.update analyzer [d]).store = s := by
  have happlied : ∀ analyzer, ((s.applyAnalysis a).update analyzer [d]).store = s := by
    intro analyzer
    rw [update_store]
    exact applyChange_deleted_of_new h hs.valid analyzer hkind hpath hlisted
  refine ⟨happlied, ?_⟩
  intro analyze c ha hadded habsent
  have hone : (s.update (some analyze) [c]).store = s.applyAnalysis a := by
    have hsame : c.deletedMethods.foldl removeMethod s = s :=
      (removeMethods_eq_self s c.deletedMethods).2 habsent
    rw [update_store, List.foldl_cons, List.foldl_nil, applyChange_added ha hadded, hsame]
  refine ⟨?_, fun analyzer => by rw [hone]; exact happlied analyzer⟩
  calc (s.update (some analyze) [c, d]).store
      = ((s.update (some analyze) [c]).store.update (some analyze) [d]).store :=
        update_append_store [c] [d]
    _ = s := by rw [hone]; exact happlied _

/-- A file whose methods call each other, themselves and methods of other files, and are called from
    there. One method and one call are given twice, and one call is of a method that nobody has. -/
def loggerFile : FileAnalysis where
  filePath := "logger"
  classes := [{ name := .string "Logger", qualifiedName := "Logger" }]
  methods :=
    [{ id := "log", name := "log" },
     { id := "flush", name := "flush", filePath := .string "logger" },
     { id := "log", name := "log", linesOfCode := .ofInt 4 }]
  calls :=
    [{ caller := "log", callee := "log" },
     { caller := "log", callee := "flush" },
     { caller := "flush", callee := "parse" },
     { caller := "serve", callee := "log" },
     { caller := "serve", callee := "log", line := .ofInt 7 },
     { caller := "log", callee := "rotate" }]

theorem update_deleted_of_new_loggerFile :
    let c : FileChange := { filePath := "logger", kind := .added }
    let d : FileChange := { filePath := "logger", kind := .deleted }
    crossedFiles.Reachable ∧ loggerFile.NewTo crossedFiles ∧
      (crossedFiles.applyAnalysis loggerFile).linkCount = crossedFiles.linkCount + 4 ∧
      ((crossedFiles.applyAnalysis loggerFile).update none [d]).store = crossedFiles ∧
      (crossedFiles.update (some fun _ => .ok loggerFile) [c, d]).store = crossedFiles := by
  intro c d
  have hr : crossedFiles.Reachable := reachable_after _
  have hnew : loggerFile.NewTo crossedFiles := by decide +kernel
  have hlisted : ∀ id ∈ d.deletedMethods, crossedFiles.hasMethod id = false := by decide
  obtain ⟨happlied, hadded⟩ := update_deleted_of_new hr hnew (d := d) rfl rfl hlisted
  exact ⟨hr, hnew, by decide +kernel, happlied none, (hadded _ c rfl rfl (by decide)).1⟩

end Store
end PathTriage
