import PathTriage.Proofs.Store.Changes
import PathTriage.Proofs.Store.Degrees
import PathTriage.Proofs.Store.Project

/-!
Keeping a store up to date agrees with building it anew.

A project that is `PerFile` is changed in one file. Applying the change to the store of the old
project gives the store of the new one: for a deleted file always, and for a file that was analysed
again whenever no other file calls a method that only the new analysis of the file has. Such a call
was left out when the old store was built, and a change to the file that it enters does not bring it
back.

Both sides are compared look-up by look-up. What stays of the old store is what the other files of
the project have (`filter_eq_some`), and no id of theirs is an id of the new analysis, so it does
not matter which of the two is asked first (`or_eq_some_of_exclusive`).
-/

namespace PathTriage

/-- The analyses of all files but one. -/
def without (filePath : String) (files : List FileAnalysis) : List FileAnalysis :=
  files.filter (·.filePath ≠ filePath)

theorem mem_without {filePath : String} {files : List FileAnalysis} {a : FileAnalysis} :
    a ∈ without filePath files ↔ a ∈ files ∧ a.filePath ≠ filePath := by
  simp [without]

theorem without_eq_self {filePath : String} {files : List FileAnalysis}
    (h : filePath ∉ files.map (·.filePath)) : without filePath files = files := by
  refine List.filter_eq_self.2 fun a ha => decide_eq_true fun hpath => h ?_
  exact List.mem_map.2 ⟨a, ha, hpath⟩

theorem PerFile.without {files : List FileAnalysis} (h : PerFile files) (filePath : String) :
    PerFile (without filePath files) where
  paths := h.paths.sublist (List.filter_sublist.map _)
  methods a ha b hb := h.methods a (mem_without.1 ha).1 b (mem_without.1 hb).1
  classes a ha b hb := h.classes a (mem_without.1 ha).1 b (mem_without.1 hb).1
  placed a ha := h.placed a (mem_without.1 ha).1
  callers a ha := h.callers a (mem_without.1 ha).1

/-- Two look-ups of which one finds nothing may be asked in either order. -/
theorem or_eq_some_of_exclusive {β : Type} {o o' : Option β} {x : β}
    (h : ∀ y y', o = some y → o' ≠ some y') : o.or o' = some x ↔ o = some x ∨ o' = some x := by
  rw [Option.or_eq_some_iff]
  refine or_congr_right ⟨fun hx => hx.2, fun hx => ⟨?_, hx⟩⟩
  cases ho : o with
  | none => rfl
  | some y => exact absurd hx (h y x ho)

/-- Of a look-up that finds what some file has, what one file has is taken out. -/
theorem filter_eq_some {β : Type} {files : List FileAnalysis} {filePath : String}
    {view : FileAnalysis → Option β} {isIn : β → Bool} {o : Option β}
    (ho : ∀ x, o = some x ↔ ∃ a ∈ files, view a = some x)
    (hin : ∀ a ∈ files, ∀ x, view a = some x → (isIn x = true ↔ a.filePath = filePath)) {x : β} :
    (o.filter fun x => !isIn x) = some x ↔ ∃ a ∈ without filePath files, view a = some x := by
  rw [Option.filter_eq_some_iff, ho, Bool.not_eq_true']
  constructor
  · rintro ⟨⟨a, ha, hx⟩, hout⟩
    refine ⟨a, mem_without.2 ⟨ha, fun hpath => ?_⟩, hx⟩
    rw [(hin a ha x hx).2 hpath] at hout
    exact absurd hout (by simp)
  · rintro ⟨a, ha, hx⟩
    obtain ⟨ha, hpath⟩ := mem_without.1 ha
    exact ⟨⟨a, ha, hx⟩, Bool.eq_false_iff.2 fun hisIn => hpath ((hin a ha x hx).1 hisIn)⟩

namespace Store

/-! ## Links other than calls -/

/-- A store without implementations and data flows. -/
structure CallsOnly (s : Store) : Prop where
  implementations : s.implementations = ∅
  dataFlows : s.dataFlows = ∅

namespace CallsOnly

variable {s : Store} (h : s.CallsOnly)

include h

theorem addCalls (cs : List Call) : (cs.foldl addCall s).CallsOnly :=
  foldl_keeps (P := CallsOnly) (fun c h =>
    ⟨by rw [implementations_addCall, h.implementations], by rw [dataFlows_addCall, h.dataFlows]⟩)
    cs h

theorem putNodes (a : FileAnalysis) : (s.putNodes a).CallsOnly :=
  foldl_keeps (P := CallsOnly) (f := putMethod) (fun _ h => ⟨h.1, h.2⟩) _
    (foldl_keeps (P := CallsOnly) (f := putClass) (fun _ h => ⟨h.1, h.2⟩) _ h)

theorem removeMethod (x : String) : (s.removeMethod x).CallsOnly := by
  unfold Store.removeMethod
  split
  · constructor
    · rw [refresh_implementations]
      refine Std.ExtTreeMap.ext_getElem? fun a => ?_
      rw [Std.ExtTreeMap.getElem?_filter', h.implementations]
      rfl
    · rw [refresh_dataFlows]
      refine Std.ExtTreeMap.ext_getElem? fun a => ?_
      rw [Std.ExtTreeMap.getElem?_filter', h.dataFlows]
      rfl
  · exact h

theorem removeMethods (xs : List String) : (xs.foldl Store.removeMethod s).CallsOnly :=
  foldl_keeps (P := CallsOnly) (fun x h => h.removeMethod x) xs h

theorem removeFile (filePath : String) : (s.removeFile filePath).CallsOnly :=
  let removed := h.removeMethods (s.methodsOf filePath)
  ⟨removed.implementations, removed.dataFlows⟩

theorem replaceFile (a : FileAnalysis) : (s.replaceFile a).CallsOnly := by
  have himpls : (s.kept (s.methodsOf a.filePath)).implementations = [] := by
    simp [kept, h.implementations]
  have hflows : (s.kept (s.methodsOf a.filePath)).dataFlows = [] := by
    simp [kept, h.dataFlows]
  rw [Store.replaceFile, restore, himpls, hflows]
  exact (((h.removeFile a.filePath).putNodes a).addCalls _).addCalls _

end CallsOnly

theorem callsOnly_ofFiles (files : List FileAnalysis) : (ofFiles files).CallsOnly := by
  have hempty : (empty : Store).CallsOnly := ⟨rfl, rfl⟩
  have hnodes : (ofNodes files).CallsOnly :=
    foldl_keeps (P := CallsOnly) (fun a h => h.putNodes a) files hempty
  exact hnodes.addCalls _

/-- A store is the store of a project when it holds the same methods, classes and calls. -/
theorem eq_ofFiles {s : Store} {files : List FileAnalysis} (hs : s.Valid) (hcalls : s.CallsOnly)
    (hbare : ∀ id, s.bare? id = (ofFiles files).bare? id)
    (hclass : ∀ id, s.class? id = (ofFiles files).class? id)
    (hcall : ∀ e : Arrow, s.calls[e]? = (ofFiles files).calls[e]?) : s = ofFiles files := by
  have hfiles := callsOnly_ofFiles files
  refine eq_of_content hs (valid_stable.ofFiles valid_empty files) hbare hclass hcall ?_ ?_
  · rw [hcalls.implementations, hfiles.implementations]
  · rw [hcalls.dataFlows, hfiles.dataFlows]

/-! ## A file that is gone -/

section Removed

variable {files : List FileAnalysis} (h : PerFile files) (filePath : String)

include h

/-- What the project has once a file is gone is what it had and the file did not own. -/
theorem hasMethod_without {id : String} :
    (ofFiles (without filePath files)).hasMethod id = true ↔
      (ofFiles files).hasMethod id = true ∧ ¬(ofFiles files).owns filePath id = true := by
  rw [hasMethod_ofFiles (h.without filePath), hasMethod_ofFiles h, owns_ofFiles h]
  constructor
  · rintro ⟨a, ha, hid⟩
    obtain ⟨ha, hpath⟩ := mem_without.1 ha
    refine ⟨⟨a, ha, hid⟩, ?_⟩
    rintro ⟨b, hb, hbpath, hbid⟩
    rw [h.eq_of_method ha hb hid hbid] at hpath
    exact hpath hbpath
  · rintro ⟨⟨a, ha, hid⟩, hout⟩
    exact ⟨a, mem_without.2 ⟨ha, fun hpath => hout ⟨a, ha, hpath, hid⟩⟩, hid⟩

/-- A call that does not leave a file is a call of the other files. -/
theorem exists_call?_without {e : Arrow} {c : Call}
    (hsrc : ¬(ofFiles files).owns filePath e.source = true) :
    (∃ a ∈ files, a.call? e = some c) ↔ ∃ a ∈ without filePath files, a.call? e = some c := by
  constructor
  · rintro ⟨a, ha, hc⟩
    refine ⟨a, mem_without.2 ⟨ha, fun hpath => hsrc ?_⟩, hc⟩
    exact (owns_ofFiles h).2 ⟨a, ha, hpath, h.source_of_call? ha hc⟩
  · rintro ⟨a, ha, hc⟩
    exact ⟨a, (mem_without.1 ha).1, hc⟩

theorem removeFile_ofFiles :
    (ofFiles files).removeFile filePath = ofFiles (without filePath files) := by
  have hvalid := valid_stable.ofFiles valid_empty files
  refine eq_ofFiles (valid_stable.removeFile hvalid filePath)
    ((callsOnly_ofFiles files).removeFile filePath) ?_ ?_ ?_
  · intro id
    refine Option.ext fun m => ?_
    rw [bare?_removeFile, bare?_ofFiles (h.without filePath)]
    exact filter_eq_some (fun m => bare?_ofFiles h)
      fun a ha m hm => h.isIn_of_method? ha hm filePath
  · intro id
    refine Option.ext fun c => ?_
    rw [class?_removeFile, class?_ofFiles (h.without filePath)]
    exact filter_eq_some (fun c => class?_ofFiles h)
      fun a _ c hc => FileAnalysis.isIn_of_class? hc filePath
  · intro e
    refine Option.ext fun c => ?_
    rw [calls_removeFile hvalid.integral, calls_ofFiles (h.without filePath), knows_iff,
      hasMethod_without h, hasMethod_without h]
    -- a call at a method of the file goes, and the file lists none between the methods that are left
    by_cases howned : (ofFiles files).owns filePath e.source = true ∨
        (ofFiles files).owns filePath e.target = true
    · rw [if_pos howned]
      constructor
      · intro hnone
        exact absurd hnone (by simp)
      · rintro ⟨⟨⟨-, hsrc⟩, -, htgt⟩, -⟩
        exact absurd howned (not_or.2 ⟨hsrc, htgt⟩)
    · rw [if_neg howned]
      obtain ⟨hsrc, htgt⟩ := not_or.1 howned
      rw [calls_ofFiles h, knows_iff, exists_call?_without h filePath hsrc]
      simp [hsrc, htgt]

end Removed

/-! ## A file that is analysed again -/

section Reanalysed

variable {files files' : List FileAnalysis} {a : FileAnalysis} (h : PerFile files)
  (h' : PerFile files') (hperm : files'.Perm (a :: without a.filePath files))

include hperm

theorem mem_reanalysed {b : FileAnalysis} :
    b ∈ files' ↔ b = a ∨ b ∈ without a.filePath files := by
  rw [hperm.mem_iff, List.mem_cons]

/-- A look-up in the new analysis and one in the other files find together what the new project
    has, whichever comes first. -/
theorem or_eq_some_reanalysed {β : Type} {view : FileAnalysis → Option β} {o : Option β}
    (hone : ∀ b ∈ files', ∀ d ∈ files', ∀ x y, view b = some x → view d = some y → b = d)
    (ho : ∀ x, o = some x ↔ ∃ b ∈ without a.filePath files, view b = some x) (x : β) :
    ((view a).or o = some x ↔ ∃ b ∈ files', view b = some x) ∧
      (o.or (view a) = some x ↔ ∃ b ∈ files', view b = some x) := by
  have hexclusive : ∀ y y', view a = some y → o ≠ some y' := by
    intro y y' hy hy'
    obtain ⟨b, hb, hy'⟩ := (ho y').1 hy'
    have ha : a ∈ files' := (mem_reanalysed hperm).2 (.inl rfl)
    have hab : a = b := hone a ha b ((mem_reanalysed hperm).2 (.inr hb)) y y' hy hy'
    exact (mem_without.1 hb).2 (congrArg FileAnalysis.filePath hab.symm)
  have hmem : (∃ b ∈ files', view b = some x) ↔ view a = some x ∨ o = some x := by
    simp only [mem_reanalysed hperm, or_and_right, exists_or, exists_eq_left, ho]
  rw [hmem, or_eq_some_of_exclusive hexclusive,
    or_eq_some_of_exclusive fun y y' hy hy' => hexclusive y' y hy' hy, or_comm (a := o = some x)]
  exact ⟨Iff.rfl, Iff.rfl⟩

variable {listed : List String} (hlisted : ∀ id ∈ listed, ∀ b ∈ files', id ∉ b.methodIds)

include h h' hlisted

theorem bare?_reanalysed (id : String) :
    ((listed.foldl removeMethod (ofFiles files)).replaceFile a).bare? id =
      (ofFiles files').bare? id := by
  refine Option.ext fun m => ?_
  rw [bare?_replaceFile, bare?_removeMethods, bare?_ofFiles h']
  have hone : ∀ b ∈ files', ∀ d ∈ files', ∀ m n, b.method? id = some m → d.method? id = some n →
      b = d := fun b hb d hd _ _ hm hn =>
    h'.eq_of_method hb hd (FileAnalysis.mem_methodIds hm) (FileAnalysis.mem_methodIds hn)
  refine (or_eq_some_reanalysed hperm hone (fun m => ?_) m).1
  by_cases hid : id ∈ listed
  · -- a listed method is gone from the store, and no file of the new project has it
    rw [if_pos hid]
    constructor
    · intro hnone
      exact absurd hnone (by simp)
    · rintro ⟨b, hb, hm⟩
      have hb' : b ∈ files' := (mem_reanalysed hperm).2 (.inr hb)
      exact absurd (FileAnalysis.mem_methodIds hm) (hlisted id hid b hb')
  · rw [if_neg hid]
    exact filter_eq_some (fun m => bare?_ofFiles h)
      fun b hb m hm => h.isIn_of_method? hb hm a.filePath

omit hlisted in
theorem class?_reanalysed (id : String) :
    ((listed.foldl removeMethod (ofFiles files)).replaceFile a).class? id =
      (ofFiles files').class? id := by
  refine Option.ext fun c => ?_
  have hclass : (listed.foldl removeMethod (ofFiles files)).class? id =
      (ofFiles files).class? id := by
    rw [class?, classes_removeMethods, class?]
  rw [class?_replaceFile, hclass, class?_ofFiles h']
  have hone : ∀ b ∈ files', ∀ d ∈ files', ∀ x y, b.class? id = some x → d.class? id = some y →
      b = d := fun b hb d hd _ _ hx hy =>
    h'.eq_of_class hb hd (FileAnalysis.mem_classIds hx) (FileAnalysis.mem_classIds hy)
  refine (or_eq_some_reanalysed hperm hone (fun c => ?_) c).1
  exact filter_eq_some (fun c => class?_ofFiles h)
    fun b _ c hc => FileAnalysis.isIn_of_class? hc a.filePath

variable (hcallees : ∀ b ∈ files, b.filePath ≠ a.filePath → ∀ c ∈ b.calls,
  c.callee ∈ a.methodIds → ∃ old ∈ files, old.filePath = a.filePath ∧ c.callee ∈ old.methodIds)

include hcallees

omit hlisted h' in
/-- Between methods of the new project, a stored call that does not leave the file is a call of
    another file, and each such call was stored unless it names a method that only the new
    analysis has. -/
theorem calls_of_others {e : Arrow} (hsrc : ¬(ofFiles files).owns a.filePath e.source = true)
    (htgt : ∃ b ∈ files', e.target ∈ b.methodIds) (c : Call) :
    (ofFiles files).calls[e]? = some c ↔
      ∃ b ∈ without a.filePath files, b.call? e = some c := by
  rw [calls_ofFiles h, exists_call?_without h a.filePath hsrc]
  refine ⟨fun hc => hc.2, fun hc => ⟨?_, hc⟩⟩
  obtain ⟨b, hother, hc⟩ := hc
  obtain ⟨hb, hpath⟩ := mem_without.1 hother
  refine (knows_ofFiles h).2 ⟨⟨b, hb, h.source_of_call? hb hc⟩, ?_⟩
  obtain ⟨d, hd, htgt⟩ := htgt
  rcases (mem_reanalysed hperm).1 hd with rfl | hd
  · -- the callee is in the new analysis, so it was in the old one
    obtain ⟨hmem, rfl⟩ := Table.mem_of_lastWith hc
    obtain ⟨f, hf, rfl⟩ := List.mem_map.1 hmem
    obtain ⟨old, hold, -, hin⟩ := hcallees b hb hpath f hf htgt
    exact ⟨old, hold, hin⟩
  · exact ⟨d, (mem_without.1 hd).1, htgt⟩

omit hlisted in
/-- Between methods of the new project, the calls of the new analysis and the stored ones make up
    the calls of the new project. -/
theorem calls_reanalysed {e : Arrow} (htgt : ∃ b ∈ files', e.target ∈ b.methodIds) (c : Call) :
    (if (ofFiles files).owns a.filePath e.source = true then a.call? e
      else if (ofFiles files).owns a.filePath e.target = true then
        (ofFiles files).calls[e]?.or (a.call? e)
      else (a.call? e).or (ofFiles files).calls[e]?) = some c ↔
      ∃ b ∈ files', b.call? e = some c := by
  by_cases hsrc : (ofFiles files).owns a.filePath e.source = true
  · rw [if_pos hsrc]
    constructor
    · intro hc
      exact ⟨a, (mem_reanalysed hperm).2 (.inl rfl), hc⟩
    · rintro ⟨b, hb, hc⟩
      rcases (mem_reanalysed hperm).1 hb with rfl | hother
      · exact hc
      · -- another file cannot list a call of a method that the file owns
        obtain ⟨hb, hpath⟩ := mem_without.1 hother
        obtain ⟨old, hold, holdPath, hin⟩ := (owns_ofFiles h).1 hsrc
        rw [h.eq_of_method hb hold (h.source_of_call? hb hc) hin] at hpath
        exact absurd holdPath hpath
  · rw [if_neg hsrc]
    have hone : ∀ b ∈ files', ∀ d ∈ files', ∀ x y, b.call? e = some x → d.call? e = some y →
        b = d := fun b hb d hd _ _ hx hy => h'.eq_of_call? hb hd hx hy
    obtain ⟨hfirst, hlast⟩ :=
      or_eq_some_reanalysed hperm hone (calls_of_others h hperm hcallees hsrc htgt) c
    split
    · exact hlast
    · exact hfirst

/-- A file that is analysed again, once the methods that its change lists as deleted are gone. -/
theorem replaceFile_ofFiles :
    (listed.foldl removeMethod (ofFiles files)).replaceFile a = ofFiles files' := by
  have hvalid := valid_stable.removeMethods (valid_stable.ofFiles valid_empty files) listed
  have hbare := bare?_reanalysed h h' hperm hlisted
  refine eq_ofFiles (valid_stable.replaceFile hvalid a)
    (((callsOnly_ofFiles files).removeMethods listed).replaceFile a) hbare
    (class?_reanalysed h h' hperm) fun e => Option.ext fun c => ?_
  rw [calls_replaceFile hvalid.integral, knows_congr hbare e, calls_ofFiles h']
  by_cases hknows : (ofFiles files').knows e = true
  · rw [if_pos hknows]
    simp only [hknows, true_and]
    obtain ⟨⟨b, hb, hsrc⟩, htgt⟩ := (knows_ofFiles h').1 hknows
    have hsrcListed : e.source ∉ listed := fun hin => hlisted _ hin b hb hsrc
    have htgtListed : e.target ∉ listed := fun hin =>
      htgt.elim fun b ⟨hb, htgt⟩ => hlisted _ hin b hb htgt
    -- neither end of a call that is known afterwards is listed as deleted
    have howns : ∀ id, id ∉ listed →
        (listed.foldl removeMethod (ofFiles files)).owns a.filePath id =
          (ofFiles files).owns a.filePath id := by
      intro id hid
      rw [owns, bare?_removeMethods, if_neg hid, owns]
    rw [howns _ hsrcListed, howns _ htgtListed,
      calls_removeMethods (valid_stable.ofFiles valid_empty files).integral,
      if_neg (not_or.2 ⟨hsrcListed, htgtListed⟩)]
    exact calls_reanalysed h h' hperm hcallees htgt c
  · rw [if_neg hknows]
    simp [hknows]

/-- A file that is new. -/
theorem applyAnalysis_ofFiles (hnew : a.filePath ∉ files.map (·.filePath)) :
    (listed.foldl removeMethod (ofFiles files)).applyAnalysis a = ofFiles files' := by
  have hpath : ∀ b ∈ files, b.filePath ≠ a.filePath :=
    fun b hb heq => hnew (List.mem_map.2 ⟨b, hb, heq⟩)
  rw [← replaceFile_ofFiles h h' hperm hlisted hcallees, replaceFile_of_unowned]
  · refine List.eq_nil_iff_forall_not_mem.2 fun id hid => ?_
    obtain ⟨m, hm, hin⟩ := (Option.any_eq_true _ _).1 ((mem_methodsOf _).1 hid)
    rw [bare?_removeMethods] at hm
    split at hm
    · exact absurd hm (by simp)
    · obtain ⟨b, hb, hm⟩ := (bare?_ofFiles h).1 hm
      exact hpath b hb ((h.isIn_of_method? hb hm a.filePath).1 hin)
  · intro id c hc
    rw [class?, classes_removeMethods] at hc
    obtain ⟨b, hb, hc⟩ := (class?_ofFiles h).1 hc
    exact Bool.eq_false_iff.2 fun hin =>
      hpath b hb ((FileAnalysis.isIn_of_class? hc a.filePath).1 hin)

end Reanalysed

/-! ## Changes -/

/-- **Keeping up agrees with building anew.** A project is changed in one file, and the change lists
    as deleted no method that the project still has. If the file is deleted, the store that is
    brought up to date is the store of the other files. If the file is new, or is analysed again
    under its own path, it is the store of the project with the new analysis, provided no other
    file calls a method that the new analysis has and the old one did not. -/
theorem update_eq_ofFiles {files : List FileAnalysis} (h : PerFile files) (change : FileChange) :
    (∀ analyzer, change.kind = .deleted →
      (∀ id ∈ change.deletedMethods, ∀ b ∈ without change.filePath files, id ∉ b.methodIds) →
      ((ofFiles files).update analyzer [change]).store =
        ofFiles (without change.filePath files)) ∧
    ∀ (analyze : Analyzer) (a : FileAnalysis) (files' : List FileAnalysis),
      analyze change.filePath = .ok a →
      (change.kind = .added ∧ change.filePath ∉ files.map (·.filePath) ∨
        change.kind = .modified ∧ a.filePath = change.filePath) →
      files'.Perm (a :: without change.filePath files) → PerFile files' →
      (∀ b ∈ files, b.filePath ≠ change.filePath → ∀ c ∈ b.calls, c.callee ∈ a.methodIds →
        ∃ old ∈ files, old.filePath = change.filePath ∧ c.callee ∈ old.methodIds) →
      (∀ id ∈ change.deletedMethods, ∀ b ∈ files', id ∉ b.methodIds) →
      ((ofFiles files).update (some analyze) [change]).store = ofFiles files' := by
  constructor
  · intro analyzer hkind hlisted
    rw [update_store, List.foldl_cons, List.foldl_nil, applyChange_deleted analyzer hkind,
      removeFile_ofFiles h, removeMethods_eq_self]
    intro id hid
    rw [Bool.eq_false_iff, ne_eq, hasMethod_ofFiles (h.without _)]
    rintro ⟨b, hb, hin⟩
    exact hlisted id hid b hb hin
  · intro analyze a files' ha hkind hperm h' hcallees hlisted
    rw [update_store, List.foldl_cons, List.foldl_nil]
    rcases hkind with ⟨hkind, hnew⟩ | ⟨hkind, hpath⟩
    · rw [without_eq_self hnew] at hperm
      have hpaths : ((a :: files).map (·.filePath)).Nodup :=
        (hperm.map (·.filePath)).nodup_iff.1 h'.paths
      have hfresh : a.filePath ∉ files.map (·.filePath) := (List.nodup_cons.1 hpaths).1
      rw [applyChange_added ha hkind]
      refine applyAnalysis_ofFiles h h' (by rwa [without_eq_self hfresh]) hlisted ?_ hfresh
      -- there is no old analysis, so no other file calls a method of the new one
      intro b hb _ c hc hin
      have hne : b.filePath ≠ change.filePath := fun heq => hnew (List.mem_map.2 ⟨b, hb, heq⟩)
      obtain ⟨old, hold, heq, -⟩ := hcallees b hb hne c hc hin
      exact absurd (List.mem_map.2 ⟨old, hold, heq⟩) hnew
    · rw [← hpath] at hperm hcallees
      rw [applyChange_modified ha hkind]
      exact replaceFile_ofFiles h h' hperm hlisted hcallees

/-- A file with a class and two methods. -/
def parserFile : FileAnalysis where
  filePath := "parser"
  classes := [{ name := .string "Parser", qualifiedName := "Parser" }]
  methods := [{ id := "parse", name := "parse" }, { id := "peek", name := "peek" }]
  calls := [{ caller := "parse", callee := "peek" }]

/-- A file that calls both methods of the other and is called by none. -/
def serverFile : FileAnalysis where
  filePath := "server"
  methods := [{ id := "serve", name := "serve", filePath := .string "server" }]
  calls := [{ caller := "serve", callee := "parse" }, { caller := "serve", callee := "peek" }]

/-- The first file again, with one method replaced by another that calls back. -/
def parserFileAnew : FileAnalysis where
  filePath := "parser"
  methods := [{ id := "parse", name := "parse" }, { id := "report", name := "report" }]
  calls := [{ caller := "parse", callee := "report" }, { caller := "report", callee := "serve" }]

/-- A file that calls both of the others. -/
def mainFile : FileAnalysis where
  filePath := "main"
  methods := [{ id := "main", name := "main" }]
  calls := [{ caller := "main", callee := "serve" }, { caller := "main", callee := "peek" }]

theorem update_eq_ofFiles_server :
    PerFile [parserFile, serverFile] ∧
    ((ofFiles [parserFile, serverFile]).update none
      [{ filePath := "parser", kind := .deleted }]).store = ofFiles [serverFile] ∧
    ((ofFiles [parserFile, serverFile]).update (some fun _ => .ok mainFile)
      [{ filePath := "main", kind := .added }]).store =
        ofFiles [mainFile, parserFile, serverFile] ∧
    ((ofFiles [parserFile, serverFile]).update (some fun _ => .ok parserFileAnew)
      [{ filePath := "parser", kind := .modified, deletedMethods := ["peek"] }]).store =
        ofFiles [serverFile, parserFileAnew] := by
  have h : PerFile [parserFile, serverFile] := by decide
  refine ⟨h, ?_, ?_, ?_⟩
  · exact (update_eq_ofFiles h { filePath := "parser", kind := .deleted }).1 none rfl (by decide)
  · exact (update_eq_ofFiles h { filePath := "main", kind := .added }).2 (fun _ => .ok mainFile)
      mainFile _ rfl (by decide) (.refl _) (by decide) (by decide) (by decide)
  · exact (update_eq_ofFiles h
      { filePath := "parser", kind := .modified, deletedMethods := ["peek"] }).2
      (fun _ => .ok parserFileAnew) parserFileAnew _ rfl (by decide) (.swap _ _ _) (by decide)
      (by decide) (by decide)

end Store
end PathTriage
