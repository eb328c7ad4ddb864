import PathTriage.Proofs.Store.Changes
import PathTriage.Proofs.Store.Project

/-!
A file that is analysed again.

`Reanalysed s a t` says of each table what it holds in the store `t` after the change, in terms of
the store `s` before it and of the new analysis `a`. The file is the one that the analysis names,
and what it owns is what it owned before. A call is decided by the ownership of its two ends: calls
out of the file are up to the analysis, calls into it from outside are kept as they were, and of all
others the analysis has the last word if it lists them.

Ownership before the change is not ownership after it. A method that the analysis takes over from
another file was not the file's own when the old calls were dropped, so its stored calls stay: the
calls out of the file come from the analysis alone only if it lists those, too.
-/

namespace PathTriage

/-- An analysis has a call for a pair of ends exactly when it lists one. -/
theorem FileAnalysis.exists_call? {a : FileAnalysis} {e : Arrow} :
    (∃ k, a.call? e = some k) ↔ ∃ k ∈ a.calls, k.toCall.ends = e := by
  rw [call?, Table.exists_lastWith, callLinks]
  simp

namespace Store

/-- What a store holds after a file was analysed again. -/
structure Reanalysed (s : Store) (a : FileAnalysis) (t : Store) : Prop where
  /-- What the file owned goes, and what the analysis gives comes. -/
  hasMethod_iff : ∀ id, t.hasMethod id = true ↔
    s.hasMethod id = true ∧ s.owns a.filePath id = false ∨ id ∈ a.methodIds
  /-- A method of the analysis is the last one that it gives for the id, at no risk yet. -/
  found : ∀ id f, Table.lastWith MethodFinding.id id a.methods = some f →
    ∃ m, t.method? id = some m ∧ m.bare = f.placedIn a.filePath ∧ m.riskScore = .ofFloat 0
  /-- Any other method is as it was, its degrees apart. -/
  untouched : ∀ id, id ∉ a.methodIds → s.owns a.filePath id = false → t.bare? id = s.bare? id
  /-- The classes of the analysis come before those of other files. -/
  class?_eq : ∀ id,
    t.class? id = (a.class? id).or ((s.class? id).filter fun c => !c.isIn a.filePath)
  /-- A call lies between stored methods, and it was stored outside the file, was stored from
      outside the file into it, or is listed. -/
  mem_calls : ∀ e : Arrow, e ∈ t.calls ↔ t.knows e = true ∧
    (e ∈ s.calls ∧ s.owns a.filePath e.source = false ∧ s.owns a.filePath e.target = false ∨
      e ∈ s.calls ∧ s.owns a.filePath e.target = true ∧ s.owns a.filePath e.source = false ∨
      ∃ k ∈ a.calls, k.toCall.ends = e)
  /-- A call that was stored from outside the file into it keeps its record. -/
  entering : ∀ e : Arrow, e ∈ t.calls → e ∈ s.calls → s.owns a.filePath e.target = true →
    s.owns a.filePath e.source = false → t.calls[e]? = s.calls[e]?
  /-- Any other call has the record that the analysis gives last, or the one it had. -/
  others : ∀ e : Arrow, e ∈ t.calls →
    ¬(e ∈ s.calls ∧ s.owns a.filePath e.target = true ∧ s.owns a.filePath e.source = false) →
    t.calls[e]? = (a.call? e).or s.calls[e]?
  /-- The other links stay where both ends do. -/
  implementations : ∀ e : Arrow,
    t.implementations[e]? = if t.knows e = true then s.implementations[e]? else none
  dataFlows : ∀ e : Arrow, t.dataFlows[e]? = if t.knows e = true then s.dataFlows[e]? else none

section Replaced

variable {s : Store} (a : FileAnalysis)

theorem hasMethod_replaceFile (id : String) :
    (s.replaceFile a).hasMethod id = true ↔
      s.hasMethod id = true ∧ s.owns a.filePath id = false ∨ id ∈ a.methodIds := by
  rw [hasMethod_eq, bare?_replaceFile, Option.isSome_or, Bool.or_eq_true, or_comm,
    Option.isSome_iff_exists (x := a.method? id), FileAnalysis.exists_method?, hasMethod_eq, owns]
  cases s.bare? id with
  | none => simp
  | some m => cases hin : m.isIn a.filePath <;> simp [hin]

theorem bare?_replaceFile_of_not_mem {id : String} (hid : id ∉ a.methodIds)
    (howns : s.owns a.filePath id = false) : (s.replaceFile a).bare? id = s.bare? id := by
  have hnone : a.method? id = none := by
    rw [Option.eq_none_iff_forall_ne_some]
    intro m hm
    exact hid (FileAnalysis.mem_methodIds hm)
  rw [bare?_replaceFile, hnone, Option.none_or]
  rw [owns] at howns
  cases hm : s.bare? id with
  | none => rfl
  | some m =>
    rw [hm, Option.any_some] at howns
    simp [howns]

variable (h : s.Integral)

include h

/-- Which calls there are after a file is replaced, by the ownership of their ends. -/
theorem mem_calls_replaceFile (e : Arrow) :
    e ∈ (s.replaceFile a).calls ↔ (s.replaceFile a).knows e = true ∧
      (e ∈ s.calls ∧ s.owns a.filePath e.source = false ∧ s.owns a.filePath e.target = false ∨
        e ∈ s.calls ∧ s.owns a.filePath e.target = true ∧ s.owns a.filePath e.source = false ∨
        ∃ k ∈ a.calls, k.toCall.ends = e) := by
  rw [Std.ExtTreeMap.mem_iff_isSome_getElem?, Std.ExtTreeMap.mem_iff_isSome_getElem?,
    calls_replaceFile h, ← FileAnalysis.exists_call?, ← Option.isSome_iff_exists]
  by_cases hknows : (s.replaceFile a).knows e = true
  · cases hsrc : s.owns a.filePath e.source with
    | true => simp [hknows]
    | false =>
      cases htgt : s.owns a.filePath e.target with
      | true => simp [hknows]
      | false => simp [hknows, or_comm]
  · simp [hknows]

theorem calls_replaceFile_of_entering {e : Arrow} (he : e ∈ (s.replaceFile a).calls)
    (hstored : e ∈ s.calls) (htgt : s.owns a.filePath e.target = true)
    (hsrc : s.owns a.filePath e.source = false) :
    (s.replaceFile a).calls[e]? = s.calls[e]? := by
  have hknows := ((mem_calls_replaceFile a h e).1 he).1
  obtain ⟨k, hk⟩ := Option.isSome_iff_exists.1 (Std.ExtTreeMap.mem_iff_isSome_getElem?.1 hstored)
  rw [calls_replaceFile h, if_pos hknows, hsrc, htgt, hk]
  rfl

theorem calls_replaceFile_of_not_entering {e : Arrow} (he : e ∈ (s.replaceFile a).calls)
    (hother : ¬(e ∈ s.calls ∧ s.owns a.filePath e.target = true ∧
      s.owns a.filePath e.source = false)) :
    (s.replaceFile a).calls[e]? = (a.call? e).or s.calls[e]? := by
  obtain ⟨hknows, hcase⟩ := (mem_calls_replaceFile a h e).1 he
  rw [calls_replaceFile h, if_pos hknows]
  cases hsrc : s.owns a.filePath e.source with
  | true =>
    -- a call out of the file is there because it is listed
    have hlisted : ∃ k ∈ a.calls, k.toCall.ends = e := by simpa [hsrc] using hcase
    obtain ⟨k, hk⟩ := FileAnalysis.exists_call?.2 hlisted
    rw [if_pos rfl, hk, Option.some_or]
  | false =>
    cases htgt : s.owns a.filePath e.target with
    | false => simp
    | true =>
      -- a call into the file that was not stored is there because it is listed
      have hnew : s.calls[e]? = none := by
        by_contra hstored
        refine hother ⟨?_, htgt, hsrc⟩
        rw [Std.ExtTreeMap.mem_iff_isSome_getElem?]
        exact Option.isSome_iff_ne_none.2 hstored
      simp [hnew]

theorem reanalysed_replaceFile : Reanalysed s a (s.replaceFile a) where
  hasMethod_iff := hasMethod_replaceFile a
  found := by
    intro id f hf
    have hbare : (s.replaceFile a).bare? id = some (f.placedIn a.filePath) := by
      rw [bare?_replaceFile, a.method?_eq, hf, Option.map_some, Option.some_or]
    obtain ⟨m, hm, hplaced⟩ := Option.map_eq_some_iff.1 hbare
    exact ⟨m, hm, hplaced, congrArg Method.riskScore hplaced⟩
  untouched _ := bare?_replaceFile_of_not_mem a
  class?_eq := s.class?_replaceFile a
  mem_calls := mem_calls_replaceFile a h
  entering _ := calls_replaceFile_of_entering a h
  others _ := calls_replaceFile_of_not_entering a h
  implementations := SideTable.ofImplementations.getElem?_replaceFile h a
  dataFlows := SideTable.ofDataFlows.getElem?_replaceFile h a

end Replaced

/-- A file that is changed is replaced by its new analysis, once the methods are gone that the
    change lists as deleted. -/
theorem update_modified {s : Store} {analyze : Analyzer} {c : FileChange} {a : FileAnalysis}
    (ha : analyze c.filePath = .ok a) (hkind : c.kind = .modified) :
    (s.update (some analyze) [c]).store =
      (c.deletedMethods.foldl removeMethod s).replaceFile a := by
  rw [update_store, List.foldl_cons, List.foldl_nil, applyChange_modified ha hkind]

/-- **A file that is analysed again, exactly.** A change of a file that lists nothing as deleted
    leaves of the old store what the file did not own, puts the methods, classes and calls of the
    new analysis in, keeps the calls from outside into the file and all other links whose two ends
    are still there, and does nothing else. -/
theorem reanalysed_update {s : Store} (hs : s.Reachable) {analyze : Analyzer} {c : FileChange}
    {a : FileAnalysis} (ha : analyze c.filePath = .ok a) (hkind : c.kind = .modified)
    (hlisted : c.deletedMethods = []) : Reanalysed s a (s.update (some analyze) [c]).store := by
  rw [update_modified ha hkind, hlisted, List.foldl_nil]
  exact reanalysed_replaceFile a hs.integral

/-- A file of two methods that call each other, and a caller of one of them in another file. There
    are links of the other kinds into the file and out of it. -/
def linkedFiles : Store :=
  after
    [.putClass { id := "Parser", name := .string "Parser", filePath := .string "parser" },
     .putMethod { id := "parse", name := "parse", filePath := .string "parser" },
     .putMethod { id := "peek", name := "peek", filePath := .string "parser" },
     .putMethod { id := "serve", name := "serve", filePath := .string "server" },
     .addCall { caller := "parse", callee := "peek" },
     .addCall { caller := "peek", callee := "parse" },
     .addCall { caller := "serve", callee := "parse", line := .ofInt 3 },
     .addImplementation { interfaceMethod := "serve", method := "parse" },
     .addDataFlow { source := "peek", target := "serve" }]

/-- The file without one of its methods. It gives the other one twice, and lists its caller, too. -/
def parserAlone : FileAnalysis where
  filePath := "parser"
  methods := [{ id := "parse", name := "old" }, { id := "parse", name := "parse" }]
  calls := [{ caller := "parse", callee := "serve" }, { caller := "serve", callee := "parse" }]

theorem reanalysed_update_linkedFiles :
    linkedFiles.Reachable ∧
      Reanalysed linkedFiles parserAlone
        (linkedFiles.update (some fun _ => .ok parserAlone)
          [{ filePath := "parser", kind := .modified }]).store := by
  have hr : linkedFiles.Reachable := reachable_after _
  exact ⟨hr, reanalysed_update hr rfl rfl rfl⟩

/-! ## Calls out of the file -/

/-- The calls out of the file of an analysis come from the analysis: each of them is listed, and has
    the record that is listed last. -/
def OutgoingFresh (a : FileAnalysis) (s : Store) : Prop :=
  ∀ (e : Arrow) (k : Call), s.calls[e]? = some k → s.owns a.filePath e.source = true →
    a.call? e = some k

/-- Whether an analysis takes over a method that is stored, but not as one of its file. -/
def takesOver (s : Store) (a : FileAnalysis) (id : String) : Bool :=
  s.hasMethod id && !s.owns a.filePath id && (a.method? id).any (·.isIn a.filePath)

/-- An analysis lists the stored calls of the methods that it takes over. A call of a method that
    the file owned already has to be listed as it is stored, if the analysis still gives that
    method. -/
def ListsTakenOver (s : Store) (a : FileAnalysis) : Prop :=
  ∀ (e : Arrow) (k : Call), s.calls[e]? = some k → s.takesOver a e.source = true →
    if s.owns a.filePath e.target = true then e.target ∈ a.methodIds → a.call? e = some k
    else ∃ k', a.call? e = some k'

section Outgoing

variable {s : Store} {a : FileAnalysis}

/-- After a file is replaced, it owns what its analysis places in it. -/
theorem owns_replaceFile (id : String) :
    (s.replaceFile a).owns a.filePath id = (a.method? id).any (·.isIn a.filePath) := by
  rw [owns, bare?_replaceFile]
  cases a.method? id with
  | some m => rfl
  | none =>
    cases s.bare? id with
    | none => rfl
    | some m => cases m.isIn a.filePath <;> simp

theorem takesOver_iff {id : String} :
    s.takesOver a id = true ↔ s.hasMethod id = true ∧ s.owns a.filePath id = false ∧
      (s.replaceFile a).owns a.filePath id = true := by
  rw [owns_replaceFile, takesOver, Bool.and_eq_true, Bool.and_eq_true, Bool.not_eq_true', and_assoc]

variable (h : s.Integral)

include h

/-- A call out of a file that was replaced is the one that the analysis gives, or a stored one of a
    method that the analysis takes over. -/
theorem outgoing_cases {e : Arrow} {k : Call} (hk : (s.replaceFile a).calls[e]? = some k)
    (hout : (s.replaceFile a).owns a.filePath e.source = true) :
    a.call? e = some k ∨ s.takesOver a e.source = true ∧ s.calls[e]? = some k := by
  have hknows := ((integral_stable.replaceFile h a).calls e k hk).2
  rw [calls_replaceFile h, if_pos hknows] at hk
  cases hsrc : s.owns a.filePath e.source with
  | true =>
    -- the old calls of the file are gone, so the analysis has brought this one
    rw [hsrc, if_pos rfl] at hk
    exact .inl hk
  | false =>
    have htaken : s.calls[e]? = some k → s.takesOver a e.source = true := by
      intro hstored
      have hends := (s.knows_iff e).1 (h.calls e k hstored).2
      exact takesOver_iff.2 ⟨hends.1, hsrc, hout⟩
    rw [hsrc, if_neg (by decide)] at hk
    -- the store has the first word about calls into the file, and the analysis about all others
    split at hk
    · rcases Option.or_eq_some_iff.1 hk with hstored | ⟨-, hlisted⟩
      · exact .inr ⟨htaken hstored, hstored⟩
      · exact .inl hlisted
    · rcases Option.or_eq_some_iff.1 hk with hlisted | ⟨-, hstored⟩
      · exact .inl hlisted
      · exact .inr ⟨htaken hstored, hstored⟩

/-- A stored call of a method that an analysis takes over is still there if its callee is. Its
    record is the stored one if the file owned the callee, and else the one that the analysis gives,
    if it gives any. -/
theorem calls_of_takesOver {e : Arrow} {k : Call} (hstored : s.calls[e]? = some k)
    (htaken : s.takesOver a e.source = true)
    (htgt : s.owns a.filePath e.target = true → e.target ∈ a.methodIds) :
    (s.replaceFile a).calls[e]? =
      if s.owns a.filePath e.target = true then some k else (a.call? e).or (some k) := by
  obtain ⟨-, hsrc, hout⟩ := takesOver_iff.1 htaken
  have hends := (s.knows_iff e).1 (h.calls e k hstored).2
  have hknows : (s.replaceFile a).knows e = true := by
    rw [knows_iff, hasMethod_replaceFile, hasMethod_replaceFile]
    refine ⟨.inl ⟨hends.1, hsrc⟩, ?_⟩
    cases howned : s.owns a.filePath e.target with
    | true => exact .inr (htgt howned)
    | false => exact .inl ⟨hends.2, rfl⟩
  rw [calls_replaceFile h, if_pos hknows, hsrc, if_neg (by decide), hstored, Option.some_or]

theorem outgoingFresh_replaceFile_iff :
    OutgoingFresh a (s.replaceFile a) ↔ ListsTakenOver s a := by
  constructor
  · intro hfresh e k hstored htaken
    have hout := (takesOver_iff.1 htaken).2.2
    by_cases howned : s.owns a.filePath e.target = true
    · rw [if_pos howned]
      intro htgt
      have hcall := calls_of_takesOver h hstored htaken fun _ => htgt
      rw [if_pos howned] at hcall
      exact hfresh e k hcall hout
    · rw [if_neg howned]
      have hcall := calls_of_takesOver h hstored htaken fun h => absurd h howned
      rw [if_neg howned] at hcall
      obtain ⟨k', hk'⟩ : ∃ k', (a.call? e).or (some k) = some k' := by
        cases a.call? e <;> simp
      exact ⟨k', hfresh e k' (hcall.trans hk') hout⟩
  · intro hlists e k hk hout
    rcases outgoing_cases h hk hout with hlisted | ⟨htaken, hstored⟩
    · exact hlisted
    · have hlists := hlists e k hstored htaken
      by_cases howned : s.owns a.filePath e.target = true
      · -- the callee is known, so the analysis gives it
        have hends := (knows_iff _ e).1 ((integral_stable.replaceFile h a).calls e k hk).2
        have htgt : e.target ∈ a.methodIds := by
          rcases (hasMethod_replaceFile a e.target).1 hends.2 with ⟨-, hnot⟩ | htgt
          · rw [howned] at hnot
            cases hnot
          · exact htgt
        rw [if_pos howned] at hlists
        exact hlists htgt
      · rw [if_neg howned] at hlists
        obtain ⟨k', hk'⟩ := hlists
        have hcall := calls_of_takesOver h hstored htaken fun h => absurd h howned
        rw [if_neg howned, hk', Option.some_or, hk] at hcall
        rw [hk', hcall]

end Outgoing

/-- **Where the calls out of a file come from.** After a change of a file, each call out of it is
    the one that the new analysis gives, or a stored call of a method that the analysis takes over
    from elsewhere. So all of them come from the analysis exactly when it lists the stored calls of
    the methods that it takes over; in particular when it takes over none. -/
theorem outgoing_fresh_iff {s : Store} (hs : s.Reachable) {analyze : Analyzer} {c : FileChange}
    {a : FileAnalysis} (ha : analyze c.filePath = .ok a) (hkind : c.kind = .modified) :
    let old := c.deletedMethods.foldl removeMethod s
    let new := (s.update (some analyze) [c]).store
    (∀ (e : Arrow) (k : Call), new.calls[e]? = some k → new.owns a.filePath e.source = true →
      a.call? e = some k ∨ old.takesOver a e.source = true ∧ old.calls[e]? = some k) ∧
    (OutgoingFresh a new ↔ ListsTakenOver old a) := by
  intro old new
  have hold : old.Integral := integral_stable.removeMethods hs.integral c.deletedMethods
  have hnew : new = old.replaceFile a := update_modified ha hkind
  rw [hnew]
  exact ⟨fun _ _ => outgoing_cases hold, outgoingFresh_replaceFile_iff hold⟩

/-- A method that calls another one of its file. -/
def workAndLog : Store :=
  after
    [.putMethod { id := "work", name := "work", filePath := .string "old" },
     .putMethod { id := "log", name := "log", filePath := .string "old" },
     .addCall { caller := "work", callee := "log" }]

/-- Another file, into which the method has moved with its call. -/
def movedCaller : FileAnalysis where
  filePath := "new"
  methods := [{ id := "work", name := "work" }]
  calls := [{ caller := "work", callee := "log", line := .ofInt 12 }]

theorem outgoing_fresh_iff_movedCaller :
    workAndLog.Reachable ∧ workAndLog.takesOver movedCaller "work" = true ∧
      ListsTakenOver workAndLog movedCaller ∧
      OutgoingFresh movedCaller
        (workAndLog.update (some fun _ => .ok movedCaller)
          [{ filePath := "new", kind := .modified }]).store := by
  have hr : workAndLog.Reachable := reachable_after _
  have hlists : ListsTakenOver workAndLog movedCaller := by
    intro e k hk _
    have hkeys : workAndLog.calls.keys = [⟨"work", "log"⟩] := by decide +kernel
    have he : e ∈ workAndLog.calls.keys := by
      rw [Std.ExtTreeMap.mem_keys, Std.ExtTreeMap.mem_iff_isSome_getElem?, hk]
      rfl
    rw [hkeys, List.mem_singleton] at he
    subst he
    rw [if_neg (by decide +kernel)]
    exact ⟨_, rfl⟩
  have hiff := (@outgoing_fresh_iff workAndLog hr (fun _ => .ok movedCaller)
    { filePath := "new", kind := .modified } movedCaller rfl rfl).2
  rw [List.foldl_nil] at hiff
  exact ⟨hr, by decide +kernel, hlists, hiff.2 hlists⟩

/-- The same file, in which the method calls nothing any more. -/
def movedWork : FileAnalysis where
  filePath := "new"
  methods := [{ id := "work", name := "work" }]

/-- A method that moves into a file keeps a call that the analysis of the file does not list. -/
theorem moved_method_keeps_call :
    let update := workAndLog.update (some fun _ => .ok movedWork)
      [{ filePath := "new", kind := .modified }]
    workAndLog.Reachable ∧ update.result.success = true ∧
      update.store.owns "new" "work" = true ∧ update.store.hasCall "work" "log" = true ∧
      movedWork.calls = [] ∧ ¬OutgoingFresh movedWork update.store := by
  intro update
  have howns : update.store.owns "new" "work" = true := by decide +kernel
  have hcall : update.store.hasCall "work" "log" = true := by decide +kernel
  refine ⟨reachable_after _, by decide +kernel, howns, hcall, rfl, fun hfresh => ?_⟩
  obtain ⟨k, hk⟩ := Option.isSome_iff_exists.1
    (Std.ExtTreeMap.contains_eq_isSome_getElem?.symm.trans hcall)
  have hlisted := hfresh ⟨"work", "log"⟩ k hk howns
  cases hlisted

end Store
end PathTriage
