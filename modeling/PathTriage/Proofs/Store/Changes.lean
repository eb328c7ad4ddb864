import PathTriage.Proofs.Store.Content
import PathTriage.Proofs.Store.Run

/-!
A list of file changes, change by change.

Whether a change fails does not hang on the store but on the change and the analyser alone
(`failure?`). The turns of a list of changes are the stores that its members meet. What an update
reports is read off the turns: it counts what the changes that did not fail affected, and has one
message for each of the others.

What a failed change leaves behind is exact: a failed rename leaves nothing, and a file that could
not be analysed has lost the methods that its change lists as deleted, and nothing else.
-/

namespace PathTriage

/-- Why a change fails, if it does. -/
def FileChange.failure? (analyzer : Option Analyzer) (c : FileChange) : Option ChangeFailure :=
  match c.kind with
  | .renamed => if (c.oldPath.getD "").isEmpty then some .renameWithoutOldPath else none
  | .deleted => none
  | .added | .modified =>
    match analyzer with
    | none => none
    | some analyze =>
      match analyze c.filePath with
      | .ok _ => none
      | .error reason => some (.noAnalysis reason)

/-- Whether a change goes through. -/
def FileChange.applies (analyzer : Option Analyzer) (c : FileChange) : Bool :=
  (c.failure? analyzer).isNone

/-- The message about a change that fails. -/
def FileChange.errors (analyzer : Option Analyzer) (c : FileChange) : List String :=
  match c.failure? analyzer with
  | none => []
  | some failure => ["Error updating " ++ c.filePath ++ ": " ++ failure.message]

/-- The sum of tallies. -/
def Tally.total (ts : List Tally) : Tally := ts.foldl Tally.add {}

theorem Tally.zero_add (t : Tally) : Tally.add {} t = t := by
  simp [Tally.add]

/-- Counts add up, so the order of adding does not matter. -/
theorem Tally.add_assoc (a b c : Tally) : (a.add b).add c = a.add (b.add c) := by
  simp [Tally.add, Nat.add_assoc]

theorem Tally.foldl_add (ts : List Tally) (t : Tally) :
    ts.foldl Tally.add t = t.add (Tally.total ts) := by
  induction ts generalizing t with
  | nil => simp [Tally.total, Tally.add]
  | cons u ts ih =>
    rw [Tally.total, List.foldl_cons, List.foldl_cons, ih, ih (Tally.add {} u), Tally.zero_add,
      Tally.add_assoc]

theorem Tally.total_cons (t : Tally) (ts : List Tally) :
    Tally.total (t :: ts) = t.add (Tally.total ts) := by
  rw [Tally.total, List.foldl_cons, Tally.zero_add, Tally.foldl_add]

namespace Store

variable {s : Store} {analyzer : Option Analyzer} {c : FileChange}

/-! ## One change -/

/-- The listed methods are removed one after the other. -/
theorem dropListed_store (p : Progress) (c : FileChange) :
    (p.dropListed c).store = c.deletedMethods.foldl removeMethod p.store :=
  p.store_removeMethods c.deletedMethods

theorem reanalyze_failure (p : Progress) (take : Progress → FileAnalysis → Progress)
    (hkind : c.kind = .added ∨ c.kind = .modified) :
    (p.reanalyze analyzer c take).2 = c.failure? analyzer := by
  unfold Progress.reanalyze FileChange.failure?
  rcases hkind with hkind | hkind
  all_goals
    rw [hkind]
    cases analyzer with
    | none => rfl
    | some analyze =>
      dsimp only
      cases analyze c.filePath <;> rfl

/-- Whether a change fails can be told without the store. -/
theorem applyChange_failure (s : Store) (analyzer : Option Analyzer) (c : FileChange) :
    (s.applyChange analyzer c).2 = c.failure? analyzer := by
  unfold applyChange
  cases hkind : c.kind with
  | renamed =>
    unfold FileChange.failure?
    rw [hkind]
    cases c.oldPath with
    | none => rfl
    | some old =>
      dsimp only [Option.getD_some]
      by_cases hempty : old.isEmpty = true
      · rw [if_pos hempty, if_pos hempty]
      · rw [if_neg hempty, if_neg hempty]
  | deleted =>
    unfold FileChange.failure?
    rw [hkind]
  | added => exact reanalyze_failure _ _ (.inl hkind)
  | modified => exact reanalyze_failure _ _ (.inr hkind)

/-- An analysis that fails leaves everything as it was before it. -/
theorem reanalyze_store_of_failure {p : Progress} {take : Progress → FileAnalysis → Progress}
    (h : ((p.reanalyze analyzer c take).2).isNone = false) :
    (p.reanalyze analyzer c take).1 = p := by
  unfold Progress.reanalyze at h ⊢
  cases analyzer with
  | none => simp at h
  | some analyze =>
    dsimp only at h ⊢
    cases hr : analyze c.filePath with
    | ok a => simp [hr] at h
    | error reason => rfl

/-- A deleted file takes out what it owns, and then the listed methods. -/
theorem applyChange_deleted (analyzer : Option Analyzer) (h : c.kind = .deleted) :
    (s.applyChange analyzer c).1.store =
      c.deletedMethods.foldl removeMethod (s.removeFile c.filePath) := by
  rw [applyChange, h]
  refine (dropListed_store _ c).trans ?_
  rw [Progress.store_removeFile]

section Analysed

variable {analyze : Analyzer} {a : FileAnalysis} (ha : analyze c.filePath = .ok a)

include ha

theorem reanalyze_ok (p : Progress) (take : Progress → FileAnalysis → Progress) :
    p.reanalyze (some analyze) c take = (take p a, none) := by
  simp only [Progress.reanalyze, ha]

/-- An added file: the listed methods go, and the analysis comes in. -/
theorem applyChange_added (h : c.kind = .added) :
    (s.applyChange (some analyze) c).1.store =
      (c.deletedMethods.foldl removeMethod s).applyAnalysis a := by
  rw [applyChange, h]
  simp only [reanalyze_ok ha, Progress.apply, dropListed_store]

/-- A modified file: the listed methods go, and the analysis replaces the file. -/
theorem applyChange_modified (h : c.kind = .modified) :
    (s.applyChange (some analyze) c).1.store =
      (c.deletedMethods.foldl removeMethod s).replaceFile a := by
  rw [applyChange, h]
  simp only [reanalyze_ok ha, Progress.replace, dropListed_store]

end Analysed

/-- What a failed change leaves behind: a file that could not be analysed has lost the methods
    that the change lists as deleted. -/
theorem applyChange_store_of_failure (h : c.applies analyzer = false) :
    (s.applyChange analyzer c).1.store =
      if c.kind = .renamed then s else c.deletedMethods.foldl removeMethod s := by
  have hfail : ((s.applyChange analyzer c).2).isNone = false := by
    rw [applyChange_failure]
    exact h
  -- a deleted file cannot fail, and a renamed one fails before anything is done
  unfold applyChange at hfail ⊢
  cases hkind : c.kind with
  | renamed =>
    rw [hkind] at hfail
    dsimp only at hfail ⊢
    rw [if_pos rfl]
    cases hold : c.oldPath with
    | none => rfl
    | some old =>
      rw [hold] at hfail
      dsimp only at hfail ⊢
      by_cases hempty : old.isEmpty = true
      · rw [if_pos hempty]
      · rw [if_neg hempty] at hfail
        simp at hfail
  | deleted =>
    rw [hkind] at hfail
    simp at hfail
  | added =>
    rw [hkind] at hfail
    rw [if_neg (by decide)]
    dsimp only at hfail ⊢
    rw [reanalyze_store_of_failure hfail, dropListed_store]
  | modified =>
    rw [hkind] at hfail
    rw [if_neg (by decide)]
    dsimp only at hfail ⊢
    rw [reanalyze_store_of_failure hfail, dropListed_store]

/-- A failed change leaves no trace exactly when it is a rename or lists no stored method. -/
theorem applyChange_store_eq_self (h : c.applies analyzer = false) :
    (s.applyChange analyzer c).1.store = s ↔
      c.kind = .renamed ∨ ∀ id ∈ c.deletedMethods, s.hasMethod id = false := by
  rw [applyChange_store_of_failure h]
  by_cases hkind : c.kind = .renamed
  · simp [hkind]
  · rw [if_neg hkind, removeMethods_eq_self]
    simp [hkind]

/-! ## All changes -/

/-- The stores that the changes of a list meet, each with its change. -/
def turns (s : Store) (analyzer : Option Analyzer) : List FileChange → List (Store × FileChange)
  | [] => []
  | c :: cs => (s, c) :: turns (s.applyChange analyzer c).1.store analyzer cs

/-- What a change affects at its turn. -/
def tallyAt (analyzer : Option Analyzer) (t : Store × FileChange) : Tally :=
  (t.1.applyChange analyzer t.2).1.tally

/-- One step of an update adds to the messages and, if the change applies, to the counts. -/
theorem step_eq (analyzer : Option Analyzer) (u : UpdateProgress) (c : FileChange) :
    (u.step analyzer c).store = (u.store.applyChange analyzer c).1.store ∧
      (u.step analyzer c).result.errors = u.result.errors ++ c.errors analyzer ∧
      (u.step analyzer c).result.tally =
        if c.applies analyzer = true then u.result.tally.add (tallyAt analyzer (u.store, c))
        else u.result.tally := by
  have hfail := applyChange_failure u.store analyzer c
  unfold UpdateProgress.step FileChange.errors FileChange.applies tallyAt
  rw [← hfail]
  rcases hr : u.store.applyChange analyzer c with ⟨p, _ | failure⟩
  · simp
  · simp

/-- The store, the messages and the tally after a run of changes, from wherever it starts. -/
theorem foldl_step_eq (cs : List FileChange) :
    ∀ u : UpdateProgress,
      (cs.foldl (UpdateProgress.step analyzer) u).store =
          cs.foldl (fun s c => (s.applyChange analyzer c).1.store) u.store ∧
        (cs.foldl (UpdateProgress.step analyzer) u).result.errors =
          u.result.errors ++ cs.flatMap (·.errors analyzer) ∧
        (cs.foldl (UpdateProgress.step analyzer) u).result.tally =
          u.result.tally.add (Tally.total
            (((u.store.turns analyzer cs).filter (·.2.applies analyzer)).map
              (tallyAt analyzer))) := by
  induction cs with
  | nil => intro u; simp [turns, Tally.total, Tally.add]
  | cons c cs ih =>
    intro u
    obtain ⟨hstore, herrors, htally⟩ := step_eq analyzer u c
    obtain ⟨ihstore, iherrors, ihtally⟩ := ih (u.step analyzer c)
    refine ⟨?_, ?_, ?_⟩
    · rw [List.foldl_cons, ihstore, hstore, List.foldl_cons]
    · rw [List.foldl_cons, iherrors, herrors, List.flatMap_cons, List.append_assoc]
    · rw [List.foldl_cons, ihtally, htally, hstore, turns]
      by_cases hc : c.applies analyzer = true
      · rw [if_pos hc, List.filter_cons, if_pos hc, List.map_cons, Tally.total_cons,
          Tally.add_assoc]
      · rw [if_neg hc, List.filter_cons, if_neg hc]

/-- The store after an update is that after its changes, one by one, failed ones included. -/
theorem update_store (cs : List FileChange) :
    (s.update analyzer cs).store = cs.foldl (fun s c => (s.applyChange analyzer c).1.store) s :=
  (foldl_step_eq cs { store := s }).1

/-- Changes may come in one update or in two. -/
theorem update_append_store (cs ds : List FileChange) :
    (s.update analyzer (cs ++ ds)).store =
      ((s.update analyzer cs).store.update analyzer ds).store := by
  rw [update_store, update_store, update_store, List.foldl_append]

theorem update_errors (cs : List FileChange) :
    (s.update analyzer cs).result.errors = cs.flatMap (·.errors analyzer) :=
  (foldl_step_eq cs { store := s }).2.1

/-- An update counts the changes that apply, each in the store that it met. -/
theorem update_tally (cs : List FileChange) :
    (s.update analyzer cs).result.tally = Tally.total
      (((s.turns analyzer cs).filter (·.2.applies analyzer)).map (tallyAt analyzer)) := by
  rw [update, (foldl_step_eq cs { store := s }).2.2, Tally.zero_add]

/-! ## Changes that fail -/

/-- A turn at which a failure would leave nothing behind. -/
def Traceless (t : Store × FileChange) : Prop :=
  t.2.kind = .renamed ∨ ∀ id ∈ t.2.deletedMethods, t.1.hasMethod id = false

/-- Leaving out changes that do nothing leaves the turns of the others as they were. -/
theorem turns_filter {cs : List FileChange} :
    ∀ {s : Store}, (∀ t ∈ s.turns analyzer cs, t.2.applies analyzer = false →
        (t.1.applyChange analyzer t.2).1.store = t.1) →
      s.turns analyzer (cs.filter (·.applies analyzer)) =
          (s.turns analyzer cs).filter (·.2.applies analyzer) ∧
        (cs.filter (·.applies analyzer)).foldl (fun s c => (s.applyChange analyzer c).1.store) s =
          cs.foldl (fun s c => (s.applyChange analyzer c).1.store) s := by
  induction cs with
  | nil => intro s _; exact ⟨rfl, rfl⟩
  | cons c cs ih =>
    intro s h
    obtain ⟨ihturns, ihstore⟩ := ih fun t ht => h t (List.mem_cons_of_mem (s, c) ht)
    rw [turns, List.filter_cons, List.filter_cons, List.foldl_cons]
    by_cases hc : c.applies analyzer = true
    · rw [if_pos hc, if_pos hc, turns, List.foldl_cons, ihturns, ihstore]
      exact ⟨rfl, rfl⟩
    · rw [if_neg hc, if_neg hc]
      have hself : (s.applyChange analyzer c).1.store = s :=
        h (s, c) List.mem_cons_self (by simpa using hc)
      rw [hself] at ihturns ihstore ⊢
      exact ⟨ihturns, ihstore⟩

/-- **What failed changes leave behind.** An update counts what the changes that did not fail
    affected at their turns, and reports each of the others once. A change that failed has removed
    the methods that it lists as deleted, unless it is a rename, and nothing else; so it leaves the
    store as it was exactly when none of them was stored at its turn. If that is so of all failed
    changes, the update is the update by the others alone. -/
theorem update_failed_changes (s : Store) (analyzer : Option Analyzer) (cs : List FileChange) :
    (s.update analyzer cs).result.tally = Tally.total
        (((s.turns analyzer cs).filter (·.2.applies analyzer)).map (tallyAt analyzer)) ∧
      (s.update analyzer cs).result.errors = cs.flatMap (·.errors analyzer) ∧
      (∀ t ∈ s.turns analyzer cs, t.2.applies analyzer = false →
        (t.1.applyChange analyzer t.2).1.store =
            (if t.2.kind = .renamed then t.1 else t.2.deletedMethods.foldl removeMethod t.1) ∧
          ((t.1.applyChange analyzer t.2).1.store = t.1 ↔ Traceless t)) ∧
      ((∀ t ∈ s.turns analyzer cs, t.2.applies analyzer = false → Traceless t) →
        (s.update analyzer cs).store =
            (s.update analyzer (cs.filter (·.applies analyzer))).store ∧
          (s.update analyzer cs).result.tally =
            (s.update analyzer (cs.filter (·.applies analyzer))).result.tally) := by
  refine ⟨update_tally cs, update_errors cs, ?_, ?_⟩
  · intro t _ hfail
    exact ⟨applyChange_store_of_failure hfail, applyChange_store_eq_self hfail⟩
  · intro h
    have hself : ∀ t ∈ s.turns analyzer cs, t.2.applies analyzer = false →
        (t.1.applyChange analyzer t.2).1.store = t.1 := by
      intro t ht hfail
      exact (applyChange_store_eq_self hfail).2 (h t ht hfail)
    obtain ⟨hturns, hstore⟩ := turns_filter hself
    rw [update_store, update_store, update_tally, update_tally, hturns, hstore, List.filter_filter]
    simp only [Bool.and_self, and_self]

/-- Two methods of a file, one of which calls the other. -/
def callerAndCallee : Store :=
  after
    [.putMethod { id := "a", name := "a", filePath := .string "f" },
     .putMethod { id := "b", name := "b", filePath := .string "f" },
     .addCall { caller := "a", callee := "b" }]

/-- An analyser that can read no file. -/
def unreadable : Option Analyzer := some fun _ => .error "parse failure"

/-- A file that cannot be analysed again, a rename without the old path and a deletion: the first
    two fail without a trace, the third goes through. -/
theorem update_failed_changes_traceless :
    let cs : List FileChange :=
      [{ filePath := "f", kind := .modified, deletedMethods := ["x"] },
       { filePath := "g", kind := .renamed },
       { filePath := "f", kind := .deleted }]
    (∀ t ∈ callerAndCallee.turns unreadable cs, t.2.applies unreadable = false → Traceless t) ∧
      (callerAndCallee.update unreadable cs).store =
        (callerAndCallee.update unreadable (cs.filter (·.applies unreadable))).store := by
  intro cs
  have h : ∀ t ∈ callerAndCallee.turns unreadable cs, t.2.applies unreadable = false →
      Traceless t := by
    intro t ht hfail
    simp only [cs, turns, List.mem_cons, List.not_mem_nil, or_false] at ht
    rcases ht with rfl | rfl | rfl
    · right
      intro id hid
      rw [List.mem_singleton] at hid
      subst hid
      decide +kernel
    · exact .inl rfl
    · exact absurd hfail (by decide)
  exact ⟨h, ((update_failed_changes callerAndCallee unreadable cs).2.2.2 h).1⟩

/-- A file that cannot be analysed again loses the method that its change lists as deleted, though
    the change is reported as failed and counts for nothing. -/
theorem failed_change_leaves_trace :
    let cs : List FileChange := [{ filePath := "f", kind := .modified, deletedMethods := ["b"] }]
    callerAndCallee.Reachable ∧
      (callerAndCallee.update unreadable cs).result.errors = ["Error updating f: parse failure"] ∧
      (callerAndCallee.update unreadable cs).result.tally = {} ∧
      (callerAndCallee.update unreadable cs).store ≠
        (callerAndCallee.update unreadable (cs.filter (·.applies unreadable))).store := by
  intro cs
  refine ⟨reachable_after _, by decide +kernel, by decide +kernel, ?_⟩
  intro heq
  have hlost : (callerAndCallee.update unreadable cs).store.hasMethod "b" = false := by
    decide +kernel
  have hkept : (callerAndCallee.update unreadable
      (cs.filter (·.applies unreadable))).store.hasMethod "b" = true := by
    decide +kernel
  rw [heq, hkept] at hlost
  exact absurd hlost (by decide)

end Store
end PathTriage
