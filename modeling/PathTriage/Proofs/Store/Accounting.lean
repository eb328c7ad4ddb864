import PathTriage.Proofs.Store.Renaming

/-!
What an update without an analyser counts.

Such an update can only take things out of a store and move them. Links are counted as they go.
Methods and classes are counted as they go, too, and in addition as they are moved by a rename and
as they are listed by a change of an added or modified file.

`Balanced s t spent credit` is the balance of one change or of many: what was spent makes up for
what is missing from `t`, and for the credit. Balances add up (`Balanced.trans`), so the balance of
an update follows from that of a single change (`balanced_applyChange`), in whatever order changes
of the four kinds come and however often they name the same method or file.
-/

namespace PathTriage

namespace FileChange

/-- Whether a change is a rename that does not say what was renamed. -/
def lacksOldPath (c : FileChange) : Bool :=
  decide (c.kind = .renamed) && (c.oldPath.getD "").isEmpty

/-- The number of methods that a change of an added or modified file lists as added or modified. -/
def listed (c : FileChange) : Nat :=
  match c.kind with
  | .added | .modified => c.addedMethods.length + c.modifiedMethods.length
  | .deleted | .renamed => 0

/-! ## Failures without an analyser -/

variable {c : FileChange}

/-- Without an analyser nothing fails but a rename that does not say what was renamed. -/
theorem failure?_none (c : FileChange) :
    c.failure? none = if c.lacksOldPath = true then some .renameWithoutOldPath else none := by
  unfold failure? lacksOldPath
  cases hkind : c.kind with
  | renamed => simp
  | deleted => simp
  | added => simp
  | modified => simp

theorem applies_none (c : FileChange) : c.applies none = !c.lacksOldPath := by
  rw [applies, failure?_none]
  cases c.lacksOldPath <;> rfl

/-- The message about a rename that does not say what was renamed. -/
theorem errors_none (c : FileChange) :
    c.errors none =
      if c.lacksOldPath = true then
        ["Error updating " ++ c.filePath ++ ": rename requires old_path"]
      else [] := by
  rw [errors, failure?_none]
  by_cases hlacks : c.lacksOldPath = true
  · rw [if_pos hlacks, if_pos hlacks]
    show ["Error updating " ++ c.filePath ++ ": " ++ "rename requires old_path"] = _
    rw [String.append_assoc]
    rfl
  · rw [if_neg hlacks, if_neg hlacks]

theorem kind_of_lacksOldPath (h : c.lacksOldPath = true) : c.kind = .renamed := by
  rw [lacksOldPath, Bool.and_eq_true] at h
  exact of_decide_eq_true h.1

end FileChange

namespace Store

/-- The number of methods and classes that a rename moves at its turn. -/
def movedAt (t : Store × FileChange) : Nat :=
  if t.2.kind = .renamed ∧ t.2.lacksOldPath = false then t.1.ownedCount (t.2.oldPath.getD "") else 0

/-- What a change counts beyond what it removes. -/
def creditAt (t : Store × FileChange) : Nat := movedAt t + t.2.listed

/-! ## Balances -/

/-- What was spent on the way from one store to another makes up for what is missing, and for a
    credit in nodes. -/
structure Balanced (s t : Store) (spent : Tally) (credit : Nat) : Prop where
  links : spent.links + t.linkCount = s.linkCount
  nodes : spent.nodes + t.nodeCount = s.nodeCount + credit

namespace Balanced

variable {s t u : Store} {spent spent' : Tally} {credit credit' : Nat}

/-- What is counted without being removed is a credit. -/
theorem of_credit (s : Store) (n : Nat) : Balanced s s ⟨n, 0⟩ n where
  links := Nat.zero_add _
  nodes := Nat.add_comm _ _

/-- Balances add up. -/
theorem trans (h : Balanced s t spent credit) (h' : Balanced t u spent' credit') :
    Balanced s u (spent.add spent') (credit + credit') where
  links := by
    have hfirst := h.links
    have hsecond := h'.links
    show spent.links + spent'.links + u.linkCount = s.linkCount
    omega
  nodes := by
    have hfirst := h.nodes
    have hsecond := h'.nodes
    show spent.nodes + spent'.nodes + u.nodeCount = s.nodeCount + (credit + credit')
    omega

/-- A removal that counts what is missing needs no credit. -/
theorem of_remnant (h : Remnant s t) : Balanced s t (missing s t) 0 where
  links := (Nat.add_comm _ _).trans h.linkCount_add
  nodes := (Nat.add_comm _ _).trans h.nodeCount_add

end Balanced

/-! ## One change -/

section Change

variable {s : Store} {c : FileChange}

/-- A rename loses nothing and counts what it moves. -/
theorem balanced_renamed (hkind : c.kind = .renamed) (hpath : c.lacksOldPath = false) :
    Balanced s (s.applyChange none c).1.store (tallyAt none (s, c)) (creditAt (s, c)) := by
  have hempty : ¬(c.oldPath.getD "").isEmpty = true := by
    simpa [FileChange.lacksOldPath, hkind] using hpath
  obtain ⟨old, hold⟩ : ∃ old, c.oldPath = some old := by
    rw [← Option.isSome_iff_exists, ← Option.ne_none_iff_isSome]
    intro hnone
    rw [hnone] at hempty
    exact hempty rfl
  rw [hold, Option.getD_some] at hempty
  have happly : (s.applyChange none c).1 =
      { store := s.renameFile old c.filePath, tally := ⟨s.ownedCount old, 0⟩ } := by
    simp only [applyChange, hkind, hold]
    rw [if_neg hempty]
  have hcredit : creditAt (s, c) = s.ownedCount old := by
    simp [creditAt, movedAt, FileChange.listed, hkind, hpath, hold]
  rw [tallyAt, happly, hcredit]
  refine ⟨?_, ?_⟩
  · show 0 + (s.renameFile old c.filePath).linkCount = s.linkCount
    rw [linkCount_renameFile, Nat.zero_add]
  · show s.ownedCount old + (s.renameFile old c.filePath).nodeCount = s.nodeCount + s.ownedCount old
    rw [nodeCount_renameFile, Nat.add_comm]

/-- A deleted file counts what is missing after it. -/
theorem balanced_deleted (hs : s.Valid) (hkind : c.kind = .deleted) :
    Balanced s (s.applyChange none c).1.store (tallyAt none (s, c)) (creditAt (s, c)) := by
  have hcredit : creditAt (s, c) = 0 := by
    simp [creditAt, movedAt, FileChange.listed, hkind]
  rw [tallyAt, tally_deleted none hs hkind, hcredit]
  exact .of_remnant ((Without.refl hs).deleted none hkind).toRemnant

/-- An added or modified file counts the methods that are removed and those that are listed. -/
theorem balanced_listed (hs : s.Valid) (hkind : c.kind = .added ∨ c.kind = .modified) :
    Balanced s (s.applyChange none c).1.store (tallyAt none (s, c)) (creditAt (s, c)) := by
  have hcredit : creditAt (s, c) = c.addedMethods.length + c.modifiedMethods.length := by
    rcases hkind with hkind | hkind <;> simp [creditAt, movedAt, FileChange.listed, hkind]
  have happly : (s.applyChange none c).1 =
      { ({ store := s } : Progress).dropListed c with
        tally := (({ store := s } : Progress).dropListed c).tally.add
          ⟨c.addedMethods.length + c.modifiedMethods.length, 0⟩ } := by
    rcases hkind with hkind | hkind <;> simp only [applyChange, hkind, Progress.reanalyze]
  have hremoved : Remnant s (({ store := s } : Progress).dropListed c).store := by
    rw [dropListed_store]
    exact .removeMethods hs c.deletedMethods
  have hdropped : Balanced s (({ store := s } : Progress).dropListed c).store
      (({ store := s } : Progress).dropListed c).tally 0 := by
    rw [dropListed_tally c (p := { store := s }) hs, Tally.zero_add]
    exact .of_remnant hremoved
  have hcounted := hdropped.trans
    (.of_credit _ (c.addedMethods.length + c.modifiedMethods.length))
  rw [Nat.zero_add] at hcounted
  rw [tallyAt, happly, hcredit]
  exact hcounted

/-- **One change.** A change that goes through counts what it takes out of the store and its
    credit. -/
theorem balanced_applyChange (hs : s.Valid) (hpath : c.lacksOldPath = false) :
    Balanced s (s.applyChange none c).1.store (tallyAt none (s, c)) (creditAt (s, c)) := by
  cases hkind : c.kind with
  | renamed => exact balanced_renamed hkind hpath
  | deleted => exact balanced_deleted hs hkind
  | added => exact balanced_listed hs (.inl hkind)
  | modified => exact balanced_listed hs (.inr hkind)

/-- A rename that does not say what was renamed does nothing and has no credit. -/
theorem applyChange_of_lacksOldPath (h : c.lacksOldPath = true) :
    (s.applyChange none c).1.store = s ∧ creditAt (s, c) = 0 := by
  have hkind : c.kind = .renamed := FileChange.kind_of_lacksOldPath h
  have hfails : c.applies none = false := by
    rw [FileChange.applies_none, h]
    rfl
  refine ⟨?_, ?_⟩
  · rw [applyChange_store_of_failure hfails, if_pos hkind]
  · simp [creditAt, movedAt, FileChange.listed, hkind, h]

end Change

/-! ## All changes -/

/-- **All changes.** What the changes count at their turns adds up. -/
theorem balanced_turns (cs : List FileChange) : ∀ {s : Store}, s.Valid →
    Balanced s (cs.foldl (fun s c => (s.applyChange none c).1.store) s)
      (Tally.total (((s.turns none cs).filter (·.2.applies none)).map (tallyAt none)))
      ((s.turns none cs).map creditAt).sum := by
  induction cs with
  | nil =>
    intro s _
    exact .of_credit s 0
  | cons c cs ih =>
    intro s hs
    have hrest := ih (valid_stable.applyChange hs none c)
    rw [turns, List.filter_cons, List.map_cons, List.sum_cons, List.foldl_cons]
    cases hpath : c.lacksOldPath with
    | false =>
      have happlies : c.applies none = true := by
        rw [FileChange.applies_none, hpath]
        rfl
      rw [if_pos happlies, List.map_cons, Tally.total_cons]
      exact (balanced_applyChange hs hpath).trans hrest
    | true =>
      -- a failed rename is not counted, and leaves the store to the changes that follow
      have hfails : ¬c.applies none = true := by
        rw [FileChange.applies_none, hpath]
        decide
      obtain ⟨hself, hcredit⟩ := applyChange_of_lacksOldPath (s := s) hpath
      rw [if_neg hfails, hcredit, Nat.zero_add]
      rw [hself] at hrest ⊢
      exact hrest

theorem map_snd_turns (analyzer : Option Analyzer) (cs : List FileChange) :
    ∀ s : Store, (s.turns analyzer cs).map (·.2) = cs := by
  induction cs with
  | nil =>
    intro s
    rfl
  | cons c cs ih =>
    intro s
    rw [turns, List.map_cons, ih]

/-- The credit of an update: what its renames move at their turns, and what its changes list. -/
theorem sum_creditAt (s : Store) (cs : List FileChange) :
    ((s.turns none cs).map creditAt).sum =
      ((s.turns none cs).map movedAt).sum + (cs.map (·.listed)).sum := by
  have hlisted : (s.turns none cs).map (fun t => t.2.listed) = cs.map (·.listed) := by
    rw [← map_snd_turns none cs s, List.map_map, map_snd_turns]
    rfl
  rw [← hlisted, ← List.sum_map_add]
  rfl

/-- The update leaves out the renames that do not say what was renamed. -/
theorem update_store_of_lacksOldPath (s : Store) (cs : List FileChange) :
    (s.update none cs).store = (s.update none (cs.filter fun c => !c.lacksOldPath)).store := by
  have hfailed : ∀ t ∈ s.turns none cs, t.2.applies none = false →
      (t.1.applyChange none t.2).1.store = t.1 := by
    intro t _ hfails
    rw [FileChange.applies_none, Bool.not_eq_false'] at hfails
    exact (applyChange_of_lacksOldPath hfails).1
  obtain ⟨-, hstore⟩ := turns_filter hfailed
  simp only [FileChange.applies_none] at hstore
  rw [update_store, update_store, hstore]

theorem flatMap_errors_none (cs : List FileChange) :
    cs.flatMap (·.errors none) = (cs.filter (·.lacksOldPath)).map fun c =>
      "Error updating " ++ c.filePath ++ ": rename requires old_path" := by
  induction cs with
  | nil => rfl
  | cons c cs ih =>
    rw [List.flatMap_cons, List.filter_cons, FileChange.errors_none, ih]
    split <;> rfl

/-- **What an update without an analyser counts.** The links that it counts are those that are gone.
    The nodes that it counts are those that are gone, those that each rename moved at its turn, and
    those that the changes of added and modified files list. It reports, in order, the renames that
    do not say what was renamed, and leaves the store that the other changes alone lead to. -/
theorem update_none_accounts {s : Store} (hs : s.Reachable) (cs : List FileChange) :
    let u := s.update none cs
    (u.result.tally.links : Int) = s.linkCount - u.store.linkCount ∧
      (u.result.tally.nodes : Int) = s.nodeCount - u.store.nodeCount +
        ((s.turns none cs).map movedAt).sum + (cs.map (·.listed)).sum ∧
      u.result.errors = ((cs.filter (·.lacksOldPath)).map fun c =>
        "Error updating " ++ c.filePath ++ ": rename requires old_path") ∧
      u.store = (s.update none (cs.filter fun c => !c.lacksOldPath)).store := by
  intro u
  have hbalance : Balanced s u.store u.result.tally ((s.turns none cs).map creditAt).sum := by
    show Balanced s (s.update none cs).store (s.update none cs).result.tally _
    rw [update_store, update_tally]
    exact balanced_turns cs hs.valid
  have hlinks := hbalance.links
  have hnodes := hbalance.nodes
  rw [sum_creditAt] at hnodes
  refine ⟨by omega, by omega, ?_, update_store_of_lacksOldPath s cs⟩
  rw [update_errors, flatMap_errors_none]

/-- A file is renamed and then deleted, with methods that are listed twice or already gone, between
    two renames that do not say what was renamed. -/
def mixedChanges : List FileChange :=
  [{ filePath := "lexer", kind := .renamed, oldPath := some "parser" },
   { filePath := "main", kind := .renamed },
   { filePath := "lexer", kind := .deleted, deletedMethods := ["peek", "help"] },
   { filePath := "server", kind := .modified, modifiedMethods := ["serve"],
     addedMethods := ["listen"], deletedMethods := ["help", "serve"] },
   { filePath := "server", kind := .renamed, oldPath := some "" }]

theorem update_none_accounts_crossedFiles :
    let u := crossedFiles.update none mixedChanges
    crossedFiles.Reachable ∧ crossedFiles.nodeCount = 6 ∧ crossedFiles.linkCount = 7 ∧
      u.store.nodeCount = 1 ∧ u.store.linkCount = 0 ∧ u.result.tally.links = 7 ∧
      (u.result.tally.nodes : Int) = 6 - 1 + 3 + 2 ∧
      u.result.errors = ["Error updating main: rename requires old_path",
        "Error updating server: rename requires old_path"] ∧
      u.store = (crossedFiles.update none
        (mixedChanges.filter fun c => !c.lacksOldPath)).store := by
  intro u
  have hr : crossedFiles.Reachable := reachable_after _
  have hbefore : crossedFiles.nodeCount = 6 := by decide +kernel
  have hafter : u.store.nodeCount = 1 := by decide +kernel
  have hmoved : ((crossedFiles.turns none mixedChanges).map movedAt).sum = 3 := by decide +kernel
  have hlisted : (mixedChanges.map (·.listed)).sum = 2 := by decide +kernel
  obtain ⟨-, hnodes, herrors, hstore⟩ := update_none_accounts hr mixedChanges
  rw [hbefore, hafter, hmoved, hlisted] at hnodes
  exact ⟨hr, hbefore, by decide +kernel, hafter, by decide +kernel, by decide +kernel, hnodes,
    herrors.trans (by decide +kernel), hstore⟩

end Store
end PathTriage
