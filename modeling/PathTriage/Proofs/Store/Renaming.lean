import PathTriage.Proofs.Store.Project
import PathTriage.Proofs.Store.Removal

/-!
Moving what one file owns to another.

A rename gives methods and classes a new file and leaves everything else as it was (`Moved`). From
then on they cannot be told from what the new file owned before: to remove the new file is to remove
both, however much it owned and even if it is the old one (`Without.renamed`). If it owned nothing,
the rename can be taken back (`renameFile_back`).

Methods and classes lie in files in the same way, so what a rename does to a record is said once,
for any `Filing`.
-/

namespace PathTriage

/-! ## Records in files -/

/-- Records of one kind that each lie in a file, and the file can be replaced. -/
structure Filing (α : Type) where
  file : α → Json
  place : α → Json → α
  file_place : ∀ x file', file (place x file') = file'
  place_file : ∀ x, place x (file x) = x
  place_place : ∀ x file₁ file₂, place (place x file₁) file₂ = place x file₂

namespace Filing

/-- Methods by their files. -/
def ofMethods : Filing Method where
  file := Method.filePath
  place m filePath := { m with filePath }
  file_place _ _ := rfl
  place_file _ := rfl
  place_place _ _ _ := rfl

/-- Classes by their files. -/
def ofClasses : Filing ClassEntry where
  file := ClassEntry.filePath
  place c filePath := { c with filePath }
  file_place _ _ := rfl
  place_file _ := rfl
  place_place _ _ _ := rfl

variable {α : Type} (f : Filing α)

/-- Whether a record lies in a file. -/
def isIn (x : α) (filePath : String) : Bool := (f.file x).isText filePath

/-- A record after a rename: what was in the old file is in the new one. -/
def renamed (old new : String) (x : α) : α := if f.isIn x old then f.place x (.string new) else x

variable {f} {old new : String} {x y : α}

theorem isIn_place (x : α) (filePath : String) :
    f.isIn (f.place x (.string filePath)) filePath = true := by
  rw [isIn, f.file_place]
  exact Json.isText_iff.2 rfl

theorem renamed_of_isIn (h : f.isIn x old = true) :
    f.renamed old new x = f.place x (.string new) := if_pos h

theorem renamed_of_outside (h : f.isIn x old = false) : f.renamed old new x = x :=
  if_neg (Bool.eq_false_iff.1 h)

/-- A rename is taken back by the opposite one, for a record that was not in the new file. -/
theorem renamed_renamed (h : f.isIn x new = false) :
    f.renamed new old (f.renamed old new x) = x := by
  cases hold : f.isIn x old with
  | false => rw [renamed_of_outside hold, renamed_of_outside h]
  | true =>
    have hfile : f.file x = .string old := Json.isText_iff.1 hold
    rw [renamed_of_isIn hold, renamed_of_isIn (isIn_place x new), f.place_place, ← hfile,
      f.place_file]

theorem map_renamed_of_outside {o : Option α} (h : ∀ x, o = some x → f.isIn x old = false) :
    o.map (f.renamed old new) = o := by
  cases o with
  | none => rfl
  | some x => rw [Option.map_some, renamed_of_outside (h x rfl)]

theorem map_renamed_renamed {o : Option α} (h : ∀ x, o = some x → f.isIn x new = false) :
    (o.map (f.renamed old new)).map (f.renamed new old) = o := by
  cases o with
  | none => rfl
  | some x => rw [Option.map_some, Option.map_some, renamed_renamed (h x rfl)]

/-- What lies outside the new file after a rename lay outside both files before it, and is as it
    was. -/
theorem renamed_outside :
    f.renamed old new x = y ∧ f.isIn y new = false ↔
      x = y ∧ f.isIn y old = false ∧ f.isIn y new = false := by
  cases hold : f.isIn x old with
  | false =>
    rw [renamed_of_outside hold]
    refine ⟨?_, ?_⟩
    · rintro ⟨rfl, hnew⟩
      exact ⟨rfl, hold, hnew⟩
    · rintro ⟨rfl, -, hnew⟩
      exact ⟨rfl, hnew⟩
  | true =>
    -- a record of the old file is in the new one now, and was outside neither before
    rw [renamed_of_isIn hold]
    refine ⟨?_, ?_⟩
    · rintro ⟨rfl, hnew⟩
      rw [isIn_place] at hnew
      cases hnew
    · rintro ⟨rfl, hout, -⟩
      rw [hold] at hout
      cases hout

/-- What a look-up finds outside the new file after a rename. -/
theorem filter_map_renamed {o : Option α} :
    (o.map (f.renamed old new)).filter (fun x => !f.isIn x new) = some y ↔
      o = some y ∧ f.isIn y old = false ∧ f.isIn y new = false := by
  rw [Option.filter_eq_some_iff, Option.map_eq_some_iff, Bool.not_eq_true']
  refine ⟨?_, ?_⟩
  · rintro ⟨⟨x, hx, hren⟩, hout⟩
    obtain ⟨rfl, hold, hnew⟩ := renamed_outside.1 ⟨hren, hout⟩
    exact ⟨hx, hold, hnew⟩
  · rintro ⟨hy, hold, hnew⟩
    exact ⟨⟨y, hy, renamed_of_outside hold⟩, hnew⟩

end Filing

namespace Store

/-! ## What a rename leaves alone -/

/-- Of a store, another one has everything as it was, but for the file of what a renamed file
    owned. -/
structure Moved (old new : String) (s t : Store) : Prop where
  methods : ∀ id, t.method? id =
    (s.method? id).map fun m => if m.isIn old then { m with filePath := .string new } else m
  classes : ∀ id, t.class? id =
    (s.class? id).map fun c => if c.isIn old then { c with filePath := .string new } else c
  callNodes : t.callNodes = s.callNodes
  calls : t.calls = s.calls
  implementations : t.implementations = s.implementations
  dataFlows : t.dataFlows = s.dataFlows

section Rename

variable (s : Store) (old new : String)

theorem moved_renameFile : Moved old new s (s.renameFile old new) where
  methods _ := Std.ExtTreeMap.getElem?_map
  classes _ := Std.ExtTreeMap.getElem?_map
  callNodes := rfl
  calls := rfl
  implementations := rfl
  dataFlows := rfl

theorem method?_renameFile (id : String) :
    (s.renameFile old new).method? id = (s.method? id).map (Filing.ofMethods.renamed old new) :=
  (s.moved_renameFile old new).methods id

/-- A method is in the same file with its degrees and without them. -/
theorem bare?_renameFile (id : String) :
    (s.renameFile old new).bare? id = (s.bare? id).map (Filing.ofMethods.renamed old new) := by
  rw [bare?, method?_renameFile, bare?, Option.map_map, Option.map_map]
  refine Option.map_congr fun m _ => ?_
  show (Filing.ofMethods.renamed old new m).bare = Filing.ofMethods.renamed old new m.bare
  cases hold : Filing.ofMethods.isIn m old with
  | false =>
    have hbare : Filing.ofMethods.isIn m.bare old = false := hold
    rw [Filing.renamed_of_outside hold, Filing.renamed_of_outside hbare]
  | true =>
    have hbare : Filing.ofMethods.isIn m.bare old = true := hold
    rw [Filing.renamed_of_isIn hold, Filing.renamed_of_isIn hbare]
    rfl

theorem class?_renameFile (id : String) :
    (s.renameFile old new).class? id = (s.class? id).map (Filing.ofClasses.renamed old new) :=
  (s.moved_renameFile old new).classes id

theorem nodeCount_renameFile : (s.renameFile old new).nodeCount = s.nodeCount := by
  rw [nodeCount, renameFile, Std.ExtTreeMap.size_map, Std.ExtTreeMap.size_map, nodeCount]

theorem linkCount_renameFile : (s.renameFile old new).linkCount = s.linkCount := rfl

end Rename

/-! ## Removal after a rename -/

section Removal

variable {s : Store} (hs : s.Valid) (old new : String)

include hs

/-- Without the new file, a store that was renamed is what it was without both files. -/
theorem Without.renamed : Without s [old, new] [] ((s.renameFile old new).removeFile new) := by
  have hremnant : Remnant (s.renameFile old new) ((s.renameFile old new).removeFile new) :=
    .removeFile (valid_stable.renameFile old new hs) new
  have hmethods : ∀ id m, ((s.renameFile old new).removeFile new).bare? id = some m ↔
      s.bare? id = some m ∧ m.isIn old = false ∧ m.isIn new = false := by
    intro id m
    rw [bare?_removeFile, bare?_renameFile]
    exact Filing.filter_map_renamed
  have hclasses : ∀ id c, ((s.renameFile old new).removeFile new).class? id = some c ↔
      s.class? id = some c ∧ c.isIn old = false ∧ c.isIn new = false := by
    intro id c
    rw [class?_removeFile, class?_renameFile]
    exact Filing.filter_map_renamed
  -- a rename leaves the links alone, so those that are left are links of the store before it
  exact
    { valid := hremnant.valid
      methods := fun id m hm => ((hmethods id m).1 hm).1
      classes := fun id c hc => ((hclasses id c).1 hc).1
      calls := hremnant.calls
      implementations := hremnant.implementations
      dataFlows := hremnant.dataFlows
      method_iff := fun id m => by simpa using hmethods id m
      class_iff := fun id c => by simpa using hclasses id c }

/-- To remove the new file after a rename is to remove the old and the new file before it. -/
theorem removeFile_renameFile :
    (s.renameFile old new).removeFile new = (s.removeFile old).removeFile new :=
  (Without.renamed hs old new).unique (((Without.refl hs).removeFile old).removeFile new)
    (fun _ => .rfl) fun _ => .rfl

/-- The removal after a rename takes out what the two removals before it take out together. -/
theorem missing_renameFile :
    missing (s.renameFile old new) ((s.renameFile old new).removeFile new) =
      (missing s (s.removeFile old)).add
        (missing (s.removeFile old) ((s.removeFile old).removeFile new)) := by
  have hrenamed : Remnant (s.renameFile old new) ((s.renameFile old new).removeFile new) :=
    .removeFile (valid_stable.renameFile old new hs) new
  have hfirst : Remnant s (s.removeFile old) := .removeFile hs old
  have hsecond : Remnant (s.removeFile old) ((s.removeFile old).removeFile new) :=
    .removeFile hfirst.valid new
  rw [hfirst.missing_add hsecond]
  -- the two remnants are the same store, and the rename has not changed any size
  have hboth := hfirst.trans hsecond
  refine hrenamed.missing_eq _ ?_ ?_
  · rw [removeFile_renameFile hs, nodeCount_renameFile]
    exact hboth.nodeCount_add
  · rw [removeFile_renameFile hs, linkCount_renameFile]
    exact hboth.linkCount_add

/-- The removal after a rename counts what the two removals before it count together. -/
theorem tally_removal_renameFile :
    ((s.renameFile old new).removal new).tally =
      (s.removal old).tally.add ((s.removeFile old).removal new).tally := by
  rw [tally_removal (valid_stable.renameFile old new hs), tally_removal hs,
    tally_removal (valid_stable.removeFile hs old)]
  exact missing_renameFile hs old new

end Removal

/-! ## Renames that can be undone -/

section Back

variable {s : Store} {old new : String}

/-- A file that owns nothing has nothing to move. -/
theorem renameFile_of_unowned (new : String) (h : s.ownedCount old = 0) :
    s.renameFile old new = s := by
  have hmethods : ∀ id, (s.renameFile old new).method? id = s.method? id := by
    intro id
    rw [method?_renameFile]
    exact Filing.map_renamed_of_outside fun m hm => s.not_isIn_of_unowned h hm
  have hclasses : ∀ id, (s.renameFile old new).class? id = s.class? id := by
    intro id
    rw [class?_renameFile]
    exact Filing.map_renamed_of_outside fun c hc => ((s.ownedCount_eq_zero).1 h).2 id c hc
  exact Store.ext (Std.ExtTreeMap.ext_getElem? hmethods) (Std.ExtTreeMap.ext_getElem? hclasses)
    rfl rfl rfl rfl

/-- What went to a file that owned nothing comes back with the opposite rename. -/
theorem renameFile_back (h : s.ownedCount new = 0) :
    (s.renameFile old new).renameFile new old = s := by
  have hmethods : ∀ id, ((s.renameFile old new).renameFile new old).method? id = s.method? id := by
    intro id
    rw [method?_renameFile, method?_renameFile]
    exact Filing.map_renamed_renamed fun m hm => s.not_isIn_of_unowned h hm
  have hclasses : ∀ id, ((s.renameFile old new).renameFile new old).class? id = s.class? id := by
    intro id
    rw [class?_renameFile, class?_renameFile]
    exact Filing.map_renamed_renamed fun c hc => ((s.ownedCount_eq_zero).1 h).2 id c hc
  exact Store.ext (Std.ExtTreeMap.ext_getElem? hmethods) (Std.ExtTreeMap.ext_getElem? hclasses)
    rfl rfl rfl rfl

end Back

/-! ## Ownership -/

/-- **Renaming moves ownership and nothing else.** A rename changes the file of what the old file
    owns: every method and class keeps its id and all else that it carries, degrees and risk
    included, and every link stays. To remove the new file afterwards leaves the same store as to
    remove the old file and then the new one, and counts as much as these two removals together. If
    the new file owned nothing, renaming it back restores the store. -/
theorem renameFile_moves_ownership {s : Store} (hs : s.Reachable) (old new : String) :
    Moved old new s (s.renameFile old new) ∧
      (s.renameFile old new).removeFile new = (s.removeFile old).removeFile new ∧
      ((s.renameFile old new).removal new).tally =
        (s.removal old).tally.add ((s.removeFile old).removal new).tally ∧
      (s.ownedCount new = 0 → (s.renameFile old new).renameFile new old = s) :=
  ⟨s.moved_renameFile old new, removeFile_renameFile hs.valid old new,
    tally_removal_renameFile hs.valid old new, renameFile_back⟩

/-- A file is renamed to one that owns a method already, and to one that is new. -/
theorem renameFile_moves_ownership_crossedFiles :
    crossedFiles.Reachable ∧ crossedFiles.ownedCount "server" = 1 ∧
      (crossedFiles.renameFile "parser" "server").removeFile "server" =
        (crossedFiles.removeFile "parser").removeFile "server" ∧
      ((crossedFiles.renameFile "parser" "server").removal "server").tally = ⟨4, 6⟩ ∧
      (crossedFiles.removal "parser").tally = ⟨3, 5⟩ ∧
      crossedFiles.ownedCount "lexer" = 0 ∧
      (crossedFiles.renameFile "parser" "lexer").renameFile "lexer" "parser" = crossedFiles := by
  have hr : crossedFiles.Reachable := reachable_after _
  have hnew : crossedFiles.ownedCount "lexer" = 0 := by decide +kernel
  have hold : (crossedFiles.removal "parser").tally = ⟨3, 5⟩ := by decide +kernel
  have hrest : ((crossedFiles.removeFile "parser").removal "server").tally = ⟨1, 1⟩ := by
    decide +kernel
  obtain ⟨-, hremoved, hcounted, -⟩ := renameFile_moves_ownership hr "parser" "server"
  obtain ⟨-, -, -, hback⟩ := renameFile_moves_ownership hr "parser" "lexer"
  rw [hold, hrest] at hcounted
  exact ⟨hr, by decide +kernel, hremoved, hcounted, hold, hnew, hback hnew⟩

end Store
end PathTriage
