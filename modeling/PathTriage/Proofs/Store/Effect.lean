import PathTriage.Proofs.Store.Changes
import PathTriage.Proofs.Store.Degrees
import PathTriage.Proofs.Store.Project

/-!
What one change of a file does, whatever its kind.

A change takes out what its file owns, brings in a new analysis of it, or does both. The three kinds
are one equation for each table: `bare?_changed`, `class?_changed` and `calls_changed`. Since these
read the store through the same tables, a change says the same about stores that agree on them
(`Agree.changed`).
-/

namespace PathTriage

/-- An analyser that never fails. -/
def Analyzer.always (find : String → FileAnalysis) : Analyzer := fun path => .ok (find path)

namespace FileChange

/-- What a change brings in. A deleted file brings nothing. -/
def brings (find : String → FileAnalysis) (c : FileChange) : FileAnalysis :=
  if c.kind = .deleted then { filePath := c.filePath } else find c.filePath

/-- Whether a change first takes out what its file owns. -/
def clears (c : FileChange) : Bool := c.kind != .added

end FileChange

namespace Store

/-- The store after one change. -/
def changed (find : String → FileAnalysis) (s : Store) (c : FileChange) : Store :=
  (s.applyChange (some (.always find)) c).1.store

/-- Whether a change takes a method out before it brings its own. -/
def takes (s : Store) (c : FileChange) (id : String) : Bool := c.clears && s.owns c.filePath id

/-- The call between two methods that are known after a change, from the one that was stored. It is
    up to the analysis if the change takes the caller out, and the stored one comes first if it
    takes the callee out. -/
def settled (find : String → FileAnalysis) (s : Store) (c : FileChange) (e : Arrow)
    (stored : Option Call) : Option Call :=
  if s.takes c e.source = true then (c.brings find).call? e
  else if s.takes c e.target = true then stored.or ((c.brings find).call? e)
  else ((c.brings find).call? e).or stored

/-- A change that does not bring a call leaves the stored one, unless it takes the caller out. -/
theorem settled_of_call?_eq_none {find : String → FileAnalysis} {s : Store} {c : FileChange}
    {e : Arrow} (h : (c.brings find).call? e = none) (stored : Option Call) :
    s.settled find c e stored = if s.takes c e.source = true then none else stored := by
  rw [settled, h, Option.or_none, Option.none_or, ite_self]

/-- Two stores with the same methods, classes and calls. -/
structure Agree (s t : Store) : Prop where
  methods : s.methods = t.methods
  classes : s.classes = t.classes
  calls : s.calls = t.calls

namespace Agree

variable {s t u : Store}

theorem refl (s : Store) : Agree s s := ⟨rfl, rfl, rfl⟩

theorem symm (h : Agree s t) : Agree t s := ⟨h.methods.symm, h.classes.symm, h.calls.symm⟩

theorem trans (h : Agree s t) (h' : Agree t u) : Agree s u :=
  ⟨h.methods.trans h'.methods, h.classes.trans h'.classes, h.calls.trans h'.calls⟩

theorem bare?_eq (h : Agree s t) (id : String) : s.bare? id = t.bare? id := by
  rw [bare?, method?, h.methods, bare?, method?]

theorem class?_eq (h : Agree s t) (id : String) : s.class? id = t.class? id := by
  rw [class?, h.classes, class?]

/-- Valid stores agree when they have the same content: their degrees are counted from the same
    calls. -/
theorem of_content (hs : s.Valid) (ht : t.Valid) (hbare : ∀ id, s.bare? id = t.bare? id)
    (hclass : ∀ id, s.class? id = t.class? id) (hcalls : ∀ e : Arrow, s.calls[e]? = t.calls[e]?) :
    Agree s t := by
  have hcalls : s.calls = t.calls := Std.ExtTreeMap.ext_getElem? fun e => hcalls e
  have hclasses : s.classes = t.classes := Std.ExtTreeMap.ext_getElem? fun id => hclass id
  exact ⟨methods_eq_of_content hs ht hbare hcalls, hclasses, hcalls⟩

end Agree

/-- A change leaves a valid store. -/
theorem Valid.changed {s : Store} (hs : s.Valid) (find : String → FileAnalysis) (c : FileChange) :
    (s.changed find c).Valid :=
  valid_stable.applyChange hs _ c

/-- No call is stored between methods that are not both stored. -/
theorem Integral.calls_eq_none {s : Store} (hs : s.Integral) {e : Arrow} (h : ¬s.knows e = true) :
    s.calls[e]? = none := by
  rw [Option.eq_none_iff_forall_ne_some]
  intro k hk
  exact h (hs.calls e k hk).2

theorem Integral.changed {s : Store} (hs : s.Integral) (find : String → FileAnalysis)
    (c : FileChange) : (s.changed find c).Integral :=
  integral_stable.applyChange hs _ c

/-! ## Look-ups -/

section One

variable {find : String → FileAnalysis} {s : Store} {c : FileChange} (hkind : c.kind ≠ .renamed)
  (hlisted : c.deletedMethods = [])

include hkind hlisted

/-- A change is one of three operations on its file. -/
theorem changed_cases (s : Store) :
    c.clears = false ∧ s.changed find c = s.applyAnalysis (c.brings find) ∨
    c.clears = true ∧ s.changed find c = s.replaceFile (c.brings find) ∨
    c.clears = true ∧ c.brings find = { filePath := c.filePath } ∧
      s.changed find c = s.removeFile c.filePath := by
  have hfind : Analyzer.always find c.filePath = .ok (find c.filePath) := rfl
  unfold changed FileChange.clears FileChange.brings
  cases hk : c.kind with
  | renamed => exact absurd hk hkind
  | added =>
    refine .inl ⟨rfl, ?_⟩
    rw [applyChange_added hfind hk, hlisted]
    rfl
  | modified =>
    refine .inr (.inl ⟨rfl, ?_⟩)
    rw [applyChange_modified hfind hk, hlisted]
    rfl
  | deleted =>
    refine .inr (.inr ⟨rfl, rfl, ?_⟩)
    rw [applyChange_deleted _ hk, hlisted]
    rfl

variable (hpath : (c.brings find).filePath = c.filePath)

include hpath

/-- A method after a change: as the analysis gives it, or else as it was, unless the file gave it
    up. -/
theorem bare?_changed (id : String) :
    (s.changed find c).bare? id = ((c.brings find).method? id).or
      ((s.bare? id).filter fun m => !(c.clears && m.isIn c.filePath)) := by
  rcases changed_cases hkind hlisted s with ⟨hc, heq⟩ | ⟨hc, heq⟩ | ⟨hc, hnone, heq⟩
  · rw [heq, bare?_applyAnalysis]
    cases s.bare? id <;> simp [hc, Option.filter]
  · rw [heq, bare?_replaceFile, hpath]
    simp [hc]
  · rw [heq, bare?_removeFile, hnone]
    simp [hc, FileAnalysis.method?, FileAnalysis.methodNodes]

/-- A class after a change, likewise. -/
theorem class?_changed (id : String) :
    (s.changed find c).class? id = ((c.brings find).class? id).or
      ((s.class? id).filter fun k => !(c.clears && k.isIn c.filePath)) := by
  rcases changed_cases hkind hlisted s with ⟨hc, heq⟩ | ⟨hc, heq⟩ | ⟨hc, hnone, heq⟩
  · rw [heq, class?_applyAnalysis]
    cases s.class? id <;> simp [hc, Option.filter]
  · rw [heq, class?_replaceFile, hpath]
    simp [hc]
  · rw [heq, class?_removeFile, hnone]
    simp [hc, FileAnalysis.class?, FileAnalysis.classNodes]

/-- Stored after a change is what it brings and what it does not take out. -/
theorem hasMethod_changed {id : String} :
    (s.changed find c).hasMethod id = true ↔
      id ∈ (c.brings find).methodIds ∨ s.hasMethod id = true ∧ s.takes c id = false := by
  rw [hasMethod_eq, bare?_changed hkind hlisted hpath, Option.isSome_or, Bool.or_eq_true,
    Option.isSome_iff_exists, FileAnalysis.exists_method?, hasMethod_eq, takes, owns]
  cases s.bare? id with
  | none => simp
  | some m => cases hc : c.clears <;> cases hin : m.isIn c.filePath <;> simp [hin]

/-- A call after a change: between stored methods it is what the change settles it to be. -/
theorem calls_changed (hs : s.Integral) (e : Arrow) :
    (s.changed find c).calls[e]? =
      if (s.changed find c).knows e = true then s.settled find c e s.calls[e]? else none := by
  by_cases hknows : (s.changed find c).knows e = true
  · rw [if_pos hknows, settled]
    rcases changed_cases hkind hlisted s with ⟨hc, heq⟩ | ⟨hc, heq⟩ | ⟨hc, hnone, heq⟩
    · rw [heq] at hknows ⊢
      rw [calls_applyAnalysis, if_pos hknows]
      simp [takes, hc]
    · rw [heq] at hknows ⊢
      rw [calls_replaceFile hs, if_pos hknows, hpath]
      simp [takes, hc]
    · -- neither end is of the deleted file, or it would not be known
      have hends : s.takes c e.source = false ∧ s.takes c e.target = false := by
        rw [knows_iff, hasMethod_changed hkind hlisted hpath,
          hasMethod_changed hkind hlisted hpath, hnone] at hknows
        simpa [FileAnalysis.methodIds] using
          And.intro (hknows.1.resolve_left (by simp [FileAnalysis.methodIds])).2
            (hknows.2.resolve_left (by simp [FileAnalysis.methodIds])).2
      have howns : s.owns c.filePath e.source = false ∧ s.owns c.filePath e.target = false := by
        simpa [takes, hc] using hends
      rw [heq, calls_removeFile hs, hnone]
      simp [howns.1, howns.2, hends.1, hends.2, FileAnalysis.call?, FileAnalysis.callLinks]
  · rw [if_neg hknows, (hs.changed find c).calls_eq_none hknows]

/-- A change says the same about stores that hold the same. -/
theorem Agree.changed {t : Store} (h : Agree s t) (hs : s.Valid) (ht : t.Valid) :
    Agree (s.changed find c) (t.changed find c) := by
  have hbare : ∀ id, (s.changed find c).bare? id = (t.changed find c).bare? id := by
    intro id
    rw [bare?_changed hkind hlisted hpath, bare?_changed hkind hlisted hpath, h.bare?_eq]
  have htakes : ∀ id, s.takes c id = t.takes c id := by
    intro id
    rw [takes, owns, h.bare?_eq, takes, owns]
  refine .of_content (hs.changed find c) (ht.changed find c) hbare ?_ ?_
  · intro id
    rw [class?_changed hkind hlisted hpath, class?_changed hkind hlisted hpath, h.class?_eq]
  · intro e
    rw [calls_changed hkind hlisted hpath hs.integral,
      calls_changed hkind hlisted hpath ht.integral,
      knows_congr hbare, settled, htakes, htakes, h.calls, settled]

end One

end Store
end PathTriage
