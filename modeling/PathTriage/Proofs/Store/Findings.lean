import PathTriage.Proofs.Payload.Analysis
import PathTriage.Proofs.Report
import PathTriage.Proofs.Store.Changes
import PathTriage.Proofs.Store.Project

/-!
Stored methods have the measures that were found.

A store that is built from analyses, and brought up to date by analyses, holds a method only if some
analysis found it, with the complexity and the length of the finding (`MadeOf`). So what the
findings are known to be, the stored methods are: their measures are integers, and they are within
the range of machine numbers if all findings are.
-/

namespace PathTriage

/-- A method has the measures of a finding and the risk of a method that was never weighed. -/
structure Method.IsOf (m : Method) (f : MethodFinding) : Prop where
  complexity : m.complexity = .ofNumber f.complexity
  linesOfCode : m.linesOfCode = f.linesOfCode
  riskScore : m.riskScore = .ofFloat 0

/-- The measures of a finding are within the range of machine numbers. -/
def MethodFinding.InRange (f : MethodFinding) : Prop :=
  (Json.number f.complexity).IsWhole ∧ f.linesOfCode.IsWhole

/-- A complexity of at least one is stored as it was found. -/
theorem Method.IsOf.toJson_complexity {m : Method} {f : MethodFinding} (h : m.IsOf f)
    (hf : f.IsCounted) : m.complexity.toJson = .number f.complexity := by
  obtain ⟨n, hn, hcomplexity⟩ := hf.complexity
  rw [h.complexity, hcomplexity, Complexity.toJson, Complexity.val_ofNumber_int hn]

/-- Each method that an analysis puts in is that of one of its findings. -/
theorem FileAnalysis.isOf_of_mem_methodNodes {a : FileAnalysis} {m : Method}
    (h : m ∈ a.methodNodes) : ∃ f ∈ a.methods, m.bare.IsOf f := by
  obtain ⟨f, hf, rfl⟩ := List.mem_map.1 h
  refine ⟨f, hf, ?_⟩
  dsimp only
  split <;> exact ⟨rfl, rfl, rfl⟩

theorem FileAnalysis.isOf_of_method? {a : FileAnalysis} {id : String} {m : Method}
    (h : a.method? id = some m) : ∃ f ∈ a.methods, m.IsOf f := by
  obtain ⟨n, hn, rfl⟩ := Option.map_eq_some_iff.1 h
  exact isOf_of_mem_methodNodes (Table.mem_of_lastWith hn).1

namespace Store

/-- Every stored method was found in one of some files. -/
def MadeOf (files : List FileAnalysis) (s : Store) : Prop :=
  ∀ id m, s.bare? id = some m → ∃ a ∈ files, ∃ f ∈ a.methods, m.IsOf f

/-! ## Building and updating -/

/-- A store that is built from analyses is made of their findings. -/
theorem madeOf_ofFiles (files : List FileAnalysis) : (ofFiles files).MadeOf files := by
  intro id m hm
  rw [bare?_ofFiles_eq] at hm
  obtain ⟨n, hn, rfl⟩ := Option.map_eq_some_iff.1 hm
  obtain ⟨a, ha, hn⟩ := List.mem_flatMap.1 (Table.mem_of_lastWith hn).1
  exact ⟨a, ha, FileAnalysis.isOf_of_mem_methodNodes hn⟩

namespace MadeOf

variable {files : List FileAnalysis} {s : Store} (h : s.MadeOf files)

/-- More analyses leave more findings to choose from. -/
theorem mono {more : List FileAnalysis} (h : s.MadeOf files) (hsub : files ⊆ more) :
    s.MadeOf more := by
  intro id m hm
  obtain ⟨a, ha, hf⟩ := h id m hm
  exact ⟨a, hsub ha, hf⟩

include h

/-- Taking in an analysis that is listed: a method is given by it or was there before. -/
theorem applyAnalysis {a : FileAnalysis} (ha : a ∈ files) : (s.applyAnalysis a).MadeOf files := by
  intro id m hm
  rw [bare?_applyAnalysis, Option.or_eq_some_iff] at hm
  rcases hm with hm | ⟨-, hm⟩
  · exact ⟨a, ha, FileAnalysis.isOf_of_method? hm⟩
  · exact h id m hm

/-- Removals add no method, so what is left is made of the same findings. -/
theorem removeMethods (ids : List String) : (ids.foldl removeMethod s).MadeOf files := by
  intro id m hm
  rw [bare?_removeMethods] at hm
  split at hm
  · cases hm
  · exact h id m hm

theorem removeFile (filePath : String) : (s.removeFile filePath).MadeOf files := by
  intro id m hm
  rw [bare?_removeFile] at hm
  exact h id m (Option.eq_some_of_filter_eq_some hm)

theorem replaceFile {a : FileAnalysis} (ha : a ∈ files) : (s.replaceFile a).MadeOf files := by
  intro id m hm
  rw [bare?_replaceFile, Option.or_eq_some_iff] at hm
  rcases hm with hm | ⟨-, hm⟩
  · exact ⟨a, ha, FileAnalysis.isOf_of_method? hm⟩
  · exact h id m (Option.eq_some_of_filter_eq_some hm)

/-- A renamed file keeps the measures of its methods; only their place changes. -/
theorem renameFile (old new : String) : (s.renameFile old new).MadeOf files := by
  intro id m hm
  obtain ⟨n, hn, rfl⟩ := Option.map_eq_some_iff.1 hm
  rw [method?, Store.renameFile, Std.ExtTreeMap.getElem?_map] at hn
  obtain ⟨k, hk, rfl⟩ := Option.map_eq_some_iff.1 hn
  obtain ⟨a, ha, f, hf, hof⟩ := h id k.bare (Option.map_eq_some_iff.2 ⟨k, hk, rfl⟩)
  refine ⟨a, ha, f, hf, ?_⟩
  split <;> exact ⟨hof.complexity, hof.linesOfCode, hof.riskScore⟩

/-- A change brings nothing but what the analyser found. -/
theorem applyChange {analyzer : Option Analyzer}
    (hanalyzer : ∀ analyze, analyzer = some analyze → ∀ path a, analyze path = .ok a → a ∈ files)
    (c : FileChange) : (s.applyChange analyzer c).1.store.MadeOf files := by
  -- a change that fails leaves the store behind with which its analysis was to start
  have hdrop : (({ store := s } : Progress).dropListed c).store.MadeOf files := by
    rw [dropListed_store]
    exact h.removeMethods _
  have hreanalyze : ∀ take : Progress → FileAnalysis → Progress,
      (∀ a ∈ files, (take (({ store := s } : Progress).dropListed c) a).store.MadeOf files) →
      ((({ store := s } : Progress).dropListed c).reanalyze analyzer c take).1.store.MadeOf
        files := by
    intro take htake
    unfold Progress.reanalyze
    cases analyzer with
    | none => exact hdrop
    | some analyze =>
      dsimp only
      split
      · next a ha => exact htake a (hanalyzer analyze rfl _ a ha)
      · exact hdrop
  unfold Store.applyChange
  cases c.kind with
  | renamed =>
    dsimp only
    split
    · exact h
    · split
      · exact h
      · exact h.renameFile _ _
  | deleted =>
    dsimp only
    rw [dropListed_store, Progress.store_removeFile]
    exact MadeOf.removeMethods (h.removeFile _) _
  | added => exact hreanalyze _ fun a ha => hdrop.applyAnalysis ha
  | modified => exact hreanalyze _ fun a ha => hdrop.replaceFile ha

/-- By induction on the changes, each of which finds its analysis among those that are listed. -/
theorem update {analyzer : Option Analyzer}
    (hanalyzer : ∀ analyze, analyzer = some analyze → ∀ path a, analyze path = .ok a → a ∈ files)
    (changes : List FileChange) : (s.update analyzer changes).store.MadeOf files := by
  rw [update_store]
  exact foldl_keeps (P := MadeOf files) (fun c hs => hs.applyChange hanalyzer c) changes h

end MadeOf

/-! ## Measures -/

/-- The measures of all stored methods are integers, however large, and their risks are machine
    numbers. -/
structure Measured (s : Store) : Prop where
  complexity : ∀ {id m}, s.method? id = some m → m.complexity.toJson.IsInteger
  linesOfCode : ∀ {id m}, s.method? id = some m → m.linesOfCode.IsInteger
  riskScore : ∀ {id m}, s.method? id = some m → m.riskScore.IsMachine

/-- The measures of all stored methods are within the range of machine numbers. -/
def InRange (s : Store) : Prop :=
  ∀ id m, s.method? id = some m → m.complexity.toJson.IsWhole ∧ m.linesOfCode.IsWhole

section Measures

variable {files : List FileAnalysis} {s : Store} (h : s.MadeOf files)

include h

/-- The finding behind a stored method. -/
theorem MadeOf.finding {id : String} {m : Method} (hm : s.method? id = some m) :
    ∃ a ∈ files, ∃ f ∈ a.methods, m.IsOf f := by
  obtain ⟨a, ha, f, hf, hof⟩ := h id m.bare (Option.map_eq_some_iff.2 ⟨m, hm, rfl⟩)
  exact ⟨a, ha, f, hf, hof.complexity, hof.linesOfCode, hof.riskScore⟩

variable (hfiles : ∀ a ∈ files, ∀ f ∈ a.methods, f.IsCounted)

include hfiles

/-- If all findings have integers as measures, so have all stored methods. -/
theorem MadeOf.measured : s.Measured := by
  constructor
  · intro id m hm
    obtain ⟨a, ha, f, hf, hof⟩ := h.finding hm
    obtain ⟨n, -, hn⟩ := (hfiles a ha f hf).complexity
    rw [hof.toJson_complexity (hfiles a ha f hf), hn]
    exact ⟨n, rfl⟩
  · intro id m hm
    obtain ⟨a, ha, f, hf, hof⟩ := h.finding hm
    rw [hof.linesOfCode]
    exact (hfiles a ha f hf).linesOfCode
  · intro id m hm
    obtain ⟨a, ha, f, hf, hof⟩ := h.finding hm
    exact ⟨0, hof.riskScore⟩

/-- And if all findings are within the range of machine numbers, so are they. -/
theorem MadeOf.inRange (hrange : ∀ a ∈ files, ∀ f ∈ a.methods, f.InRange) : s.InRange := by
  intro id m hm
  obtain ⟨a, ha, f, hf, hof⟩ := h.finding hm
  rw [hof.toJson_complexity (hfiles a ha f hf), hof.linesOfCode]
  exact hrange a ha f hf

end Measures

end Store
end PathTriage
