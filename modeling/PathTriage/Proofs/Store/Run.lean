import PathTriage.Store.Bundle
import PathTriage.Store.Operation

/-!
What every elementary step of a store keeps, every run of its operations keeps.

An operation is a sequence of elementary steps: the nine fields of `Stable`. A property that all of
them keep holds after every operation (`Stable.perform`), and so, once the empty store has it, in
every store that can be reached (`Stable.of_reachable`) and in every store that is built from the
analyses of a project (`Stable.ofFiles`). A change that fails half-way is no exception, since each
of its steps is elementary, too.
-/

namespace PathTriage.Store

/-- A property of stores that every elementary step keeps. -/
structure Stable (P : Store → Prop) : Prop where
  putMethod : ∀ {s : Store} (m : Method), P s → P (s.putMethod m)
  putClass : ∀ {s : Store} (c : ClassEntry), P s → P (s.putClass c)
  addCall : ∀ {s : Store} (c : Call), P s → P (s.addCall c)
  addImplementation : ∀ {s : Store} (i : Implementation), P s → P (s.addImplementation i)
  addDataFlow : ∀ {s : Store} (f : DataFlow), P s → P (s.addDataFlow f)
  setRisk : ∀ {s : Store} (id : String) (score : Json), P s → P (s.setRisk id score)
  removeMethod : ∀ {s : Store} (id : String), P s → P (s.removeMethod id)
  removeClassesOf : ∀ {s : Store} (filePath : String), P s → P (s.removeClassesOf filePath)
  renameFile : ∀ {s : Store} (old new : String), P s → P (s.renameFile old new)

/-- A run of steps keeps what each of them keeps. -/
theorem foldl_keeps {α σ : Type} {P : σ → Prop} {f : σ → α → σ}
    (hf : ∀ {s : σ} (x : α), P s → P (f s x)) (xs : List α) {s : σ} (hs : P s) :
    P (xs.foldl f s) := by
  induction xs generalizing s with
  | nil => exact hs
  | cons x xs ih => exact ih (hf x hs)

/-- A run of steps leaves alone what each of them leaves alone. -/
theorem foldl_unchanged {α σ ρ : Type} (view : σ → ρ) {f : σ → α → σ}
    (hf : ∀ s x, view (f s x) = view s) (xs : List α) (s : σ) : view (xs.foldl f s) = view s :=
  foldl_keeps (P := fun t => view t = view s) (fun x h => (hf _ x).trans h) xs rfl

/-- A run of steps that each do nothing does nothing. -/
theorem foldl_eq_self {α σ : Type} {f : σ → α → σ} {xs : List α} {s : σ}
    (h : ∀ x ∈ xs, f s x = s) : xs.foldl f s = s := by
  induction xs with
  | nil => rfl
  | cons x xs ih =>
    rw [List.foldl_cons, h x List.mem_cons_self]
    exact ih fun y hy => h y (List.mem_cons_of_mem x hy)

/-! ## Removals that are counted -/

namespace Progress

/-- A removal that is counted removes the same. -/
@[simp] theorem store_removeMethod (p : Progress) (id : String) :
    (p.removeMethod id).store = p.store.removeMethod id := by
  unfold Progress.removeMethod
  split
  · rfl
  · next h => rw [Store.removeMethod, if_neg h]

/-- By induction on the methods, in the order in which they are removed. -/
theorem store_removeMethods (p : Progress) (ids : List String) :
    (ids.foldl removeMethod p).store = ids.foldl Store.removeMethod p.store := by
  induction ids generalizing p with
  | nil => rfl
  | cons id ids ih => rw [List.foldl_cons, ih, store_removeMethod, List.foldl_cons]

@[simp] theorem store_removeFile (p : Progress) (filePath : String) :
    (p.removeFile filePath).store = p.store.removeFile filePath := by
  show ((p.store.methodsOf filePath).foldl removeMethod p).store.removeClassesOf filePath = _
  rw [store_removeMethods, Store.removeFile]

end Progress

namespace Stable

variable {P : Store → Prop} (h : Stable P) {s : Store} (hs : P s)

include h hs

/-! ## Analyses and files -/

/-- The classes and methods of an analysis are put in one by one. -/
theorem putNodes (a : FileAnalysis) : P (s.putNodes a) :=
  foldl_keeps h.putMethod _ (foldl_keeps h.putClass _ hs)

theorem applyAnalysis (a : FileAnalysis) : P (s.applyAnalysis a) :=
  foldl_keeps h.addCall _ (h.putNodes hs a)

theorem removeMethods (ids : List String) : P (ids.foldl Store.removeMethod s) :=
  foldl_keeps h.removeMethod ids hs

/-- A file goes method by method, and then its classes. -/
theorem removeFile (filePath : String) : P (s.removeFile filePath) :=
  h.removeClassesOf filePath (h.removeMethods hs _)

/-- Links that were kept are put back one by one. -/
theorem restore (k : Kept) : P (s.restore k) :=
  foldl_keeps h.addDataFlow _ (foldl_keeps h.addImplementation _ (foldl_keeps h.addCall _ hs))

/-- Replacing a file removes it, takes the analysis in and puts back what was kept. -/
theorem replaceFile (a : FileAnalysis) : P (s.replaceFile a) :=
  h.restore (h.applyAnalysis (h.removeFile hs a.filePath) a) _

/-- Risks are set one by one, as far as they compute. -/
theorem refreshEach (history : Option ProjectHistory) (ms : List Method) :
    ∀ found, P (Store.refreshEach history s found ms).1 := by
  induction ms generalizing s with
  | nil => intro found; exact hs
  | cons m ms ih =>
    intro found
    unfold Store.refreshEach
    cases riskOf history m with
    | error cause => exact hs
    | ok risk => exact ih (h.setRisk m.id risk hs) _

omit hs

/-! ## Changes -/

theorem dropListed {p : Progress} (hp : P p.store) (change : FileChange) :
    P (p.dropListed change).store := by
  rw [Progress.dropListed, Progress.store_removeMethods]
  exact h.removeMethods hp change.deletedMethods

omit h in
/-- A file that cannot be analysed is left as it is. -/
theorem reanalyze {p : Progress} (hp : P p.store) (analyzer : Option Analyzer)
    (change : FileChange) {take : Progress → FileAnalysis → Progress}
    (htake : ∀ a, P (take p a).store) : P (p.reanalyze analyzer change take).1.store := by
  unfold Progress.reanalyze
  cases analyzer with
  | none => exact hp
  | some analyze =>
    dsimp only
    cases analyze change.filePath with
    | ok a => exact htake a
    | error reason => exact hp

include hs

/-- Every kind of change is made of these, whether it succeeds or not. -/
theorem applyChange (analyzer : Option Analyzer) (change : FileChange) :
    P (s.applyChange analyzer change).1.store := by
  have hstart : P ({ store := s } : Progress).store := hs
  unfold Store.applyChange
  cases change.kind with
  | renamed =>
    dsimp only
    split
    · exact hs
    · split
      · exact hs
      · exact h.renameFile _ _ hs
  | deleted =>
    refine h.dropListed ?_ change
    rw [Progress.store_removeFile]
    exact h.removeFile hs change.filePath
  | added =>
    have hdrop := h.dropListed hstart change
    exact reanalyze hdrop analyzer change fun a => h.applyAnalysis hdrop a
  | modified =>
    have hdrop := h.dropListed hstart change
    exact reanalyze hdrop analyzer change fun a => h.replaceFile hdrop a

omit hs in
theorem step {u : UpdateProgress} (hu : P u.store) (analyzer : Option Analyzer)
    (change : FileChange) : P (u.step analyzer change).store := by
  have hc := h.applyChange hu analyzer change
  unfold UpdateProgress.step
  split
  · next p heq => rw [heq] at hc; exact hc
  · next p failure heq => rw [heq] at hc; exact hc

/-- By induction on the changes. -/
theorem update (analyzer : Option Analyzer) (changes : List FileChange) :
    P (s.update analyzer changes).store :=
  foldl_keeps (P := fun u : UpdateProgress => P u.store)
    (fun change hu => h.step hu analyzer change) changes hs

/-! ## Operations and runs -/

/-- An operation keeps what the elementary steps keep, provided the empty store has it. -/
theorem perform (hempty : P .empty) (op : StoreOperation) : P (op.perform s) := by
  cases op with
  | putMethod m => exact h.putMethod m hs
  | putClass c => exact h.putClass c hs
  | addCall c => exact h.addCall c hs
  | addImplementation i => exact h.addImplementation i hs
  | addDataFlow f => exact h.addDataFlow f hs
  | setRisk id score => exact h.setRisk id score hs
  | refreshRisks history => exact h.refreshEach hs history _ _
  | applyAnalysis a => exact h.applyAnalysis hs a
  | update analyzer changes => exact h.update hs analyzer changes
  | removeFile filePath =>
    show P (s.removal filePath).store
    rw [removal, Progress.store_removeFile]
    exact h.removeFile hs filePath
  | renameFile old new => exact h.renameFile old new hs
  | clear => exact hempty
  | snapshot => exact hs

omit hs

/-- What holds of nothing and is kept by every operation holds of every store that can be
    reached. -/
theorem of_reachable (hempty : P .empty) (hr : s.Reachable) : P s := by
  induction hr with
  | empty => exact hempty
  | step _ op ih => exact h.perform ih hempty op

theorem ofFiles (hempty : P .empty) (files : List FileAnalysis) : P (Store.ofFiles files) := by
  have hnodes : P (ofNodes files) := by
    unfold ofNodes
    exact foldl_keeps (P := P) (fun a hs => h.putNodes hs a) files hempty
  exact foldl_keeps h.addCall _ hnodes

end Stable

/-! ## Runs as lists -/

/-- The store that a list of operations leads to. -/
def after (ops : List StoreOperation) : Store := ops.foldl StoreOperation.perform .empty

/-- A list of operations leads to a store that can be reached. -/
theorem reachable_after (ops : List StoreOperation) : (after ops).Reachable :=
  foldl_keeps (P := Reachable) (fun op h => .step h op) ops .empty

end PathTriage.Store
