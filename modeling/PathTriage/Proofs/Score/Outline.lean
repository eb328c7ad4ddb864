import PathTriage.Verdict
import Mathlib.Data.List.Forall2

/-!
What scores and signals read off the outlines of methods.

The outline of a method is what identifies and classifies it: its id, its name, its layer and its
annotations, without any measure. Many parts of the scores and all structural signals look at
nothing else, in whatever arithmetic they are computed: they are the same for two paths whose
methods have the same outlines, hop by hop. `List.Forall₂` relates the methods of two such paths.
-/

namespace PathTriage

/-- A method without its measures. -/
def Method.outline (m : Method) : Method where
  id := m.id
  name := m.name
  layer := m.layer
  annotations := m.annotations

/-- A path whose methods have no measures. -/
def CallPath.outline (p : CallPath) : CallPath where
  id := ""
  methods := p.methods.map Method.outline
  slots := p.slots
  slots_length := by rw [List.length_map, p.slots_length]

/-- Paths with the same outlines, hop by hop, and the same calls have the same outline. The id of a
    path plays no part. -/
theorem CallPath.outline_eq {p p' : CallPath}
    (hmethods : p'.methods.map Method.outline = p.methods.map Method.outline)
    (hslots : p'.slots = p.slots) : p'.outline = p.outline := by
  unfold outline
  simp only [hmethods, hslots]

theorem CallPath.map_outline_eq {p p' : CallPath} (h : p'.outline = p.outline) :
    p'.methods.map Method.outline = p.methods.map Method.outline :=
  congrArg CallPath.methods h

/-! ## Matched methods -/

section Matched

variable {β γ : Type} {R : β → β → Prop} {xs ys : List β} (h : List.Forall₂ R xs ys)

include h

/-- Matched methods that agree on an attribute agree on it list by list. -/
theorem map_eq_of_forall₂ {f : β → γ} (hf : ∀ x y, R x y → f y = f x) : ys.map f = xs.map f := by
  induction h with
  | nil => rfl
  | cons hxy _ ih => rw [List.map_cons, List.map_cons, hf _ _ hxy, ih]

theorem isEmpty_of_forall₂ : ys.isEmpty = xs.isEmpty := by
  cases h with
  | nil => rfl
  | cons _ _ => rfl

/-- What holds of a method and then of its match too is counted at least as often on the second
    path. -/
theorem countP_le_of_forall₂ {f : β → Bool} (hf : ∀ x y, R x y → f x = true → f y = true) :
    xs.countP f ≤ ys.countP f := by
  induction h with
  | nil => exact Nat.le_refl 0
  | cons hxy _ ih =>
    rw [List.countP_cons, List.countP_cons]
    apply Nat.add_le_add ih
    split
    · next hx => exact Nat.le_of_eq (if_pos (hf _ _ hxy hx)).symm
    · exact Nat.zero_le _

end Matched

/-- The changed methods on matched paths are matched: which methods they are is a matter of ids. -/
theorem Risk.forall₂_changedOn {R : Method → Method → Prop} (hid : ∀ m m', R m m' → m'.id = m.id)
    {methods methods' : List Method} (h : List.Forall₂ R methods methods') (changed : List String) :
    ∀ seen, List.Forall₂ R (changedOn changed seen methods) (changedOn changed seen methods') := by
  induction h with
  | nil =>
    intro seen
    exact .nil
  | cons hm _ ih =>
    intro seen
    rw [changedOn, changedOn, hid _ _ hm]
    split
    · exact .cons hm (ih _)
    · exact ih seen

/-! ## Hops -/

/-- The hops of a mapped list are the mapped hops. -/
theorem zip_tail_map {β γ : Type} (f : β → γ) (xs : List β) :
    (xs.map f).zip (xs.map f).tail = (xs.zip xs.tail).map (Prod.map f f) := by
  rw [← List.map_tail, List.zip_map]

/-- Which calls are resolved is a matter of ids and of what is known. -/
theorem CallPath.resolvedCalls_outline (known : String → String → Bool) (p : CallPath) :
    p.outline.resolvedCalls known = p.resolvedCalls known := by
  unfold resolvedCalls steps
  change List.filterMap _
    (((p.methods.map Method.outline).zip (p.methods.map Method.outline).tail).zip
    p.slots) = _
  rw [zip_tail_map, List.zip_map_left, List.filterMap_map]
  rfl

namespace Risk

variable {m : Type → Type} [Monad m] {α : Type} [Scalar m α]

open Scalar

/-- Whether a hop breaks the layering is a matter of its two layers. -/
theorem violations_outline (methods : List Method) :
    violations (methods.map Method.outline) = violations methods := by
  unfold violations
  rw [zip_tail_map, List.map_map]
  rfl

/-- Hence the layering score, in any arithmetic. -/
theorem crossLayer_outline (methods : List Method) :
    crossLayer (methods.map Method.outline) = (crossLayer methods : m α) := by
  unfold crossLayer
  rw [List.length_map, violations_outline]

/-- A repetition is a repeated id. -/
theorem repetitions_outline (methods : List Method) :
    repetitions (methods.map Method.outline) = repetitions methods := by
  unfold repetitions
  rw [List.length_map, List.map_map]
  rfl

/-- Hence the score of circularity. -/
theorem circular_outline (methods : List Method) :
    circular (methods.map Method.outline) = (circular methods : m α) := by
  unfold circular
  rw [List.isEmpty_map, List.length_map, repetitions_outline]

theorem consistency_outline (methods : List Method) :
    consistency (methods.map Method.outline) = (consistency methods : m α) := by
  unfold consistency
  rw [List.countP_map, List.countP_map]
  rfl

/-- The data flow is read off names, layers and annotations. -/
theorem dataFlow_outline (methods : List Method) :
    dataFlow (methods.map Method.outline) = (dataFlow methods : m α) := by
  unfold dataFlow meanWhere meanOf
  rw [List.map_map, List.map_map, consistency_outline]
  rfl

/-- The architectural part of a method is read off its layer and its annotations. -/
theorem methodArchitectural_outline (method : Method) :
    methodArchitectural method.outline = (methodArchitectural method : m α) := rfl

end Risk

namespace Intent

variable {m : Type → Type} [Monad m] {α : Type} [Scalar m α]

open Scalar

/-- Keywords come from the names of classes and methods. -/
theorem keywordOverlap_outline (methods : List Method) (history : List Commit) :
    keywordOverlap (methods.map Method.outline) history =
      (keywordOverlap methods history : m α) := by
  have hkeywords :
      Lexicon.keywordsOf (methods.map Method.outline) = Lexicon.keywordsOf methods := by
    unfold Lexicon.keywordsOf
    rw [List.flatMap_map]
    rfl
  unfold keywordOverlap
  rw [hkeywords]

/-- Connectivity counts hops and resolved calls. -/
theorem connectivity_outline (known : String → String → Bool) (p : CallPath) :
    connectivity known p.outline = (connectivity known p : m α) := by
  have hhops : p.outline.hops = p.hops := by
    unfold CallPath.hops
    rw [CallPath.outline, List.length_map]
  unfold connectivity
  rw [hhops, p.resolvedCalls_outline known]

end Intent

/-! ## Signals -/

namespace Signal

/-- A signal that some method gives by its outline. -/
theorem any_outline {f : Method → Bool} (hf : ∀ method, f method.outline = f method)
    (p : CallPath) :
    p.outline.methods.any f = p.methods.any f := by
  rw [CallPath.outline, List.any_map]
  exact congrArg p.methods.any (funext hf)

theorem methodWith?_outline (methods : List Method) (id : String) :
    methodWith? (methods.map Method.outline) id = (methodWith? methods id).map Method.outline := by
  unfold methodWith?
  rw [← List.map_reverse, List.find?_map]
  rfl

/-- A forbidden pair is found by the ids of a call and reported by the layers of its ends. -/
theorem forbiddenPair?_outline (methods : List Method) (c : Call) :
    forbiddenPair? (methods.map Method.outline) c = forbiddenPair? methods c := by
  unfold forbiddenPair?
  rw [methodWith?_outline, methodWith?_outline]
  cases methodWith? methods c.caller with
  | none => rfl
  | some caller =>
    cases methodWith? methods c.callee with
    | none => rfl
    | some callee => rfl

/-- The first of the two signals that make a path faulty. -/
theorem hasLayerViolation_outline (p : CallPath) :
    hasLayerViolation p.outline = hasLayerViolation p := by
  have hpair : forbiddenPair? p.outline.methods = forbiddenPair? p.methods :=
    funext (forbiddenPair?_outline p.methods)
  unfold hasLayerViolation layerViolation?
  rw [hpair]
  rfl

/-- And the second: an id that comes again. -/
theorem isCircular_outline (p : CallPath) : isCircular p.outline = isCircular p := by
  have hids : p.outline.methodIds = p.methodIds := by
    unfold CallPath.methodIds
    rw [CallPath.outline, List.map_map]
    rfl
  unfold isCircular
  rw [hids]

end Signal

namespace Verdict

/-- What speaks for a path besides its scores and tests is read off outlines. -/
theorem isValuable_outline (p : CallPath) : isValuable p.outline = isValuable p := by
  unfold isValuable Signal.hasNewEndpoint Signal.touchesCoreEntity Signal.changesDataModel
  rw [Signal.any_outline fun _ => rfl, Signal.any_outline fun _ => rfl,
    Signal.any_outline fun _ => rfl]

/-- What speaks against a path by its structure is read off outlines. -/
theorem isFaulty_outline (p : CallPath) : isFaulty p.outline = isFaulty p := by
  unfold isFaulty
  rw [Signal.hasLayerViolation_outline, Signal.isCircular_outline]

/-- So is a transaction that reaches outside. -/
theorem mixesTransaction_outline (p : CallPath) :
    mixesTransaction p.outline = mixesTransaction p := by
  unfold mixesTransaction Signal.isTransactional Signal.callsOutside Signal.accessesData
  rw [Signal.any_outline fun _ => rfl, Signal.any_outline fun _ => rfl,
    Signal.any_outline fun _ => rfl]

end Verdict

end PathTriage
