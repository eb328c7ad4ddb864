import Mathlib.Data.List.Forall2
import Mathlib.Data.List.Perm.Basic

/-!
Computations that may fail, taken apart: what the parts gave when the whole gave a result, and when
the whole gives one because its parts do.
-/

namespace PathTriage.Outcome

section Except

variable {ε α β : Type}

theorem bind_eq_ok {x : Except ε α} {f : α → Except ε β} {b : β} :
    x >>= f = .ok b ↔ ∃ a, x = .ok a ∧ f a = .ok b := by
  cases x with
  | error e => simp [bind, Except.bind]
  | ok a => simp [bind, Except.bind]

theorem pure_eq_ok {a b : α} : (pure a : Except ε α) = .ok b ↔ a = b := by
  simp [pure, Except.pure]

/-- A list of computations gives a list of results, one for each. -/
theorem mapM_eq_ok {f : α → Except ε β} {xs : List α} {ys : List β} :
    xs.mapM f = .ok ys ↔ List.Forall₂ (fun x y => f x = .ok y) xs ys := by
  induction xs generalizing ys with
  | nil =>
    rw [List.mapM_nil, pure_eq_ok, List.forall₂_nil_left_iff]
    exact eq_comm
  | cons x xs ih =>
    rw [List.mapM_cons]
    constructor
    · intro h
      obtain ⟨y, hy, h⟩ := bind_eq_ok.1 h
      obtain ⟨ys', hys', h⟩ := bind_eq_ok.1 h
      rw [pure_eq_ok] at h
      subst h
      exact .cons hy (ih.1 hys')
    · intro h
      cases h with
      | cons hy hys => exact bind_eq_ok.2 ⟨_, hy, bind_eq_ok.2 ⟨_, ih.2 hys, rfl⟩⟩

/-- Every member of the second of two matched lists has a partner in the first. -/
theorem exists_of_forall₂ {R : α → β → Prop} {xs : List α} {ys : List β} (h : List.Forall₂ R xs ys)
    {y : β} (hy : y ∈ ys) : ∃ x ∈ xs, R x y := by
  induction h with
  | nil => simp at hy
  | @cons x y' xs ys hxy _ ih =>
    rcases List.mem_cons.1 hy with rfl | hy
    · exact ⟨x, List.mem_cons_self, hxy⟩
    · obtain ⟨z, hz, hzy⟩ := ih hy
      exact ⟨z, List.mem_cons_of_mem x hz, hzy⟩

theorem exists_of_mem_mapM {f : α → Except ε β} {xs : List α} {ys : List β}
    (h : xs.mapM f = .ok ys) {y : β} (hy : y ∈ ys) : ∃ x ∈ xs, f x = .ok y :=
  exists_of_forall₂ (mapM_eq_ok.1 h) hy

/-- Computations in another order give the same results in another order. -/
theorem exists_perm_of_mapM {f : α → Except ε β} {xs xs' : List α} {ys : List β}
    (hperm : xs'.Perm xs) (h : xs.mapM f = .ok ys) : ∃ ys', xs'.mapM f = .ok ys' ∧ ys'.Perm ys := by
  obtain ⟨ys', hys', hperm'⟩ := List.perm_comp_forall₂ hperm (mapM_eq_ok.1 h)
  exact ⟨ys', mapM_eq_ok.2 hys', hperm'⟩

/-- The reason for which a computation fails, if it does. -/
def reason? : Except ε α → Option ε
  | .error e => some e
  | .ok _ => none

theorem reason?_eq_some {c : Except ε α} {e : ε} : reason? c = some e ↔ c = .error e := by
  cases c <;> simp [reason?]

theorem reason?_eq_none {c : Except ε α} : reason? c = none ↔ ∃ a, c = .ok a := by
  cases c <;> simp [reason?]

/-- A computation that goes on without failing fails where its first part does. -/
theorem reason?_bind {c : Except ε α} {f : α → Except ε β}
    (hf : ∀ a, c = .ok a → ∃ b, f a = .ok b) :
    reason? (c >>= f) = reason? c := by
  cases c with
  | error e => rfl
  | ok a =>
    obtain ⟨b, hb⟩ := hf a rfl
    change reason? (f a) = none
    rw [hb]
    rfl

/-- Two lists of computations that fail alike, one by one, fail alike. -/
theorem reason?_mapM {f : β → Except ε α} {xs ys : List β}
    (h : List.Forall₂ (fun x y => reason? (f x) = reason? (f y)) xs ys) :
    reason? (xs.mapM f) = reason? (ys.mapM f) := by
  induction h with
  | nil => rfl
  | @cons x y xs ys hxy _ ih =>
    have hrest (a : α) (zs : List β) : reason? (zs.mapM f >>= fun as => pure (a :: as)) =
        reason? (zs.mapM f) := reason?_bind fun as _ => ⟨a :: as, rfl⟩
    rw [List.mapM_cons, List.mapM_cons]
    cases hx : f x with
    | error e =>
      rw [hx] at hxy
      rw [reason?_eq_some.1 hxy.symm]
      rfl
    | ok a =>
      rw [hx] at hxy
      obtain ⟨b, hb⟩ := reason?_eq_none.1 hxy.symm
      rw [hb]
      exact (hrest a xs).trans (ih.trans (hrest b ys).symm)

theorem map_bind_congr {γ : Type} {c : Except ε α} {f g : α → Except ε β} {view : β → γ}
    (h : ∀ a, (f a).map view = (g a).map view) : (c >>= f).map view = (c >>= g).map view := by
  cases c with
  | error e => rfl
  | ok a => exact h a

/-- A part that a view does not show matters only for whether there is a result at all. -/
theorem map_bind_of_reason {γ : Type} {c c' : Except ε α} (hreason : reason? c = reason? c')
    {f : α → Except ε β} {view : β → γ} (h : ∀ a a', (f a).map view = (f a').map view) :
    (c >>= f).map view = (c' >>= f).map view := by
  cases c with
  | error e =>
    rw [reason?_eq_some.1 hreason.symm]
  | ok a =>
    obtain ⟨a', ha'⟩ := reason?_eq_none.1 hreason.symm
    rw [ha']
    exact h a a'

/-- What looks at a result only through a view is the same for two computations with the same
    view. -/
theorem bind_eq_of_map_eq {γ : Type} {x y : Except ε α} {view : α → γ} (h : x.map view = y.map view)
    {f : α → Except ε β} (hf : ∀ a b, view a = view b → f a = f b) : x >>= f = y >>= f := by
  cases x with
  | error e =>
    cases y with
    | error e' => exact congrArg Except.error (Except.error.inj h)
    | ok b => exact nomatch h
  | ok a =>
    cases y with
    | error e' => exact nomatch h
    | ok b => exact hf a b (Except.ok.inj h)

/-! ## Computations that do not fail -/

/-- The computation gives a result, and the result has a property. -/
def Gives (P : α → Prop) (c : Except ε α) : Prop := ∃ a, c = .ok a ∧ P a

namespace Gives

variable {P : α → Prop} {Q : β → Prop} {c : Except ε α}

theorem pure {a : α} (h : P a) : Gives P (Pure.pure a : Except ε α) := ⟨a, rfl, h⟩

theorem imp {P' : α → Prop} (h : Gives P c) (himp : ∀ a, P a → P' a) : Gives P' c := by
  obtain ⟨a, rfl, ha⟩ := h
  exact ⟨a, rfl, himp a ha⟩

theorem bind {f : α → Except ε β} (h : Gives P c) (hf : ∀ a, P a → Gives Q (f a)) :
    Gives Q (c >>= f) := by
  obtain ⟨a, rfl, ha⟩ := h
  exact hf a ha

/-- Either way on from a condition is all right. -/
theorem choose {P : Bool → Prop} {c : Except ε Bool} {x y : Except ε β} (h : Gives P c)
    (hx : Gives Q x) (hy : Gives Q y) :
    Gives Q (c >>= fun holds => if holds = true then x else y) :=
  h.bind fun holds _ => by cases holds <;> assumption

theorem mapM {f : α → Except ε β} {xs : List α} (h : ∀ x ∈ xs, Gives Q (f x)) :
    Gives (fun ys => ys.length = xs.length ∧ ∀ y ∈ ys, Q y) (xs.mapM f) := by
  induction xs with
  | nil => exact ⟨[], rfl, rfl, by simp⟩
  | cons x xs ih =>
    obtain ⟨y, hy, hQ⟩ := h x List.mem_cons_self
    obtain ⟨ys, hys, hlength, hall⟩ := ih fun z hz => h z (List.mem_cons_of_mem x hz)
    refine ⟨y :: ys, ?_, ?_, ?_⟩
    · rw [List.mapM_cons, hy, hys]
      rfl
    · rw [List.length_cons, List.length_cons, hlength]
    · intro z hz
      rcases List.mem_cons.1 hz with rfl | hz
      · exact hQ
      · exact hall z hz

/-- A property that every step keeps holds at the end. -/
theorem foldlM {f : β → α → Except ε β} {xs : List α}
    (h : ∀ x ∈ xs, ∀ b, Q b → Gives Q (f b x)) {start : β} (hstart : Q start) :
    Gives Q (xs.foldlM f start) := by
  induction xs generalizing start with
  | nil => exact ⟨start, rfl, hstart⟩
  | cons x xs ih =>
    rw [List.foldlM_cons]
    exact (h x List.mem_cons_self start hstart).bind fun b hb =>
      ih (fun y hy => h y (List.mem_cons_of_mem x hy)) hb

end Gives

/-! ## Computations that may fail in some ways -/

/-- What the computation gives has a property, and if it fails, then for a reason that is allowed.
    Without allowed reasons this is `Gives`; when all are allowed, only results count. -/
structure Settles (allowed : ε → Prop) (P : α → Prop) (c : Except ε α) : Prop where
  result : ∀ a, c = .ok a → P a
  failure : ∀ e, c = .error e → allowed e

section Settles

variable {allowed : ε → Prop} {P : α → Prop} {Q : β → Prop} {c : Except ε α}

theorem Gives.settles (h : Gives P c) : Settles allowed P c := by
  obtain ⟨a, rfl, ha⟩ := h
  constructor
  · rintro _ ⟨⟩
    exact ha
  · nofun

theorem Gives.bind_settles {f : α → Except ε β} (h : Gives P c)
    (hf : ∀ a, P a → Settles allowed Q (f a)) : Settles allowed Q (c >>= f) := by
  obtain ⟨a, rfl, ha⟩ := h
  exact hf a ha

namespace Settles

theorem pure {a : α} (h : P a) : Settles allowed P (Pure.pure a : Except ε α) :=
  (Gives.pure h).settles

theorem error {e : ε} (h : allowed e) : Settles allowed P (.error e) := by
  constructor
  · nofun
  · rintro _ ⟨⟩
    exact h

theorem allow {allowed' : ε → Prop} (h : Settles allowed P c) (himp : ∀ e, allowed e → allowed' e) :
    Settles allowed' P c :=
  ⟨h.result, fun e he => himp e (h.failure e he)⟩

theorem bind {f : α → Except ε β} (h : Settles allowed P c)
    (hf : ∀ a, P a → Settles allowed Q (f a)) : Settles allowed Q (c >>= f) := by
  cases c with
  | ok a => exact hf a (h.result a rfl)
  | error e => exact error (h.failure e rfl)

theorem map {f : α → β} (h : Settles allowed P c) (hf : ∀ a, P a → Q (f a)) :
    Settles allowed Q (c.map f) := by
  cases c with
  | ok a => exact pure (hf a (h.result a rfl))
  | error e => exact error (h.failure e rfl)

/-- Without allowed reasons there is no failure. -/
theorem gives (h : Settles (fun _ => False) P c) : Gives P c := by
  cases c with
  | ok a => exact ⟨a, rfl, h.result a rfl⟩
  | error e => exact (h.failure e rfl).elim

/-- When every failure is allowed, it does not matter where a computation goes on from. -/
theorem bind_any {f : α → Except ε β} (hf : ∀ a, Settles (fun _ => True) Q (f a)) :
    Settles (fun _ => True) Q (c >>= f) := by
  cases c with
  | ok a => exact hf a
  | error e => exact error trivial

theorem mapM {f : α → Except ε β} {xs : List α} (h : ∀ x ∈ xs, Settles allowed Q (f x)) :
    Settles allowed (fun ys => ys.length = xs.length ∧ ∀ y ∈ ys, Q y) (xs.mapM f) := by
  induction xs with
  | nil => exact pure ⟨rfl, by simp⟩
  | cons x xs ih =>
    rw [List.mapM_cons]
    refine (h x List.mem_cons_self).bind fun y hy => ?_
    refine (ih fun z hz => h z (List.mem_cons_of_mem x hz)).bind fun ys hys => pure ?_
    exact ⟨congrArg (· + 1) hys.1, List.forall_mem_cons.2 ⟨hy, hys.2⟩⟩

end Settles

end Settles

end Except

/-- Looking up every member of a list leaves none out when all are there. -/
theorem mapM_eq_some_filterMap {α β : Type} {f : α → Option β} {xs : List α}
    (h : ∀ x ∈ xs, (f x).isSome) : xs.mapM f = some (xs.filterMap f) := by
  induction xs with
  | nil => rfl
  | cons x xs ih =>
    obtain ⟨y, hy⟩ := Option.isSome_iff_exists.1 (h x List.mem_cons_self)
    rw [List.mapM_cons, ih fun z hz => h z (List.mem_cons_of_mem x hz), List.filterMap_cons_some hy,
      hy]
    rfl

end PathTriage.Outcome
