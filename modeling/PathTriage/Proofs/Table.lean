import PathTriage.Graph.Basic
import Mathlib.Data.Set.Card
import Mathlib.Data.List.Nodup

/-!
Tables by key, as the proofs about stores read them.

  * `getElem?_foldl_modify`: look-ups after a run of modifications by one idempotent function.
  * `foldl_view`: a run of guarded writes, seen through a look-up. The last write to a key wins.
  * `countP_keys`: counting keys is counting a set.
  * `size_add_countP`: the size of a table and of a part of it.
-/

namespace PathTriage.Table

/-! ## Modifications -/

section Modify

variable {κ β : Type} [Ord κ] [Std.TransOrd κ] [Std.LawfulEqOrd κ] [DecidableEq κ]

theorem getElem?_modify_eq (t : Std.ExtTreeMap κ β) (k a : κ) (f : β → β) :
    (t.modify k f)[a]? = if k = a then t[a]?.map f else t[a]? := by
  rw [Std.ExtTreeMap.getElem?_modify]
  simp only [Std.compare_eq_iff_eq]
  by_cases h : k = a
  · rw [if_pos h, if_pos h, h]
  · rw [if_neg h, if_neg h]

/-- A run of modifications by one function that does nothing more the second time. -/
theorem getElem?_foldl_modify {f : β → β} (hf : ∀ v, f (f v) = f v) (ks : List κ) (a : κ) :
    ∀ t : Std.ExtTreeMap κ β,
      (ks.foldl (fun t k => t.modify k f) t)[a]? = if a ∈ ks then t[a]?.map f else t[a]? := by
  induction ks with
  | nil => intro t; simp
  | cons k ks ih =>
    intro t
    rw [List.foldl_cons, ih, getElem?_modify_eq]
    by_cases hk : k = a
    · subst hk
      have hff : f ∘ f = f := funext hf
      simp [hff]
    · have hne : ¬a = k := fun h => hk h.symm
      simp [hk, hne]

end Modify

/-! ## Runs of writes -/

section Run

variable {σ α κ β : Type} [DecidableEq κ]

/-- The last element of a list with a key. -/
def lastWith (key : α → κ) (k : κ) (xs : List α) : Option α := xs.findRev? fun x => key x == k

@[simp] theorem lastWith_nil (key : α → κ) (k : κ) : lastWith key k [] = none := rfl

theorem lastWith_cons (key : α → κ) (k : κ) (x : α) (xs : List α) :
    lastWith key k (x :: xs) =
      (lastWith key k xs).or (if key x = k then some x else none) := by
  unfold lastWith
  rw [List.findRev?]
  cases h : xs.findRev? fun x => key x == k with
  | some y => rfl
  | none =>
    by_cases hk : key x = k
    · simp [hk]
    · simp [hk]

theorem lastWith_append (key : α → κ) (k : κ) (xs ys : List α) :
    lastWith key k (xs ++ ys) = (lastWith key k ys).or (lastWith key k xs) := by
  induction xs with
  | nil => simp
  | cons x xs ih => rw [List.cons_append, lastWith_cons, ih, lastWith_cons, Option.or_assoc]

theorem lastWith_eq_none {key : α → κ} {k : κ} {xs : List α} :
    lastWith key k xs = none ↔ ∀ x ∈ xs, key x ≠ k := by
  induction xs with
  | nil => simp
  | cons x xs ih =>
    rw [lastWith_cons, Option.or_eq_none_iff, ih]
    simp [and_comm]

theorem mem_of_lastWith {key : α → κ} {k : κ} {x : α} {xs : List α}
    (h : lastWith key k xs = some x) : x ∈ xs ∧ key x = k := by
  induction xs with
  | nil => simp at h
  | cons y ys ih =>
    rw [lastWith_cons, Option.or_eq_some_iff] at h
    rcases h with h | ⟨-, h⟩
    · exact ⟨List.mem_cons_of_mem y (ih h).1, (ih h).2⟩
    · by_cases hk : key y = k
      · rw [if_pos hk, Option.some.injEq] at h
        exact ⟨h ▸ List.mem_cons_self, h ▸ hk⟩
      · rw [if_neg hk] at h
        exact absurd h (by simp)

theorem exists_lastWith {key : α → κ} {k : κ} {xs : List α} :
    (∃ x, lastWith key k xs = some x) ↔ ∃ x ∈ xs, key x = k := by
  rw [← Option.isSome_iff_exists, ← Option.ne_none_iff_isSome, ne_eq, lastWith_eq_none]
  simp

theorem lastWith_map {γ : Type} (key : α → κ) (k : κ) (g : γ → α) (xs : List γ) :
    lastWith key k (xs.map g) = (lastWith (fun x => key (g x)) k xs).map g := by
  induction xs with
  | nil => rfl
  | cons x xs ih =>
    rw [List.map_cons, lastWith_cons, ih, lastWith_cons, Option.map_or]
    split <;> rfl

/-- Some list of a family has a key exactly when their concatenation has an element with it. -/
theorem exists_lastWith_flatMap {γ : Type} {key : α → κ} {k : κ} {f : γ → List α} {gs : List γ} :
    (∃ x, lastWith key k (gs.flatMap f) = some x) ↔ ∃ g ∈ gs, k ∈ (f g).map key := by
  rw [exists_lastWith]
  simp only [List.mem_flatMap, List.mem_map]
  constructor
  · rintro ⟨x, ⟨g, hg, hx⟩, hk⟩
    exact ⟨g, hg, x, hx, hk⟩
  · rintro ⟨g, hg, x, hx, hk⟩
    exact ⟨x, ⟨g, hg, hx⟩, hk⟩

/-- Where at most one list of a family has a key, the last element of them all with that key is the
    one that this list has. -/
theorem lastWith_flatMap {γ : Type} {key : α → κ} {k : κ} {f : γ → List α} {gs : List γ}
    (hone : ∀ g ∈ gs, ∀ g' ∈ gs, ∀ x x', lastWith key k (f g) = some x →
      lastWith key k (f g') = some x' → g = g') {x : α} :
    lastWith key k (gs.flatMap f) = some x ↔ ∃ g ∈ gs, lastWith key k (f g) = some x := by
  induction gs generalizing x with
  | nil => simp
  | cons g gs ih =>
    have htail : ∀ y, lastWith key k (gs.flatMap f) = some y ↔
        ∃ g ∈ gs, lastWith key k (f g) = some y := by
      intro y
      exact ih fun g₁ h₁ g₂ h₂ =>
        hone g₁ (List.mem_cons_of_mem g h₁) g₂ (List.mem_cons_of_mem g h₂)
    rw [List.flatMap_cons, lastWith_append, Option.or_eq_some_iff]
    constructor
    · rintro (hx | ⟨-, hx⟩)
      · obtain ⟨g', hg', hx⟩ := (htail x).1 hx
        exact ⟨g', List.mem_cons_of_mem g hg', hx⟩
      · exact ⟨g, List.mem_cons_self, hx⟩
    · rintro ⟨g', hg', hx⟩
      rcases List.mem_cons.1 hg' with rfl | hg'
      · cases hrest : lastWith key k (gs.flatMap f) with
        | none => exact .inr ⟨rfl, hx⟩
        | some y =>
          -- a later list that has the key is this one again
          obtain ⟨g₂, hg₂, hy⟩ := (htail y).1 hrest
          have hg : g₂ = g' := hone g₂ (List.mem_cons_of_mem g' hg₂) g' List.mem_cons_self y x hy hx
          rw [hg, hx] at hy
          exact .inl hy.symm
      · exact .inl ((htail x).2 ⟨g', hg', hx⟩)

/-- **The last write wins.** A run of writes, each let through or not by a guard on its key that no
    write changes, read through a look-up. -/
theorem foldl_view (view : σ → κ → Option β) (guard : σ → κ → Bool) (step : σ → α → σ)
    (key : α → κ) (val : α → β)
    (hview : ∀ s x k, view (step s x) k =
      if key x = k ∧ guard s k = true then some (val x) else view s k)
    (hguard : ∀ s x k, guard (step s x) k = guard s k) (xs : List α) (k : κ) :
    ∀ s, view (xs.foldl step s) k =
      if guard s k = true then ((lastWith key k xs).map val).or (view s k) else view s k := by
  induction xs with
  | nil => intro s; simp
  | cons x xs ih =>
    intro s
    rw [List.foldl_cons, ih, hguard, hview, lastWith_cons]
    by_cases hg : guard s k = true
    · by_cases hk : key x = k
      · cases lastWith key k xs <;> simp [hg, hk]
      · cases lastWith key k xs <;> simp [hg, hk]
    · simp [hg]

end Run

/-! ## Entries as a list -/

section Entries

variable {κ β : Type} [Ord κ] [Std.TransOrd κ]

/-- The values of a table are those of its entries, in the order of their keys. -/
theorem values_eq (t : Std.ExtTreeMap κ β) : t.values = t.toList.map (·.2) := by
  obtain ⟨⟨q⟩⟩ := t
  induction q using Quotient.inductionOn with
  | h t =>
    change t.inner.values = (Std.DTreeMap.Internal.Impl.Const.toList t.inner).map (·.2)
    rw [Std.DTreeMap.Internal.Impl.values_eq_map_snd,
      Std.DTreeMap.Internal.Impl.Const.toList_eq_toListModel_map, List.map_map]
    rfl

variable [Std.LawfulEqOrd κ] [DecidableEq κ]

/-- Looking for a key among the listed values of a table is looking it up, when each value knows
    its own key. -/
theorem lastWith_toList {t : Std.ExtTreeMap κ β} {key : β → κ}
    (hkey : ∀ k v, t[k]? = some v → key v = k) (p : κ → Bool) (k : κ) :
    lastWith key k ((t.toList.filter fun e => p e.1).map (·.2)) =
      if p k = true then t[k]? else none := by
  have hmem : ∀ v, v ∈ (t.toList.filter fun e => p e.1).map (·.2) →
      t[key v]? = some v ∧ p (key v) = true := by
    intro v hv
    obtain ⟨⟨k', v'⟩, he, rfl⟩ := List.mem_map.1 hv
    rw [List.mem_filter, Std.ExtTreeMap.mem_toList_iff_getElem?_eq_some] at he
    obtain ⟨hget, hp⟩ := he
    rw [hkey k' v' hget]
    exact ⟨hget, hp⟩
  cases hlast : lastWith key k ((t.toList.filter fun e => p e.1).map (·.2)) with
  | some v =>
    obtain ⟨hv, rfl⟩ := mem_of_lastWith hlast
    obtain ⟨hget, hp⟩ := hmem v hv
    rw [if_pos hp, hget]
  | none =>
    rw [lastWith_eq_none] at hlast
    by_cases hp : p k = true
    · rw [if_pos hp]
      cases hget : t[k]? with
      | none => rfl
      | some v =>
        -- a value under the key would be listed, and would know the key
        have hv : v ∈ (t.toList.filter fun e => p e.1).map (·.2) := by
          refine List.mem_map.2 ⟨(k, v), ?_, rfl⟩
          rw [List.mem_filter, Std.ExtTreeMap.mem_toList_iff_getElem?_eq_some]
          exact ⟨hget, hp⟩
        exact absurd (hkey k v hget) (hlast v hv)
    · rw [if_neg hp]

end Entries

/-! ## Counting keys -/

section Count

variable {κ β : Type} [Ord κ] [Std.TransOrd κ] [Std.LawfulEqOrd κ]

/-- The keys of a table are distinct, so counting them is counting a set. -/
theorem countP_keys (t : Std.ExtTreeMap κ β) (p : κ → Bool) :
    t.keys.countP p = {k | k ∈ t ∧ p k = true}.ncard := by
  classical
  have hset : {k | k ∈ t ∧ p k = true} = ((t.keys.filter p).toFinset : Set κ) := by
    ext k
    simp [Std.ExtTreeMap.mem_keys]
  have hnodup : (t.keys.filter p).Nodup := Std.ExtTreeMap.nodup_keys.filter p
  rw [hset, Set.ncard_coe_finset, List.toFinset_card_of_nodup hnodup, List.countP_eq_length_filter]

/-- Two tables that agree on the keys in question count them alike. -/
theorem countP_keys_congr {t t' : Std.ExtTreeMap κ β} {p : κ → Bool}
    (h : ∀ k, p k = true → (k ∈ t ↔ k ∈ t')) : t.keys.countP p = t'.keys.countP p := by
  rw [countP_keys, countP_keys]
  congr 1
  ext k
  constructor
  · rintro ⟨hk, hp⟩
    exact ⟨(h k hp).1 hk, hp⟩
  · rintro ⟨hk, hp⟩
    exact ⟨(h k hp).2 hk, hp⟩

/-- A table loses the keys that it does not share with a part of it. -/
theorem size_add_countP {t t' : Std.ExtTreeMap κ β} {p : κ → Bool}
    (h : ∀ k, k ∈ t' ↔ k ∈ t ∧ p k = false) : t'.size + t.keys.countP p = t.size := by
  have hrest : t'.size = t.keys.countP fun k => !p k := by
    rw [← Std.ExtTreeMap.length_keys, ← List.countP_true, countP_keys, countP_keys]
    congr 1
    ext k
    simp [h k]
  have hsplit := t.keys.length_eq_countP_add_countP p
  rw [Std.ExtTreeMap.length_keys] at hsplit
  simp only [Bool.not_eq_true, Bool.decide_eq_false] at hsplit
  omega

end Count

end PathTriage.Table
