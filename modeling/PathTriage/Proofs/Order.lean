import PathTriage.Order
import Mathlib.Data.List.Sort
import Mathlib.Data.String.Basic

/-!
A sort forgets the order of its input.

Whatever order is linear on the elements of a list arranges them in one way only, so sorting gives
the same for every permutation. The order has to be linear on the elements at hand and nowhere else:
keys that hold scores compare well only as long as they are numbers.
-/

namespace PathTriage.Order

/-! ## By an order -/

section SortBy

variable {β : Type} {order : β → β → Ordering} {xs ys : List β}

/-- An order ranks any two elements of a list, and ranks them consistently. -/
structure RanksOn (order : β → β → Ordering) (xs : List β) : Prop where
  trans : ∀ a ∈ xs, ∀ b ∈ xs, ∀ c ∈ xs, order a b ≠ .gt → order b c ≠ .gt → order a c ≠ .gt
  total : ∀ a ∈ xs, ∀ b ∈ xs, order a b ≠ .gt ∨ order b a ≠ .gt

/-- An order is linear on the elements of a list. -/
structure LinearOn (order : β → β → Ordering) (xs : List β) : Prop extends RanksOn order xs where
  antisymm : ∀ a ∈ xs, ∀ b ∈ xs, order a b ≠ .gt → order b a ≠ .gt → a = b

/-- The sort itself asks for an order on everything: it is the same sort on the type of the
    elements. -/
theorem RanksOn.sortBy_pairwise (h : RanksOn order xs) :
    (sortBy order xs).Pairwise fun a b => order a b ≠ .gt := by
  let le : {a // a ∈ xs} → {a // a ∈ xs} → Bool := fun a b => order a b != .gt
  have hsorted : (xs.attach.mergeSort le).Pairwise fun a b => le a b = true := by
    refine List.pairwise_mergeSort ?_ ?_ xs.attach
    · intro a b c hab hbc
      rw [bne_iff_ne] at hab hbc ⊢
      exact h.trans a a.2 b b.2 c c.2 hab hbc
    · intro a b
      rw [Bool.or_eq_true, bne_iff_ne, bne_iff_ne]
      exact h.total a a.2 b b.2
  have hsame : sortBy order xs = (xs.attach.mergeSort le).map Subtype.val := by
    rw [List.map_mergeSort (s := fun a b => order a b != .gt) (fun _ _ _ _ => rfl),
      List.attach_map_subtype_val]
    rfl
  rw [hsame, List.pairwise_map]
  exact hsorted.imp fun hab => bne_iff_ne.1 hab

/-- Sorting gives the same for every permutation of a list on which the order is linear. -/
theorem LinearOn.sortBy_eq_of_perm (h : LinearOn order xs) (h' : RanksOn order ys)
    (hperm : ys.Perm xs) : sortBy order ys = sortBy order xs := by
  have hboth := (sortBy_perm order ys).trans (hperm.trans (sortBy_perm order xs).symm)
  refine hboth.eq_of_pairwise ?_ h'.sortBy_pairwise h.sortBy_pairwise
  intro a b ha hb hab hba
  have ha : a ∈ xs := hperm.mem_iff.1 ((sortBy_perm order ys).mem_iff.1 ha)
  exact h.antisymm a ha b ((sortBy_perm order xs).mem_iff.1 hb) hab hba

end SortBy

/-! ## Texts -/

section Texts

variable {texts texts' : List String}

theorem sorted_le (texts : List String) : (sorted texts).Pairwise (· ≤ ·) := by
  refine (List.pairwise_mergeSort ?_ ?_ texts).imp of_decide_eq_true
  · intro a b c hab hbc
    rw [decide_eq_true_eq] at hab hbc ⊢
    exact String.le_trans hab hbc
  · intro a b
    rw [Bool.or_eq_true, decide_eq_true_eq, decide_eq_true_eq]
    exact String.le_total a b

/-- Texts that are all different come in strictly ascending order. -/
theorem sorted_lt (h : texts.Nodup) : (sorted texts).Pairwise (· < ·) := by
  have hne : (sorted texts).Nodup := (sorted_perm texts).nodup_iff.2 h
  refine ((sorted_le texts).and hne).imp ?_
  rintro a b ⟨hle, hne⟩
  exact lt_of_le_of_ne hle hne

theorem sorted_eq_of_perm (h : texts.Perm texts') : sorted texts = sorted texts' := by
  have hperm := (sorted_perm texts).trans (h.trans (sorted_perm texts').symm)
  refine hperm.eq_of_pairwise ?_ (sorted_le texts) (sorted_le texts')
  intro a b _ _ hab hba
  exact String.le_antisymm hab hba

theorem nodup_eraseDups (texts : List String) : texts.eraseDups.Nodup := by
  match texts with
  | [] => exact List.nodup_nil
  | text :: rest =>
    have hlength := List.length_filter_le (fun other => !other == text) rest
    rw [List.eraseDups_cons, List.nodup_cons]
    refine ⟨?_, nodup_eraseDups _⟩
    rw [List.mem_eraseDups]
    simp
termination_by texts.length
decreasing_by simp only [List.length_cons]; omega

theorem sortedSet_lt (texts : List String) : (sortedSet texts).Pairwise (· < ·) :=
  sorted_lt (nodup_eraseDups texts)

/-- What is left of texts that are sorted without repetition is which texts they were. -/
theorem sortedSet_eq_of_mem_iff (h : ∀ x, x ∈ texts ↔ x ∈ texts') :
    sortedSet texts = sortedSet texts' := by
  refine (sortedSet_lt texts).eq_of_mem_iff (sortedSet_lt texts') ?_
  intro x
  rw [mem_sortedSet, mem_sortedSet, h]

end Texts
end PathTriage.Order
