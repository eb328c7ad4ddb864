/-!
Sorting by an order. Equal elements keep their places.
-/

namespace PathTriage.Order

/-- Sorts by an order. -/
def sortBy {β : Type} (order : β → β → Ordering) (xs : List β) : List β :=
  xs.mergeSort fun a b => order a b != .gt

/-- Texts in the order of their code points. -/
def sorted (texts : List String) : List String := texts.mergeSort fun a b => decide (a ≤ b)

/-- Each text once, in the order of code points. -/
def sortedSet (texts : List String) : List String := sorted texts.eraseDups

/-- Sorting loses nothing and adds nothing. -/
theorem sortBy_perm {β : Type} (order : β → β → Ordering) (xs : List β) :
    (sortBy order xs).Perm xs := List.mergeSort_perm xs _

theorem sorted_perm (texts : List String) : (sorted texts).Perm texts := List.mergeSort_perm texts _

theorem mem_sorted {texts : List String} {x : String} : x ∈ sorted texts ↔ x ∈ texts :=
  (sorted_perm texts).mem_iff

theorem mem_sortedSet {texts : List String} {x : String} : x ∈ sortedSet texts ↔ x ∈ texts := by
  rw [sortedSet, mem_sorted, List.mem_eraseDups]

end PathTriage.Order
