import PathTriage.Proofs.Graph.History
import Mathlib.Data.Finset.Card

/-!
The first few of many by size.

Names are ranked by size, the largest first, and names of the same size by their text. A list of the
first names says two things (`Leads`): what it lists is in that order, and whatever it leaves out
comes after everything in it. Sorting names together with their sizes and taking the first gives
such a list.
-/

namespace PathTriage.Order

section Leading

variable {κ : Type} [LinearOrder κ] {size : String → κ}

/-- One name comes before another: it is larger, or of the same size and the smaller text. -/
def Ahead (size : String → κ) (a b : String) : Prop := size b < size a ∨ size a = size b ∧ a < b

/-- A list has the first names of a pool, up to a limit, in their order. -/
structure Leads (size : String → κ) (pool : Finset String) (limit : Nat) (top : List String) :
    Prop where
  sorted : top.Pairwise (Ahead size)
  length : top.length = min limit pool.card
  mem : ∀ x ∈ top, x ∈ pool
  omitted : ∀ x ∈ pool, x ∉ top → ∀ y ∈ top, Ahead size y x

theorem Ahead.ne {a b : String} (h : Ahead size a b) : a ≠ b := by
  rintro rfl
  rcases h with h | ⟨-, h⟩
  · exact lt_irrefl _ h
  · exact lt_irrefl _ h

/-- The beginning of the whole ranking leads. -/
theorem leads_take {ids : List String} (h : ids.Pairwise (Ahead size)) (limit : Nat) :
    Leads size ids.toFinset limit (ids.take limit) where
  sorted := h.sublist (List.take_sublist limit ids)
  length := by
    rw [List.length_take, List.toFinset_card_of_nodup (h.imp Ahead.ne)]
  mem x hx := List.mem_toFinset.2 (List.mem_of_mem_take hx)
  omitted x hx hout y hy := by
    rw [← List.take_append_drop limit ids] at h
    rw [List.mem_toFinset, ← List.take_append_drop limit ids, List.mem_append] at hx
    exact (List.pairwise_append.1 h).2.2 y hy x (hx.resolve_left hout)

/-- Only the order of sizes within the pool matters, not what they are. -/
theorem Leads.congr {κ' : Type} [LinearOrder κ'] {size' : String → κ'} {pool : Finset String}
    {limit : Nat} {top : List String} (h : Leads size pool limit top)
    (hsize : ∀ a ∈ pool, ∀ b ∈ pool, Ahead size a b → Ahead size' a b) :
    Leads size' pool limit top where
  sorted := h.sorted.imp_of_mem fun ha hb => hsize _ (h.mem _ ha) _ (h.mem _ hb)
  length := h.length
  mem := h.mem
  omitted x hx hout y hy := hsize y (h.mem y hy) x hx (h.omitted x hx hout y hy)

end Leading

/-! ## Sorting by size -/

section Sorting

variable {ids : List String} (size : String → Nat)

/-- Names in the order of their sizes. -/
def ranking (size : String → Nat) (ids : List String) : List String :=
  (sortBy Graph.compareDegrees (ids.map fun id => (id, size id))).map (·.1)

/-- The sizes of sorted names are still theirs. -/
theorem sortBy_eq_map_ranking (ids : List String) :
    sortBy Graph.compareDegrees (ids.map fun id => (id, size id)) =
      (ranking size ids).map fun id => (id, size id) := by
  have hentry : ∀ e ∈ sortBy Graph.compareDegrees (ids.map fun id => (id, size id)),
      (e.1, size e.1) = e := by
    intro e he
    obtain ⟨id, -, rfl⟩ := List.mem_map.1 ((sortBy_perm _ _).mem_iff.1 he)
    rfl
  rw [ranking, List.map_map]
  exact (List.map_id _).symm.trans (List.map_congr_left fun e he => (hentry e he).symm)

theorem ranking_perm (ids : List String) : (ranking size ids).Perm ids := by
  have hperm := (sortBy_perm Graph.compareDegrees (ids.map fun id => (id, size id))).map (·.1)
  rwa [List.map_map, List.map_id''] at hperm
  intro id
  rfl

theorem ranking_pairwise (h : ids.Nodup) : (ranking size ids).Pairwise (Ahead size) := by
  have hsorted := (Graph.compareDegrees_linear (ids.map fun id => (id, size id))).sortBy_pairwise
  rw [sortBy_eq_map_ranking, List.pairwise_map] at hsorted
  have hne : (ranking size ids).Pairwise (· ≠ ·) := (ranking_perm size ids).nodup_iff.2 h
  refine (hsorted.and hne).imp ?_
  rintro a b ⟨hle, hne⟩
  rcases Graph.compareDegrees_ne_gt.1 hle with hlt | ⟨heq, hle⟩
  · exact .inl hlt
  · exact .inr ⟨heq, lt_of_le_of_ne hle hne⟩

/-- The first of the names that are sorted by size lead. -/
theorem leads_ranking (h : ids.Nodup) (limit : Nat) :
    Leads size ids.toFinset limit ((ranking size ids).take limit) := by
  rw [← List.toFinset_eq_of_perm _ _ (ranking_perm size ids)]
  exact leads_take (ranking_pairwise size h) limit

/-- A ranking forgets the order in which the names came. -/
theorem ranking_eq_of_perm {ids' : List String} (h : ids.Perm ids') :
    ranking size ids = ranking size ids' := by
  rw [ranking, ranking, (Graph.compareDegrees_linear _).sortBy_eq_of_perm
    (Graph.compareDegrees_linear _).toRanksOn (h.map _)]

end Sorting

end PathTriage.Order
