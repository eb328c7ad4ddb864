import PathTriage.Proofs.Graph.Closed
import Mathlib.Data.Nat.Find
import Mathlib.Order.Bounds.Basic

/-!
Walks, distances, and searches that go outward level by level.

The distance of two ids is the number of steps on a shortest walk between them. It is taken along a
relation, so that one search may follow arrows backwards and another in both directions.

A search keeps what it has seen and the level that it has reached. `Searched` says what these are
after `n` hops: everything within distance `n`, and what lies at distance `n` exactly. One more hop
keeps this (`Searched.hop`): what is next to a level and has not been seen is one step farther away,
because a shortest walk that is cut before its last step is a shortest walk (`distance_succ_iff`).
-/

namespace PathTriage.Graph

/-! ## Walks -/

/-- A walk of some number of steps from one id to another. -/
inductive Walk (next : String → String → Prop) (x : String) : Nat → String → Prop
  | stay : Walk next x 0 x
  | step {n : Nat} {y z : String} : Walk next x n y → next y z → Walk next x (n + 1) z

/-- The number of steps on a shortest walk from one id to another. -/
def Distance (next : String → String → Prop) (x y : String) (n : Nat) : Prop :=
  IsLeast {k | Walk next x k y} n

section Walks

variable {next : String → String → Prop} {x y z : String} {n k : Nat}

theorem walk_zero_iff : Walk next x 0 y ↔ y = x := by
  refine ⟨?_, ?_⟩
  · rintro ⟨⟩
    rfl
  · rintro rfl
    exact .stay

theorem walk_succ_iff : Walk next x (n + 1) z ↔ ∃ y, Walk next x n y ∧ next y z := by
  refine ⟨?_, ?_⟩
  · rintro (_ | ⟨hwalk, hnext⟩)
    exact ⟨_, hwalk, hnext⟩
  · rintro ⟨y, hwalk, hnext⟩
    exact .step hwalk hnext

/-- A walk may start with a step as well as end with one. -/
theorem Walk.cons (hstep : next x y) (h : Walk next y n z) : Walk next x (n + 1) z := by
  induction h with
  | stay => exact .step .stay hstep
  | step _ hnext ih => exact .step ih hnext

/-- A walk taken backwards. -/
theorem Walk.back (h : Walk next x n y) : Walk (fun a b => next b a) y n x := by
  induction h with
  | stay => exact .stay
  | step _ hnext ih => exact ih.cons hnext

theorem walk_back_iff : Walk (fun a b => next b a) y n x ↔ Walk next x n y :=
  ⟨fun h => h.back, fun h => h.back⟩

/-! ## Distances -/

theorem distance_back_iff (next : String → String → Prop) :
    Distance (fun a b => next b a) y x n ↔ Distance next x y n := by
  simp only [Distance, walk_back_iff]

theorem Distance.unique (h : Distance next x y n) (h' : Distance next x y k) : n = k :=
  IsLeast.unique h h'

/-- What can be reached is at some distance. -/
theorem Walk.exists_distance (h : Walk next x n y) : ∃ k ≤ n, Distance next x y k := by
  classical
  have hreached : ∃ k, Walk next x k y := ⟨n, h⟩
  refine ⟨Nat.find hreached, Nat.find_min' hreached h, Nat.find_spec hreached, ?_⟩
  intro k hk
  exact Nat.find_min' hreached hk

theorem distance_zero_iff : Distance next x y 0 ↔ y = x := by
  refine ⟨?_, ?_⟩
  · intro h
    exact walk_zero_iff.1 h.1
  · intro h
    exact ⟨walk_zero_iff.2 h, fun k _ => Nat.zero_le k⟩

/-- A walk that one more step makes a shortest walk is a shortest walk itself. -/
theorem Walk.distance (h : Walk next x n y) (hnext : next y z) (hz : Distance next x z (n + 1)) :
    Distance next x y n := by
  refine ⟨h, ?_⟩
  -- a shorter walk to the last id but one would give a shorter walk to the last one
  intro k hk
  have hshort : n + 1 ≤ k + 1 := hz.2 (walk_succ_iff.2 ⟨y, hk, hnext⟩)
  omega

/-- What is at the next distance is one step from what is at this distance, and at no smaller
    one. -/
theorem distance_succ_iff :
    Distance next x z (n + 1) ↔
      (∃ y, Distance next x y n ∧ next y z) ∧ ¬∃ k ≤ n, Distance next x z k := by
  refine ⟨?_, ?_⟩
  · intro hz
    obtain ⟨y, hy, hnext⟩ := walk_succ_iff.1 hz.1
    refine ⟨⟨y, hy.distance hnext hz, hnext⟩, ?_⟩
    rintro ⟨k, hk, hdist⟩
    have hshort : n + 1 ≤ k := hz.2 hdist.1
    omega
  · rintro ⟨⟨y, hy, hnext⟩, hfar⟩
    refine ⟨walk_succ_iff.2 ⟨y, hy.1, hnext⟩, ?_⟩
    intro k hk
    by_contra hlt
    obtain ⟨j, hj, hdist⟩ := Walk.exists_distance hk
    exact hfar ⟨j, by omega, hdist⟩

end Walks

/-! ## Searches -/

/-- A search outward from an id after some hops: it has seen what is within that distance, and its
    level is what lies at that distance. -/
structure Searched (next : String → String → Prop) (origin : String) (n : Nat)
    (seen level : List String) : Prop where
  mem_seen : ∀ id, id ∈ seen ↔ ∃ k ≤ n, Distance next origin id k
  mem_level : ∀ id, id ∈ level ↔ Distance next origin id n

section Searches

variable {next : String → String → Prop} {origin : String}

theorem searched_start (next : String → String → Prop) (origin : String) :
    Searched next origin 0 [origin] [origin] := by
  have hzero : ∀ id, id ∈ [origin] ↔ Distance next origin id 0 := by
    intro id
    rw [List.mem_singleton, distance_zero_iff]
  refine ⟨?_, hzero⟩
  intro id
  rw [hzero]
  refine ⟨?_, ?_⟩
  · intro h
    exact ⟨0, Nat.le_refl 0, h⟩
  · rintro ⟨k, hk, h⟩
    rwa [Nat.le_zero.1 hk] at h

/-- **One more hop.** What is next to the level and was not seen is the next level. -/
theorem Searched.hop {n : Nat} {seen level fresh : List String}
    (h : Searched next origin n seen level)
    (hfresh : ∀ id, id ∈ fresh ↔ (∃ y ∈ level, next y id) ∧ id ∉ seen) :
    Searched next origin (n + 1) (seen ++ fresh) fresh := by
  have hlevel : ∀ id, id ∈ fresh ↔ Distance next origin id (n + 1) := by
    intro id
    rw [hfresh, distance_succ_iff, h.mem_seen]
    simp only [h.mem_level]
  refine ⟨?_, hlevel⟩
  intro id
  rw [List.mem_append, h.mem_seen, hlevel]
  refine ⟨?_, ?_⟩
  · rintro (⟨k, hk, hdist⟩ | hdist)
    · exact ⟨k, by omega, hdist⟩
    · exact ⟨n + 1, Nat.le_refl _, hdist⟩
  · rintro ⟨k, hk, hdist⟩
    rcases Nat.lt_or_eq_of_le hk with hlt | rfl
    · exact .inl ⟨k, by omega, hdist⟩
    · exact .inr hdist

end Searches

end PathTriage.Graph
