import PathTriage.Proofs.Graph.Distance
import PathTriage.Proofs.Order

/-!
The ball around a node: the traversal lists exactly the ids within a distance, by distance and id.

Distance is taken along arrows in either direction. A level of the traversal is all that lies at one
distance, sorted by id, and the levels follow each other by distance; so the whole is sorted by
distance, then by id. `Searched.levels` proves both by induction on the remaining depth. Stopping
early at an empty level makes no difference (`levels_succ`).
-/

namespace PathTriage.Graph

/-- Whether an arrow lies between two ids, in either direction. -/
def Adjacent (g : Graph) (x y : String) : Prop :=
  (⟨x, y⟩ : Arrow) ∈ g.arrows ∨ (⟨y, x⟩ : Arrow) ∈ g.arrows

/-- Nearer ids come first, equally near ones by id. -/
def Nearer (g : Graph) (origin a b : String) : Prop :=
  ∃ i j, Distance g.Adjacent origin a i ∧ Distance g.Adjacent origin b j ∧ (i < j ∨ i = j ∧ a < b)

/-- A list of all ids within some distance of another one, each once, by distance and id. A negative
    distance counts as none. -/
structure IsBall (g : Graph) (origin : String) (depth : Int) (ids : List String) : Prop where
  mem_iff : ∀ id, id ∈ ids ↔ ∃ n : Nat, n ≤ max 0 depth ∧ Distance g.Adjacent origin id n
  nodup : ids.Nodup
  sorted : ids.Pairwise (g.Nearer origin)

section Order

variable {g : Graph} {origin a b : String}

theorem Nearer.asymm (h : g.Nearer origin a b) : ¬g.Nearer origin b a := by
  obtain ⟨i, j, ha, hb, hij⟩ := h
  rintro ⟨j', i', hb', ha', hji⟩
  have hi : i = i' := ha.unique ha'
  have hj : j = j' := hb.unique hb'
  rcases hij with hlt | ⟨heq, hlt⟩
  · rcases hji with hlt' | ⟨heq', -⟩
    · omega
    · omega
  · rcases hji with hlt' | ⟨-, hlt'⟩
    · omega
    · exact lt_asymm hlt hlt'

instance Nearer.instAsymm : Std.Asymm (g.Nearer origin) where
  asymm _ _ h := h.asymm

/-- There is one such list. -/
theorem IsBall.unique {depth : Int} {ids ids' : List String} (h : g.IsBall origin depth ids)
    (h' : g.IsBall origin depth ids') : ids = ids' := by
  apply h.sorted.eq_of_mem_iff h'.sorted
  intro id
  rw [h.mem_iff, h'.mem_iff]

/-- The origin is in it, and nothing comes before it. -/
theorem IsBall.head {depth : Int} {ids : List String} (h : g.IsBall origin depth ids) :
    ids.head? = some origin := by
  have horigin : origin ∈ ids := (h.mem_iff origin).2 ⟨0, by simp, distance_zero_iff.2 rfl⟩
  cases ids with
  | nil => cases horigin
  | cons id rest =>
    rcases List.mem_cons.1 horigin with rfl | hrest
    · rfl
    · -- whatever comes before the origin would be nearer to it than itself
      obtain ⟨i, j, hid, hself, hij⟩ := (List.pairwise_cons.1 h.sorted).1 origin hrest
      have hj : j = 0 := hself.unique (distance_zero_iff.2 rfl)
      rcases hij with hlt | ⟨heq, hlt⟩
      · omega
      · rw [heq, hj, distance_zero_iff] at hid
        exact absurd hlt (hid ▸ lt_irrefl id)

end Order

/-! ## Levels -/

section Levels

variable {g : Graph} {origin : String}

theorem mem_neighbours {x y : String} : y ∈ g.neighbours x ↔ g.Adjacent x y := by
  rw [neighbours, List.mem_append, mem_callers, mem_callees]
  exact or_comm

theorem mem_nextLevel {seen level : List String} {id : String} :
    id ∈ g.nextLevel seen level ↔ (∃ y ∈ level, g.Adjacent y id) ∧ id ∉ seen := by
  rw [nextLevel, Order.mem_sortedSet, List.mem_filter, List.mem_flatMap]
  simp only [mem_neighbours, Bool.not_eq_true', Bool.eq_false_iff, ne_eq, List.contains_iff_mem]

theorem levels_nil (g : Graph) (depth : Nat) (seen : List String) :
    g.levels depth seen [] = [] := by
  cases depth with
  | zero => rfl
  | succ depth =>
    have hnext : g.nextLevel seen [] = [] := by
      rw [List.eq_nil_iff_forall_not_mem]
      intro id hid
      obtain ⟨⟨y, hy, -⟩, -⟩ := mem_nextLevel.1 hid
      cases hy
    rw [levels, hnext]
    rfl

/-- Stopping early when nothing new is found makes no difference. -/
theorem levels_succ (g : Graph) (depth : Nat) (seen level : List String) :
    g.levels (depth + 1) seen level =
      level ++ g.levels depth (seen ++ g.nextLevel seen level) (g.nextLevel seen level) := by
  rw [levels]
  split
  · next hempty =>
    rw [List.isEmpty_iff.1 hempty, levels_nil, List.append_nil]
  · rfl

/-- A level that is sorted by id is sorted by distance and id. -/
theorem Searched.nearer {n : Nat} {seen level : List String}
    (h : Searched g.Adjacent origin n seen level) (hsorted : level.Pairwise (· < ·)) :
    level.Pairwise (g.Nearer origin) := by
  apply hsorted.imp_of_mem
  intro a b ha hb hlt
  exact ⟨n, n, (h.mem_level a).1 ha, (h.mem_level b).1 hb, .inr ⟨rfl, hlt⟩⟩

/-- **All levels.** From one level on, the traversal lists what lies at that distance and farther,
    as far as its depth goes. -/
theorem Searched.levels (depth : Nat) : ∀ {n : Nat} {seen level : List String},
    Searched g.Adjacent origin n seen level → level.Pairwise (· < ·) →
      (∀ id, id ∈ g.levels depth seen level ↔
        ∃ k, n ≤ k ∧ k ≤ n + depth ∧ Distance g.Adjacent origin id k) ∧
      (g.levels depth seen level).Pairwise (g.Nearer origin) := by
  induction depth with
  | zero =>
    intro n seen level h hsorted
    refine ⟨?_, h.nearer hsorted⟩
    intro id
    show id ∈ level ↔ _
    rw [h.mem_level]
    refine ⟨?_, ?_⟩
    · intro hdist
      exact ⟨n, Nat.le_refl n, Nat.le_refl n, hdist⟩
    · rintro ⟨k, hle, hge, hdist⟩
      rwa [Nat.le_antisymm hge hle] at hdist
  | succ depth ih =>
    intro n seen level h hsorted
    obtain ⟨hmem, hrest⟩ := ih (h.hop fun id => mem_nextLevel) (Order.sortedSet_lt _)
    rw [levels_succ]
    refine ⟨?_, ?_⟩
    · intro id
      rw [List.mem_append, h.mem_level, hmem]
      refine ⟨?_, ?_⟩
      · rintro (hdist | ⟨k, hle, hge, hdist⟩)
        · exact ⟨n, Nat.le_refl n, by omega, hdist⟩
        · exact ⟨k, by omega, by omega, hdist⟩
      · rintro ⟨k, hle, hge, hdist⟩
        rcases Nat.lt_or_eq_of_le hle with hlt | rfl
        · exact .inr ⟨k, by omega, by omega, hdist⟩
        · exact .inl hdist
    · rw [List.pairwise_append]
      refine ⟨h.nearer hsorted, hrest, ?_⟩
      -- what comes in a later level is farther away
      intro a ha b hb
      obtain ⟨k, hle, -, hdist⟩ := (hmem b).1 hb
      exact ⟨n, k, (h.mem_level a).1 ha, hdist, .inl (by omega)⟩

end Levels

/-! ## Balls -/

theorem isBall_levels (g : Graph) (origin : String) (depth : Int) :
    g.IsBall origin depth (g.levels (max 0 depth).toNat [origin] [origin]) := by
  obtain ⟨hmem, hsorted⟩ := (searched_start g.Adjacent origin).levels (max 0 depth).toNat
    (List.pairwise_singleton _ origin)
  refine ⟨?_, hsorted.nodup, hsorted⟩
  intro id
  rw [hmem]
  refine ⟨?_, ?_⟩
  · rintro ⟨k, -, hle, hdist⟩
    exact ⟨k, by omega, hdist⟩
  · rintro ⟨k, hle, hdist⟩
    exact ⟨k, Nat.zero_le k, by omega, hdist⟩

theorem ballWithin_ofInt (g : Graph) (origin : String) (depth : Int) :
    g.ballWithin origin (.ofInt depth) =
      .ok (if origin ∈ g.nodes then g.levels (max 0 depth).toNat [origin] [origin] else []) := by
  rw [ballWithin, hopBound_ofInt]
  by_cases horigin : origin ∈ g.nodes
  · rw [if_pos (List.contains_iff_mem.2 horigin), if_pos horigin]
    show Except.ok (g.ball origin (max 0 depth)) = _
    rw [ball, if_pos (List.contains_iff_mem.2 horigin)]
  · rw [if_neg fun h => horigin (List.contains_iff_mem.1 h), if_neg horigin]

/-- **Impact is the ball in both directions.** Around a node the traversal lists the ids at distance
    at most the depth, along arrows in either direction, each once and no other, by distance and
    then by id. There is one such list, and it starts with the node itself. Around what is not a
    node it lists nothing. -/
theorem ballWithin_exact (g : Graph) (origin : String) (depth : Int) :
    ∃! ids, g.IsBall origin depth ids ∧ ids.head? = some origin ∧
      g.ballWithin origin (.ofInt depth) = .ok (if origin ∈ g.nodes then ids else []) := by
  have hball := g.isBall_levels origin depth
  refine ⟨_, ⟨hball, hball.head, ballWithin_ofInt g origin depth⟩, ?_⟩
  rintro ids ⟨hids, -, -⟩
  exact hids.unique hball

end PathTriage.Graph
