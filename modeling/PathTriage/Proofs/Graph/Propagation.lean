import PathTriage.Proofs.Graph.Distance
import PathTriage.Proofs.Graph.History
import PathTriage.Proofs.Order
import PathTriage.Proofs.Score.Exact

/-!
Propagated risk: each caller has the risk of its distance, whichever callee it was reached through.

The traversal takes the value of a caller from the node of the level that it met first. That makes
no difference, since all nodes of a level hold one value, and so do the callers that are met next.
What is found and at which hop has nothing to do with the arithmetic: `discovered` is the search
without its values, and propagation is the search with the values put in (`propagate_eq`). It is
`Searched` hop by hop, so an id is discovered at its distance (`reaching_discovered`).
-/

namespace PathTriage.Graph

/-! ## Computations that go straight on -/

section Straight

variable {m : Type → Type} [Monad m]

/-- A computation after which nothing else is done. -/
def Stops {β : Type} (x : m β) : Prop := ∀ (γ : Type) (k k' : β → m γ), (x >>= k) = (x >>= k')

/-- Every computation gives a value or is the last one. -/
def Straight (m : Type → Type) [Monad m] : Prop :=
  ∀ (β : Type) (x : m β), (∃ b, x = pure b) ∨ Stops x

theorem straight_id : Straight Id := fun _ x => .inl ⟨x, rfl⟩

theorem straight_except (ε : Type) : Straight (Except ε) := by
  intro β x
  cases x with
  | ok b => exact .inl ⟨b, rfl⟩
  | error cause => exact .inr fun _ _ _ => rfl

variable [LawfulMonad m] {α : Type}

/-- What is done with ids that one computation gives their values can only tell values apart: the
    keys are the ids. -/
theorem bind_mapM_congr_keys {γ : Type} (value : m α) {k k' : List (String × α) → m γ}
    (ids : List String) :
    (∀ entries : List (String × α), entries.map (·.1) = ids → k entries = k' entries) →
      ((ids.mapM fun c => do pure (c, ← value)) >>= k) =
        ((ids.mapM fun c => do pure (c, ← value)) >>= k') := by
  induction ids generalizing k k' with
  | nil =>
    intro hk
    rw [List.mapM_nil, pure_bind, pure_bind]
    exact hk [] rfl
  | cons c ids ih =>
    intro hk
    simp only [List.mapM_cons, bind_assoc, pure_bind]
    congr 1
    funext v
    exact ih fun entries hkeys => hk ((c, v) :: entries) (by rw [List.map_cons, hkeys])

/-- In a computation that goes straight on, all the ids get one value. -/
theorem bind_mapM_congr_value (hm : Straight m) {γ : Type} (value : m α)
    {k k' : List (String × α) → m γ} {ids : List String} (hnil : ids = [] → k [] = k' [])
    (hk : ∀ v, value = pure v → k (ids.map (·, v)) = k' (ids.map (·, v))) :
    ((ids.mapM fun c => do pure (c, ← value)) >>= k) =
      ((ids.mapM fun c => do pure (c, ← value)) >>= k') := by
  rcases hm α value with ⟨v, hv⟩ | hstops
  · simp only [hv, pure_bind, List.mapM_pure]
    exact hk v hv
  · cases ids with
    | nil =>
      rw [List.mapM_nil, pure_bind, pure_bind]
      exact hnil rfl
    | cons c ids =>
      simp only [List.mapM_cons, bind_assoc]
      exact hstops γ _ _

end Straight

/-! ## The search without its values -/

/-- The callers of a level that have not been seen, in the order in which they are met. -/
def freshCallers (g : Graph) : (seen level : List String) → List String
  | _, [] => []
  | seen, id :: rest =>
    let fresh := (Order.sorted (g.callers id)).filter fun c => !seen.contains c
    fresh ++ freshCallers g (seen ++ fresh) rest

/-- What a search among callers meets in some further hops, with the number of the hop. -/
def discovered (g : Graph) : (depth hop : Nat) → (seen level : List String) → List (String × Nat)
  | 0, _, _, _ => []
  | depth + 1, hop, seen, level =>
    let fresh := g.freshCallers seen level
    fresh.map (·, hop) ++ discovered g depth (hop + 1) (seen ++ fresh) fresh

/-- Whether a node calls another. -/
def Calls (g : Graph) (x y : String) : Prop := (⟨x, y⟩ : Arrow) ∈ g.arrows

/-- A list of all ids that reach a node along at most some number of calls, each once and with the
    least number of calls, nearer ones first. -/
structure Reaching (g : Graph) (origin : String) (depth : Int) (entries : List (String × Nat)) :
    Prop where
  mem_iff : ∀ id h, (id, h) ∈ entries ↔ h ≤ max 0 depth ∧ Distance g.Calls id origin h
  nodup : (entries.map (·.1)).Nodup
  sorted : entries.Pairwise fun a b => a.2 ≤ b.2

section Search

variable {g : Graph}

/-- The callers of one node that have not been seen. -/
theorem mem_unseen {seen : List String} {id y : String} :
    id ∈ (Order.sorted (g.callers y)).filter (fun c => !seen.contains c) ↔
      g.Calls id y ∧ id ∉ seen := by
  rw [List.mem_filter, Order.mem_sorted, mem_callers]
  simp [Calls]

theorem mem_freshCallers {level : List String} {id : String} : ∀ {seen : List String},
    id ∈ g.freshCallers seen level ↔ (∃ y ∈ level, g.Calls id y) ∧ id ∉ seen := by
  induction level with
  | nil =>
    intro seen
    simp [freshCallers]
  | cons y rest ih =>
    intro seen
    rw [freshCallers, List.mem_append, ih, List.mem_append, mem_unseen]
    simp only [List.mem_cons, exists_eq_or_imp]
    tauto

theorem nodup_freshCallers (g : Graph) (level : List String) :
    ∀ seen : List String, (g.freshCallers seen level).Nodup := by
  induction level with
  | nil =>
    intro seen
    exact List.nodup_nil
  | cons y rest ih =>
    intro seen
    rw [freshCallers, List.nodup_append]
    have hcallers : (Order.sorted (g.callers y)).Nodup :=
      (Order.sorted_perm _).nodup_iff.2 (g.nodup_callers y)
    refine ⟨hcallers.filter _, ih _, ?_⟩
    -- what the rest of the level adds has not been seen, and that includes what came just before
    rintro a ha b hb rfl
    exact (mem_freshCallers.1 hb).2 (List.mem_append_right _ ha)

theorem discovered_nil (g : Graph) (depth : Nat) :
    ∀ (hop : Nat) (seen : List String), g.discovered depth hop seen [] = [] := by
  induction depth with
  | zero =>
    intro hop seen
    rfl
  | succ depth ih =>
    intro hop seen
    rw [Graph.discovered, freshCallers, List.map_nil, List.nil_append, ih]

/-- A search among callers goes along calls backwards. -/
def CalledBy (g : Graph) (x y : String) : Prop := g.Calls y x

theorem distance_calledBy_iff {x y : String} {n : Nat} :
    Distance g.CalledBy x y n ↔ Distance g.Calls y x n :=
  distance_back_iff g.Calls

/-- The ids of a level with the number of its hop. -/
theorem Searched.mem_map_level {next : String → String → Prop} {origin : String} {n : Nat}
    {seen level : List String} (hs : Searched next origin n seen level) {id : String} {h : Nat} :
    (id, h) ∈ level.map (·, n) ↔ h = n ∧ Distance next origin id h := by
  rw [List.mem_map]
  refine ⟨?_, ?_⟩
  · rintro ⟨x, hx, heq⟩
    obtain ⟨rfl, rfl⟩ := Prod.mk.inj heq
    exact ⟨rfl, (hs.mem_level x).1 hx⟩
  · rintro ⟨rfl, hdist⟩
    exact ⟨id, (hs.mem_level id).2 hdist, rfl⟩

theorem map_fst_map {β : Type} (ids : List String) (b : β) : (ids.map (·, b)).map (·.1) = ids := by
  rw [List.map_map]
  exact List.map_id' ids

/-- **The search by levels.** From one level on, the search discovers what is farther away, at its
    distance, as far as its depth goes. -/
theorem Searched.discovered {origin : String} (depth : Nat) :
    ∀ {n : Nat} {seen level : List String},
    Searched g.CalledBy origin n seen level →
      (∀ id h, (id, h) ∈ g.discovered depth (n + 1) seen level ↔
        n < h ∧ h ≤ n + depth ∧ Distance g.CalledBy origin id h) ∧
      ((g.discovered depth (n + 1) seen level).map (·.1)).Nodup ∧
      (g.discovered depth (n + 1) seen level).Pairwise fun a b => a.2 ≤ b.2 := by
  induction depth with
  | zero =>
    intro n seen level _
    refine ⟨?_, List.nodup_nil, .nil⟩
    intro id h
    refine ⟨fun hmem => absurd hmem List.not_mem_nil, ?_⟩
    rintro ⟨hlt, hle, -⟩
    omega
  | succ depth ih =>
    intro n seen level hs
    have hhop : Searched g.CalledBy origin (n + 1) (seen ++ g.freshCallers seen level)
        (g.freshCallers seen level) := hs.hop fun id => mem_freshCallers
    obtain ⟨hmem, hnodup, hsorted⟩ := ih hhop
    rw [Graph.discovered]
    refine ⟨?_, ?_, ?_⟩
    · intro id h
      rw [List.mem_append, hhop.mem_map_level, hmem]
      refine ⟨?_, ?_⟩
      · rintro (⟨rfl, hdist⟩ | ⟨hlt, hle, hdist⟩)
        · exact ⟨by omega, by omega, hdist⟩
        · exact ⟨by omega, by omega, hdist⟩
      · rintro ⟨hlt, hle, hdist⟩
        rcases Nat.lt_or_eq_of_le hlt with hlater | heq
        · exact .inr ⟨hlater, by omega, hdist⟩
        · exact .inl ⟨heq.symm, hdist⟩
    · rw [List.map_append, map_fst_map, List.nodup_append]
      refine ⟨g.nodup_freshCallers level seen, hnodup, ?_⟩
      -- an id is at one distance only, so it is not discovered again at a later hop
      rintro a ha b hb rfl
      obtain ⟨⟨id, h⟩, hentry, rfl⟩ := List.mem_map.1 hb
      obtain ⟨hlt, -, hdist⟩ := (hmem id h).1 hentry
      have hsame : n + 1 = h := ((hhop.mem_level id).1 ha).unique hdist
      omega
    · rw [List.pairwise_append, List.pairwise_map]
      refine ⟨List.pairwise_of_forall fun _ _ => Nat.le_refl (n + 1), hsorted, ?_⟩
      rintro ⟨id, h⟩ ha ⟨id', h'⟩ hb
      obtain ⟨rfl, -⟩ := hhop.mem_map_level.1 ha
      exact Nat.le_of_lt ((hmem id' h').1 hb).1

/-- The origin and what a search from it discovers are the ids that reach it. -/
theorem reaching_discovered (g : Graph) (origin : String) (depth : Int) :
    g.Reaching origin depth
      ((origin, 0) :: g.discovered (max 0 depth).toNat 1 [origin] [origin]) := by
  obtain ⟨hmem, hnodup, hsorted⟩ :=
    (searched_start g.CalledBy origin).discovered (max 0 depth).toNat
  refine ⟨?_, ?_, ?_⟩
  · intro id h
    rw [List.mem_cons, hmem, Prod.mk.injEq, ← distance_calledBy_iff]
    refine ⟨?_, ?_⟩
    · rintro (⟨rfl, rfl⟩ | ⟨-, hle, hdist⟩)
      · exact ⟨by simp, distance_zero_iff.2 rfl⟩
      · exact ⟨by omega, hdist⟩
    · rintro ⟨hle, hdist⟩
      rcases Nat.eq_zero_or_pos h with rfl | hpos
      · exact .inl ⟨distance_zero_iff.1 hdist, rfl⟩
      · exact .inr ⟨hpos, by omega, hdist⟩
  · rw [List.map_cons, List.nodup_cons]
    refine ⟨?_, hnodup⟩
    -- the origin is at distance zero, and everything discovered is farther
    intro horigin
    obtain ⟨⟨id, h⟩, hentry, rfl⟩ := List.mem_map.1 horigin
    obtain ⟨hlt, -, hdist⟩ := (hmem id h).1 hentry
    have hzero : h = 0 := hdist.unique (distance_zero_iff.2 rfl)
    omega
  · rw [List.pairwise_cons]
    exact ⟨fun _ _ => Nat.zero_le _, hsorted⟩

end Search

/-! ## The values -/

section Values

variable {m : Type → Type} [Monad m] {α : Type} [Scalar m α]

/-- The risk that is left of a risk after some hops. -/
def riskAt (risk decay : α) : Nat → m α
  | 0 => pure risk
  | h + 1 => do Scalar.mul (← riskAt risk decay h) (← Scalar.pow decay (h + 1))

/-- An id with the risk that is left after some hops. -/
def entryAt (risk decay : α) (entry : String × Nat) : m (String × α) := do
  pure (entry.1, ← riskAt risk decay entry.2)

theorem hasEntry_eq {β : Type} (entries : List (String × β)) (id : String) :
    hasEntry entries id = (entries.map (·.1)).contains id := by
  rw [hasEntry, List.contains_eq_any_beq, List.any_map]
  congr 1
  funext e
  exact BEq.comm

/-- The callers of one node that have no entry yet. -/
theorem fresh_eq {β : Type} (found next : List (String × β)) (callers : List String) :
    (callers.filter fun c => !hasEntry found c && !hasEntry next c) =
      callers.filter fun c => !(found.map (·.1) ++ next.map (·.1)).contains c := by
  apply List.filter_congr
  intro c _
  rw [hasEntry_eq, hasEntry_eq, List.contains_append, Bool.not_or]

variable [LawfulMonad m] (g : Graph) {risk decay r : α} {hop : Nat}

/-- A level that holds one value gives all its new callers the value of the next hop. -/
theorem callerEntries_eq (found : List (String × α)) (ids : List String) :
    ∀ next : List (String × α),
      g.callerEntries decay hop found next (ids.map (·, r)) = (do
        let entries ← (g.freshCallers (found.map (·.1) ++ next.map (·.1)) ids).mapM fun c => do
          pure (c, ← decayed r decay hop)
        pure (next ++ entries) : m _) := by
  induction ids with
  | nil =>
    intro next
    rw [List.map_nil, callerEntries, freshCallers, List.mapM_nil, pure_bind, List.append_nil]
  | cons id rest ih =>
    intro next
    rw [List.map_cons, callerEntries, freshCallers, List.mapM_append]
    simp only [fresh_eq, bind_assoc, pure_bind]
    apply bind_mapM_congr_keys
    intro entries hkeys
    rw [ih, List.map_append, hkeys, List.append_assoc]
    simp only [List.append_assoc]

theorem spread_nil (depth hop : Nat) (found : List (String × α)) :
    g.spread decay depth hop found [] = pure found := by
  cases depth with
  | zero => rfl
  | succ depth =>
    rw [spread, callerEntries, pure_bind]
    rfl

/-- Stopping early when nothing new is found makes no difference. -/
theorem spread_succ (depth hop : Nat) (found level : List (String × α)) :
    g.spread decay (depth + 1) hop found level = (do
      let next ← g.callerEntries decay hop found [] level
      g.spread decay depth (hop + 1) (found ++ next) next) := by
  rw [spread]
  congr 1
  funext next
  split
  · next hempty => rw [List.isEmpty_iff.1 hempty, List.append_nil, spread_nil]
  · rfl

/-- **Propagation is the search with its values.** From a level that holds one value on, the
    traversal adds what the search discovers, each with the risk of its hop. -/
theorem spread_eq (hm : Straight m) (depth : Nat) :
    ∀ {hop : Nat} {r : α} (found : List (String × α)) (ids : List String),
      riskAt risk decay hop = pure r →
        g.spread decay depth (hop + 1) found (ids.map (·, r)) = (do
          let later ← (g.discovered depth (hop + 1) (found.map (·.1)) ids).mapM
            (entryAt risk decay)
          pure (found ++ later)) := by
  induction depth with
  | zero =>
    intro hop r found ids _
    rw [spread, Graph.discovered, List.mapM_nil, pure_bind, List.append_nil]
  | succ depth ih =>
    intro hop r found ids hr
    -- the value of the next level is the same for all of its members
    have hnext : decayed r decay (hop + 1) = (riskAt risk decay (hop + 1) : m α) := by
      rw [riskAt, hr, pure_bind]
      rfl
    rw [spread_succ, callerEntries_eq, Graph.discovered, List.mapM_append, List.mapM_map, hnext]
    simp only [List.map_nil, List.append_nil, List.nil_append, bind_assoc, pure_bind]
    apply bind_mapM_congr_value hm (riskAt risk decay (hop + 1))
    · intro hnone
      rw [hnone, List.append_nil, List.append_nil, spread_nil, discovered_nil, List.mapM_nil,
        pure_bind, List.nil_append, List.append_nil]
    · intro v hv
      rw [ih _ _ hv, List.map_append, map_fst_map]
      simp only [List.append_assoc]

/-- What propagation from a node gives: all that the search discovers, with the risk of its hop. -/
theorem propagate_eq (hm : Straight m) {origin : String} (horigin : origin ∈ g.nodes)
    (risk decay : α)
    (depth : Int) :
    g.propagate origin risk depth decay =
      (((origin, 0) :: g.discovered depth.toNat 1 [origin] [origin]).mapM (entryAt risk decay) :
        m _) := by
  rw [propagate, if_pos (List.contains_iff_mem.2 horigin)]
  rw [List.mapM_cons, entryAt, riskAt, pure_bind, pure_bind]
  exact g.spread_eq hm depth.toNat [(origin, risk)] [origin] rfl

/-- Ids whose hops have their values. -/
theorem mapM_entryAt {f : Nat → α} (hf : ∀ h, riskAt risk decay h = (pure (f h) : m α))
    (entries : List (String × Nat)) :
    entries.mapM (entryAt risk decay) = (pure (entries.map fun e => (e.1, f e.2)) : m _) := by
  have hentry : entryAt risk decay = fun e => (pure (e.1, f e.2) : m _) := by
    funext e
    rw [entryAt, hf, pure_bind]
  rw [hentry, List.mapM_pure]

theorem half_mul_succ (h : Nat) : (h + 1) * (h + 1 + 1) / 2 = h * (h + 1) / 2 + (h + 1) := by
  have hsum : (h + 1) * (h + 1 + 1) = h * (h + 1) + 2 * (h + 1) := by ring
  rw [hsum, Nat.add_mul_div_left _ _ (by decide)]

/-- Where products and powers are computed exactly, the risk after `h` hops is the first one times a
    power of the decay, whose exponent is the sum of the hops up to `h`. -/
theorem riskAt_closed {R : Type} [CommMonoid R] (ι : R → α)
    (hmul : ∀ a b, Scalar.mul (ι a) (ι b) = (pure (ι (a * b)) : m α))
    (hpow : ∀ a n, Scalar.pow (ι a) n = (pure (ι (a ^ n)) : m α)) (risk decay : R) (h : Nat) :
    riskAt (ι risk) (ι decay) h = (pure (ι (risk * decay ^ (h * (h + 1) / 2))) : m α) := by
  induction h with
  | zero => rw [riskAt, Nat.zero_mul, Nat.zero_div, pow_zero, mul_one]
  | succ h ih =>
    rw [riskAt, ih, pure_bind, hpow, pure_bind, hmul, mul_assoc, ← pow_add, half_mul_succ]

end Values

/-! ## Exact values -/

/-- Integers stay integers. -/
theorem riskAt_ofInt (risk decay : Int) (h : Nat) :
    riskAt (.ofInt risk) (.ofInt decay) h =
      (pure (.ofInt (risk * decay ^ (h * (h + 1) / 2))) : Except Failure Json) :=
  riskAt_closed Json.ofInt (fun _ _ => rfl) (fun _ _ => rfl) risk decay h

theorem riskAt_exact {K : Type} [Field K] [LinearOrder K] [Decades K] (risk decay : K) (h : Nat) :
    riskAt risk decay h = (pure (risk * decay ^ (h * (h + 1) / 2)) : Id K) :=
  riskAt_closed id (fun _ _ => rfl) (fun _ _ => rfl) risk decay h

/-- A positive risk gets smaller with every hop. -/
theorem strictAnti_risk {K : Type} [Field K] [LinearOrder K] [IsStrictOrderedRing K]
    {risk decay : K} (hrisk : 0 < risk) (hpos : 0 < decay) (hlt : decay < 1) :
    StrictAnti fun h : Nat => risk * decay ^ (h * (h + 1) / 2) := by
  apply strictAnti_nat_of_succ_lt
  intro h
  apply mul_lt_mul_of_pos_left _ hrisk
  apply pow_lt_pow_right_of_lt_one₀ hpos hlt
  rw [half_mul_succ]
  omega

theorem propagateWithin_ofInt {g : Graph} {origin : String} (horigin : origin ∈ g.nodes)
    (risk decay : Json) (depth : Int) :
    g.propagateWithin origin risk (.ofInt depth) decay =
      ((origin, 0) :: g.discovered (max 0 depth).toNat 1 [origin] [origin]).mapM
        (entryAt risk decay) := by
  rw [propagateWithin, if_pos (List.contains_iff_mem.2 horigin), countBound_ofInt]
  exact g.propagate_eq (straight_except Failure) horigin risk decay (max 0 depth)

/-- **Propagated risk is a function of the distance.** From a node, propagation lists exactly the
    ids that reach it in as many calls as the depth allows, each once. All values at distance `h`
    are the result of one computation, which starts with the risk of the node and multiplies by the
    power `k` of the decay for the `k`-th hop; if that fails for some distance, so does the
    propagation. On integers it does not fail, and there as in every ordered field the value at
    distance `h` is the first risk times the power `h * (h + 1) / 2` of the decay. With a decay
    between zero and one, positive risk falls with every hop. -/
theorem propagateWithin_by_distance (g : Graph) {origin : String} (horigin : origin ∈ g.nodes)
    (depth : Int) :
    ∃ entries, g.Reaching origin depth entries ∧
      (∀ risk decay : Json, g.propagateWithin origin risk (.ofInt depth) decay =
        entries.mapM (entryAt risk decay)) ∧
      (∀ risk decay : Int,
        g.propagateWithin origin (.ofInt risk) (.ofInt depth) (.ofInt decay) =
          .ok (entries.map fun e => (e.1, .ofInt (risk * decay ^ (e.2 * (e.2 + 1) / 2))))) ∧
      ∀ (K : Type) [Field K] [LinearOrder K] [IsStrictOrderedRing K] [Decades K] (risk decay : K),
        g.propagate origin risk depth decay =
          (pure (entries.map fun e => (e.1, risk * decay ^ (e.2 * (e.2 + 1) / 2))) : Id _) ∧
        (0 < risk → 0 < decay → decay < 1 →
          StrictAnti fun h : Nat => risk * decay ^ (h * (h + 1) / 2)) := by
  refine ⟨_, g.reaching_discovered origin depth, ?_, ?_, ?_⟩
  · intro risk decay
    exact propagateWithin_ofInt horigin risk decay depth
  · intro risk decay
    rw [propagateWithin_ofInt horigin, mapM_entryAt (riskAt_ofInt risk decay)]
    rfl
  · intro K _ _ _ _ risk decay
    refine ⟨?_, strictAnti_risk⟩
    have hdepth : depth.toNat = (max 0 depth).toNat := by omega
    rw [g.propagate_eq straight_id horigin, mapM_entryAt (riskAt_exact risk decay), hdepth]

/-- Two ways lead from `a` to `d`, and the value of `a` is the one for two hops. -/
theorem propagateWithin_by_distance_diamond :
    "d" ∈ (ofInsertions diamond).nodes ∧ (0 : ℝ) < 1 / 2 ∧ (1 / 2 : ℝ) < 1 ∧
    (ofInsertions diamond).propagateWithin "d" (.ofInt 3) (.ofInt 5) (.ofInt 2) =
      .ok [("d", .ofInt 3), ("b", .ofInt 6), ("c", .ofInt 6), ("a", .ofInt 24)] ∧
    ∃ entries, (ofInsertions diamond).Reaching "d" 5 entries ∧
      (ofInsertions diamond).propagateWithin "d" (.ofInt 3) (.ofInt 5) (.ofInt 2) =
        .ok (entries.map fun e => (e.1, .ofInt (3 * 2 ^ (e.2 * (e.2 + 1) / 2)))) ∧
      (ofInsertions diamond).propagate "d" (1 : ℝ) 5 (1 / 2) =
        (pure (entries.map fun e => (e.1, 1 * (1 / 2) ^ (e.2 * (e.2 + 1) / 2))) : Id _) ∧
      StrictAnti fun h : Nat => (1 : ℝ) * (1 / 2) ^ (h * (h + 1) / 2) := by
  have horigin : "d" ∈ (ofInsertions diamond).nodes := by decide
  obtain ⟨entries, hreaching, -, hintegers, hexact⟩ :=
    propagateWithin_by_distance (ofInsertions diamond) horigin 5
  obtain ⟨hvalues, hfalls⟩ := hexact ℝ 1 (1 / 2)
  have hpos : (0 : ℝ) < 1 / 2 := by norm_num
  have hlt : (1 / 2 : ℝ) < 1 := by norm_num
  refine ⟨horigin, hpos, hlt, ?_, entries, hreaching, hintegers 3 2, hvalues, ?_⟩
  · cbv
  · exact hfalls one_pos hpos hlt

end PathTriage.Graph
