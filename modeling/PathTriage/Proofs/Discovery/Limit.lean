import PathTriage.Proofs.Discovery

/-!
How many candidate paths there are, whatever limit was given.

Discovery looks at the limit in two places. Each listing is cut off at it, and the search ends when
as many routes were taken in. The second look comes after a route was taken in, and a method that no
listing reaches is looked at alone, limit or not. So a positive limit is kept (`collect_within`,
`collectTargets_within`), and one that leaves room for nothing lets one path through: the first
changed method alone (`candidates_of_not_pos`).
-/

namespace PathTriage.Discovery

/-- What was found is within a limit, and leaves room unless the limit was reached. -/
structure Found.Within (limit : Int) (found : Found) : Prop where
  le : (found.routes.length : Int) ≤ limit
  room : found.isFull = false → (found.routes.length : Int) < limit

section Limit

variable {s : Store} {depth : Json} {limit : Int}

/-- With room for a route, one listing is taken in up to the limit. -/
theorem collect_within {rest : List (List String)} : ∀ {found : List (List String)} {out : Found},
    (found.length : Int) < limit → collect (.ofInt limit) found rest = .ok out →
      out.Within limit := by
  induction rest with
  | nil =>
    intro found out hroom hout
    cases hout
    exact ⟨Int.le_of_lt hroom, fun _ => hroom⟩
  | cons route rest ih =>
    intro found out hroom hout
    rw [collect] at hout
    split at hout
    · exact ih hroom hout
    · -- there was room for this route; now the limit is looked at
      dsimp only at hout
      rw [Json.holds_atLeast_ofInt] at hout
      by_cases hfull : limit ≤ (found ++ [route]).length
      · rw [decide_eq_true hfull] at hout
        cases hout
        refine ⟨?_, ?_⟩
        · show ((found ++ [route]).length : Int) ≤ limit
          rw [List.length_append, List.length_singleton]
          omega
        · intro hopen
          cases hopen
      · rw [decide_eq_false hfull] at hout
        exact ih (by omega) hout

/-- From target to target the limit is kept. -/
theorem collectTargets_within {targets : List String} :
    ∀ {found : List (List String)} {out : Found}, (found.length : Int) < limit →
      collectTargets s depth (.ofInt limit) found targets = .ok out → out.Within limit := by
  induction targets with
  | nil =>
    intro found out hroom hout
    cases hout
    exact ⟨Int.le_of_lt hroom, fun _ => hroom⟩
  | cons target rest ih =>
    intro found out hroom hout
    rw [collectTargets] at hout
    obtain ⟨routes, -, hout⟩ := Outcome.bind_eq_ok.1 hout
    obtain ⟨next, hnext, hout⟩ := Outcome.bind_eq_ok.1 hout
    have hwithin := collect_within hroom hnext
    split at hout
    · cases hout
      exact hwithin
    · next hopen => exact ih (hwithin.room (by simpa using hopen)) hout

/-- Without room for a route, the first changed method that is stored is the one candidate. -/
theorem candidates_of_not_pos (s : Store) (depth : Json) (hlimit : limit ≤ 0)
    (changed : List String) :
    ∃ events, candidates s changed depth (.ofInt limit) =
      .ok (pathsOver s (((targets s changed).map fun target => [target]).take 1), events) := by
  obtain ⟨isFull, hfound⟩ := candidateRoutes_of_not_pos (s := s) depth hlimit changed
  exact candidates_eq hfound

/-- The first target is the least of the changed methods that are stored. -/
theorem targets_eq_cons {changed : List String} {first : String}
    (h : IsLeast {id | id ∈ changed ∧ s.hasMethod id = true} first) :
    ∃ rest, targets s changed = first :: rest := by
  have htargets := targets_ascending s changed
  have hfirst : first ∈ targets s changed := (htargets.mem_iff first).2 h.1
  cases hlist : targets s changed with
  | nil =>
    rw [hlist] at hfirst
    cases hfirst
  | cons target rest =>
    rw [hlist] at hfirst
    refine ⟨rest, ?_⟩
    rcases List.mem_cons.1 hfirst with rfl | hrest
    · rfl
    · -- whatever comes before the least one would be less
      have hsorted := htargets.sorted
      rw [hlist, List.pairwise_cons] at hsorted
      have htarget : target ∈ targets s changed := hlist ▸ List.mem_cons_self
      have hle : first ≤ target := h.2 ((htargets.mem_iff target).1 htarget)
      exact absurd (hsorted.1 first hrest) (not_lt.2 hle)

end Limit

/-- **Discovery keeps a positive limit.** In every store that can be reached, whatever the depth,
    there are never more candidates than the limit allows, or one if that is more. They are within
    the limit itself exactly when it is positive or no changed method is stored. A limit that leaves
    room for nothing lets the least of the stored changed methods through, alone on its path. With a
    depth that is a number there is always a result. -/
theorem candidates_within_limit {s : Store} (h : s.Reachable) (changed : List String) (depth : Json)
    (limit : Int) :
    (∀ paths events, candidates s changed depth (.ofInt limit) = .ok (paths, events) →
      (paths.length : Int) ≤ max 1 limit ∧
      ((paths.length : Int) ≤ max 0 limit ↔
        1 ≤ limit ∨ ∀ id ∈ changed, s.hasMethod id = false)) ∧
    (limit ≤ 0 → ∀ first, IsLeast {id | id ∈ changed ∧ s.hasMethod id = true} first →
      ∃ path events, candidates s changed depth (.ofInt limit) = .ok ([path], events) ∧
        path.methodIds = [first]) ∧
    (∀ n, depth.number? = some n →
      ∃ paths events, candidates s changed depth (.ofInt limit) = .ok (paths, events)) := by
  refine ⟨?_, ?_, ?_⟩
  · intro paths events hpaths
    by_cases hlimit : 1 ≤ limit
    · obtain ⟨found, hfound, rfl⟩ := exists_candidateRoutes hpaths
      have hle := (collectTargets_within (by rw [List.length_nil]; omega) hfound).le
      rw [length_pathsOver]
      exact ⟨by omega, ⟨fun _ => .inl hlimit, fun _ => by omega⟩⟩
    -- the first target alone is taken before the limit is looked at
    · obtain ⟨events', heq⟩ := candidates_of_not_pos s depth (by omega : limit ≤ 0) changed
      rw [heq] at hpaths
      cases hpaths
      rw [length_pathsOver, List.length_take, List.length_map, ← targets_eq_nil,
        ← List.length_eq_zero_iff]
      omega
  · intro hlimit first hfirst
    obtain ⟨events, heq⟩ := candidates_of_not_pos s depth hlimit changed
    obtain ⟨rest, htargets⟩ := targets_eq_cons hfirst
    rw [htargets] at heq
    refine ⟨_, events, heq, ?_⟩
    exact methodIds_pathAlong h.integral _ (passable_alone hfirst.1.2).stored
  · intro n hn
    obtain ⟨routes, events, hpaths, -⟩ := exists_candidates h.valid hn limit changed
    exact ⟨_, events, hpaths⟩

theorem candidates_within_limit_roundTrip :
    roundTrip.Reachable ∧
    IsLeast {id | id ∈ ["d", "c", "e"] ∧ roundTrip.hasMethod id = true} "c" ∧
    (∃ paths events,
      candidates roundTrip ["d", "c", "e"] (.ofInt 3) (.ofInt 2) = .ok (paths, events) ∧
      (paths.length : Int) ≤ max 0 2) ∧
    ∃ path events,
      candidates roundTrip ["d", "c", "e"] (.ofInt 3) (.ofInt (-4)) = .ok ([path], events) ∧
      path.methodIds = ["c"] := by
  have hr : roundTrip.Reachable := Store.reachable_after _
  have hleast : IsLeast {id | id ∈ ["d", "c", "e"] ∧ roundTrip.hasMethod id = true} "c" := by
    refine ⟨⟨by decide, by decide +kernel⟩, ?_⟩
    rintro id ⟨hid, hstored⟩
    simp only [List.mem_cons, List.not_mem_nil, or_false] at hid
    rcases hid with rfl | rfl | rfl
    · decide
    · decide
    · decide
  obtain ⟨hwithin, -, hresult⟩ := candidates_within_limit hr ["d", "c", "e"] (.ofInt 3) 2
  obtain ⟨paths, events, hpaths⟩ := hresult (.int 3) rfl
  obtain ⟨-, hnone, -⟩ := candidates_within_limit hr ["d", "c", "e"] (.ofInt 3) (-4)
  exact ⟨hr, hleast,
    ⟨paths, events, hpaths, ((hwithin paths events hpaths).2.2 (.inl (by decide)))⟩,
    hnone (by decide) "c" hleast⟩

/-- A store with one method that nothing calls. -/
def lone : Store := .after [.putMethod { id := "a", name := "a" }]

/-- A limit of no paths lets one through. -/
theorem lone_exceeds_limit :
    lone.Reachable ∧ ∃ paths events,
      candidates lone ["a"] (.ofInt 5) (.ofInt 0) = .ok (paths, events) ∧
        paths.map (·.methodIds) = [["a"]] ∧ ¬(paths.length : Int) ≤ max 0 0 := by
  have hr : lone.Reachable := Store.reachable_after _
  have hstored : lone.hasMethod "a" = true := by decide +kernel
  have htargets : targets lone ["a"] = ["a"] := by
    refine (targets_ascending lone ["a"]).unique ⟨List.pairwise_singleton _ _, ?_⟩
    intro id
    rw [List.mem_singleton]
    exact ⟨fun hid => ⟨hid, hid ▸ hstored⟩, fun hid => hid.1⟩
  obtain ⟨events, heq⟩ := candidates_of_not_pos lone (.ofInt 5) (le_refl 0) ["a"]
  rw [htargets] at heq
  refine ⟨hr, _, events, heq, ?_, by decide⟩
  show [(lone.pathAlong _ ["a"]).methodIds] = [["a"]]
  rw [methodIds_pathAlong hr.integral _ (passable_alone hstored).stored]

end PathTriage.Discovery
