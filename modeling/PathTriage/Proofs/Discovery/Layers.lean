import PathTriage.Proofs.Discovery.Evidence

/-!
Forbidden calls between layers: what the signal names and what the score counts.

The signal goes over the calls in the slots of a path and looks their two ends up among its methods
by id, the last one first. The score goes over the methods two by two and compares the depths of
their layers. On a path that a store builds both look at the same hops: a slot holds the stored call
of its hop, and all methods with one id are the stored one (`methodWith?_of_stored`). So the signal
names the first hop that has a forbidden call (`layerViolation?_pathAlong`), and whatever is
forbidden goes up or passes over a layer (`one_le_hopViolations`), which the score counts.
-/

namespace PathTriage

/-! ## The first that is found -/

/-- What is found first is found at the least place. -/
theorem findSome?_eq_some_iff_getElem? {α β : Type} {f : α → Option β} {xs : List α} {y : β} :
    xs.findSome? f = some y ↔
      ∃ (i : Nat) (x : α), xs[i]? = some x ∧ f x = some y ∧
        ∀ j < i, ∀ x', xs[j]? = some x' → f x' = none := by
  rw [List.findSome?_eq_some_iff]
  refine ⟨?_, ?_⟩
  · rintro ⟨before, x, after, rfl, hx, hbefore⟩
    refine ⟨before.length, x, by simp, hx, ?_⟩
    intro j hj x' hx'
    rw [List.getElem?_append_left hj] at hx'
    exact hbefore x' (List.mem_of_getElem? hx')
  · rintro ⟨i, x, hi, hx, hbefore⟩
    obtain ⟨hlt, rfl⟩ := List.getElem?_eq_some_iff.1 hi
    refine ⟨xs.take i, xs[i], xs.drop (i + 1), ?_, hx, ?_⟩
    · rw [← List.drop_eq_getElem_cons hlt, List.take_append_drop]
    · intro x' hx'
      obtain ⟨j, hj⟩ := List.mem_iff_getElem?.1 hx'
      rw [List.getElem?_take] at hj
      split at hj
      · next hji => exact hbefore j hji x' hj
      · cases hj

/-! ## Layers -/

/-- A forbidden call goes up, or passes over a layer. -/
theorem Risk.one_le_hopViolations {hop : Method × Method}
    (h : hop.1.layer.forbidsCall hop.2.layer = true) : 1 ≤ hopViolations hop := by
  unfold hopViolations
  generalize hop.1.layer = caller at h
  generalize hop.2.layer = callee at h
  unfold Layer.forbidsCall at h
  -- one case for each pair of the table
  split at h
  · decide
  · decide
  · decide
  · cases h

theorem Scalar.le_totalCount {n : Nat} {ns : List Nat} (h : n ∈ ns) : n ≤ totalCount ns := by
  induction h with
  | head ns => exact Nat.le_add_right n _
  | tail k _ ih => exact Nat.le_trans ih (Nat.le_add_left _ k)

namespace Store

variable {s : Store}

/-- A forbidden call at a place of a path: the store has the call from the method there to the next
    one, and their layers are a forbidden pair. -/
structure BreachAt (s : Store) (p : CallPath) (i : Nat) (a b : Method) : Prop where
  caller : p.methods[i]? = some a
  callee : p.methods[i + 1]? = some b
  stored : s.hasCall a.id b.id = true
  forbidden : a.layer.forbidsCall b.layer = true

/-! ## The signal -/

/-- The pair of layers of a hop, when the store has its call and the pair is forbidden. -/
def breach? (s : Store) (hop : Method × Method) : Option (Layer × Layer) :=
  if s.hasCall hop.1.id hop.2.id = true ∧ hop.1.layer.forbidsCall hop.2.layer = true then
    some (hop.1.layer, hop.2.layer)
  else none

theorem breach?_eq_some_iff {a b : Method} {pair : Layer × Layer} :
    s.breach? (a, b) = some pair ↔ s.hasCall a.id b.id = true ∧ a.layer.forbidsCall b.layer = true ∧
      pair = (a.layer, b.layer) := by
  rw [breach?]
  split
  · next h =>
    rw [Option.some.injEq]
    exact ⟨fun heq => ⟨h.1, h.2, heq.symm⟩, fun heq => heq.2.2.symm⟩
  · next h =>
    refine ⟨?_, ?_⟩
    · intro heq
      cases heq
    · rintro ⟨hcall, hforbidden, -⟩
      exact absurd ⟨hcall, hforbidden⟩ h

/-- A place has a forbidden call when its hop has one. -/
theorem breachAt_iff {p : CallPath} {i : Nat} {a b : Method} :
    s.BreachAt p i a b ↔ (p.methods.zip p.methods.tail)[i]? = some (a, b) ∧
      s.breach? (a, b) = some (a.layer, b.layer) := by
  rw [getElem?_zip_tail, breach?_eq_some_iff]
  refine ⟨?_, ?_⟩
  · rintro ⟨ha, hb, hcall, hforbidden⟩
    exact ⟨⟨ha, hb⟩, hcall, hforbidden, rfl⟩
  · rintro ⟨⟨ha, hb⟩, hcall, hforbidden, -⟩
    exact ⟨ha, hb, hcall, hforbidden⟩

theorem breach?_eq_none_iff {p : CallPath} {i : Nat} {a b : Method}
    (hhop : (p.methods.zip p.methods.tail)[i]? = some (a, b)) :
    s.breach? (a, b) = none ↔ ¬s.BreachAt p i a b := by
  rw [breachAt_iff, not_and, Option.eq_none_iff_forall_ne_some]
  refine ⟨?_, ?_⟩
  · intro hnone _
    exact hnone _
  · intro hnot pair hpair
    obtain ⟨-, -, rfl⟩ := breach?_eq_some_iff.1 hpair
    exact hnot hhop hpair

section Stored

variable {methods : List Method} (hstored : ∀ m ∈ methods, s.method? m.id = some m)

include hstored

/-- Among stored methods an id tells which method it is of, however often it stands there. -/
theorem methodWith?_of_stored {a : Method} (ha : a ∈ methods) :
    Signal.methodWith? methods a.id = some a := by
  have hsome : (Signal.methodWith? methods a.id).isSome = true := by
    rw [Signal.methodWith?, List.find?_isSome]
    exact ⟨a, List.mem_reverse.2 ha, beq_self_eq_true a.id⟩
  obtain ⟨m, hm⟩ := Option.isSome_iff_exists.1 hsome
  have hid : (m.id == a.id) = true :=
    List.find?_some (p := fun m : Method => m.id == a.id) hm
  have hmem : m ∈ methods := List.mem_reverse.1 (List.mem_of_find?_eq_some hm)
  -- both are stored under the same id
  have hsame : some m = some a := by rw [← hstored m hmem, beq_iff_eq.1 hid, hstored a ha]
  rw [hm, hsame]

/-- The signal finds a hop's own two methods by the ends of its stored call. -/
theorem Integral.bind_forbiddenPair? (hs : s.Integral) {a b : Method} (ha : a ∈ methods)
    (hb : b ∈ methods) :
    (s.call? a.id b.id).bind (Signal.forbiddenPair? methods) = s.breach? (a, b) := by
  cases hc : s.call? a.id b.id with
  | none =>
    have hnot : ¬s.hasCall a.id b.id = true := by
      rw [hasCall_iff, hc]
      rintro ⟨c, hsome⟩
      cases hsome
    rw [breach?, if_neg fun h => hnot h.1]
    rfl
  | some c =>
    obtain ⟨hcaller, hcallee⟩ := hs.ends_of_call? hc
    rw [Option.bind_some, Signal.forbiddenPair?, hcaller, hcallee, methodWith?_of_stored hstored ha,
      methodWith?_of_stored hstored hb]
    simp [breach?, hasCall_iff.2 ⟨c, hc⟩]

end Stored

/-- On a path along stored methods the signal names the first hop with a forbidden call. -/
theorem Integral.layerViolation?_pathAlong (hs : s.Integral) (name : String) (ids : List String) :
    Signal.layerViolation? (s.pathAlong name ids) =
      ((s.pathAlong name ids).methods.zip (s.pathAlong name ids).methods.tail).findSome?
        s.breach? := by
  have hslots : (s.pathAlong name ids).slots =
      ((s.pathAlong name ids).methods.zip (s.pathAlong name ids).methods.tail).map
        fun hop => s.call? hop.1.id hop.2.id := rfl
  rw [Signal.layerViolation?, CallPath.presentCalls, ← List.head?_filterMap, ← List.head?_filterMap,
    hslots, List.filterMap_map, List.filterMap_filterMap]
  -- both sides are the first of what the hops give, so hop by hop will do
  congr 1
  apply List.filterMap_congr
  rintro ⟨a, b⟩ hhop
  obtain ⟨ha, hb⟩ := List.of_mem_zip hhop
  exact hs.bind_forbiddenPair? (fun m hm => hs.stored_of_mem_pathAlong name hm) ha
    (List.mem_of_mem_tail hb)

/-! ## Paths that a store builds -/

/-- A path that a store builds: over methods that it was asked for, or in a search. -/
def Builds (s : Store) (p : CallPath) : Prop :=
  (∃ name ids, s.buildPath? name ids = some p) ∨ s.Finds p

theorem Builds.exists_pathAlong (hs : s.Integral) {p : CallPath} (h : s.Builds p) :
    ∃ name ids, p = s.pathAlong name ids := by
  rcases h with ⟨name, ids, hp⟩ | hp
  · exact ⟨name, ids, (buildPath?_eq_some_iff.1 hp).2.2⟩
  · obtain ⟨name, ids, -, rfl⟩ := hp.exists_traced hs
    exact ⟨name, ids, rfl⟩

section Builds

variable (hs : s.Integral) {p : CallPath} (h : s.Builds p)

include hs h

theorem Builds.layerViolation?_eq_some_iff {pair : Layer × Layer} :
    Signal.layerViolation? p = some pair ↔
      ∃ i a b, s.BreachAt p i a b ∧ (∀ j < i, ∀ a' b', ¬s.BreachAt p j a' b') ∧
        pair = (a.layer, b.layer) := by
  obtain ⟨name, ids, rfl⟩ := h.exists_pathAlong hs
  rw [hs.layerViolation?_pathAlong, findSome?_eq_some_iff_getElem?]
  refine ⟨?_, ?_⟩
  · rintro ⟨i, ⟨a, b⟩, hhop, hbreach, hbefore⟩
    obtain ⟨-, -, rfl⟩ := breach?_eq_some_iff.1 hbreach
    refine ⟨i, a, b, breachAt_iff.2 ⟨hhop, hbreach⟩, ?_, rfl⟩
    intro j hj a' b' hat
    have hhop' := (breachAt_iff.1 hat).1
    exact (breach?_eq_none_iff hhop').1 (hbefore j hj _ hhop') hat
  · rintro ⟨i, a, b, hat, hbefore, rfl⟩
    obtain ⟨hhop, hbreach⟩ := breachAt_iff.1 hat
    refine ⟨i, (a, b), hhop, hbreach, ?_⟩
    rintro j hj ⟨a', b'⟩ hhop'
    exact (breach?_eq_none_iff hhop').2 (hbefore j hj a' b')

theorem Builds.layerViolation?_eq_none_iff :
    Signal.layerViolation? p = none ↔ ∀ i a b, ¬s.BreachAt p i a b := by
  obtain ⟨name, ids, rfl⟩ := h.exists_pathAlong hs
  rw [hs.layerViolation?_pathAlong, List.findSome?_eq_none_iff]
  refine ⟨?_, ?_⟩
  · intro hnone i a b hat
    have hhop := (breachAt_iff.1 hat).1
    exact (breach?_eq_none_iff hhop).1 (hnone _ (List.mem_of_getElem? hhop)) hat
  · rintro hnone ⟨a, b⟩ hmem
    obtain ⟨i, hhop⟩ := List.mem_iff_getElem?.1 hmem
    exact (breach?_eq_none_iff hhop).2 (hnone i a b)

end Builds

/-! ## The score -/

namespace BreachAt

variable {p : CallPath} {i : Nat} {a b : Method} (h : s.BreachAt p i a b)

include h

/-- The score counts the hop of a forbidden call. -/
theorem one_le_violations : 1 ≤ Risk.violations p.methods := by
  have hhop : (a, b) ∈ p.methods.zip p.methods.tail :=
    List.mem_of_getElem? (breachAt_iff.1 h).1
  have hone : 1 ≤ Risk.hopViolations (a, b) := Risk.one_le_hopViolations h.forbidden
  exact Nat.le_trans hone (Scalar.le_totalCount (List.mem_map.2 ⟨(a, b), hhop, rfl⟩))

theorem crossLayer_pos {K : Type} [Field K] [LinearOrder K] [IsStrictOrderedRing K] [Decades K] :
    0 < (Risk.crossLayer p.methods : Id K).run := by
  obtain ⟨hlength, -⟩ := List.getElem?_eq_some_iff.1 h.callee
  rw [Risk.crossLayer, if_neg (by omega : ¬p.methods.length ≤ 1), Scalar.run_capped,
    Scalar.run_quotient]
  have hviolations : (0 : K) < Risk.violations p.methods := Nat.cast_pos.2 h.one_le_violations
  have hhops : (0 : K) < (p.methods.length - 1 : Nat) := Nat.cast_pos.2 (by omega)
  exact lt_min zero_lt_one (div_pos hviolations hhops)

end BreachAt

/-- **The signal and the score agree on layers.** On every path that a store in use builds, over any
    known methods or in a search, the signal has the label of the first place where the store has a
    call between a forbidden pair of layers, and none when there is no such place. Whenever it has
    one, the score counts a violation on the path. -/
theorem layerViolation_agrees {s : Store} (h : s.Reachable) {p : CallPath} (hp : s.Builds p)
    (K : Type) [Field K] [LinearOrder K] [IsStrictOrderedRing K] [Decades K] :
    (∀ label, (Signal.layerViolation? p).map Signal.pairLabel = some label ↔
      ∃ i a b, s.BreachAt p i a b ∧ (∀ j < i, ∀ a' b', ¬s.BreachAt p j a' b') ∧
        label = Named.name a.layer ++ "->" ++ Named.name b.layer) ∧
    (Signal.layerViolation? p = none ↔ ∀ i a b, ¬s.BreachAt p i a b) ∧
    (Signal.layerViolation? p ≠ none →
      1 ≤ Risk.violations p.methods ∧ 0 < (Risk.crossLayer p.methods : Id K).run) := by
  have hs := h.integral
  refine ⟨?_, hp.layerViolation?_eq_none_iff hs, ?_⟩
  · intro label
    rw [Option.map_eq_some_iff]
    refine ⟨?_, ?_⟩
    · rintro ⟨pair, hpair, rfl⟩
      obtain ⟨i, a, b, hat, hbefore, rfl⟩ := (hp.layerViolation?_eq_some_iff hs).1 hpair
      exact ⟨i, a, b, hat, hbefore, rfl⟩
    · rintro ⟨i, a, b, hat, hbefore, rfl⟩
      exact ⟨_, (hp.layerViolation?_eq_some_iff hs).2 ⟨i, a, b, hat, hbefore, rfl⟩, rfl⟩
  · intro hsome
    obtain ⟨pair, hpair⟩ := Option.ne_none_iff_exists'.1 hsome
    obtain ⟨i, a, b, hat, -, -⟩ := (hp.layerViolation?_eq_some_iff hs).1 hpair
    exact ⟨hat.one_le_violations, hat.crossLayer_pos⟩

/-- A controller that calls the repository past its service, and a repository that calls the
    service. -/
def shortcut : Store :=
  .after
    [.putMethod { id := "c", name := "c", layer := .controller },
     .putMethod { id := "s", name := "s", layer := .service },
     .putMethod { id := "r", name := "r", layer := .repository },
     .addCall { caller := "c", callee := "s" },
     .addCall { caller := "c", callee := "r" },
     .addCall { caller := "r", callee := "s" }]

theorem layerViolation_agrees_shortcut :
    shortcut.Reachable ∧
    ∃ p, shortcut.buildPath? "asked" ["c", "s", "c", "r", "s"] = some p ∧ shortcut.Builds p ∧
      (Signal.layerViolation? p).map Signal.pairLabel = some "CONTROLLER->REPOSITORY" ∧
      (∃ i a b, shortcut.BreachAt p i a b) ∧ 1 ≤ Risk.violations p.methods := by
  have hr : shortcut.Reachable := reachable_after _
  have hp : shortcut.buildPath? "asked" ["c", "s", "c", "r", "s"] =
      some (shortcut.pathAlong "asked" ["c", "s", "c", "r", "s"]) :=
    buildPath?_eq_some_iff.2 ⟨by decide, by decide +kernel, rfl⟩
  have hbuilds : shortcut.Builds (shortcut.pathAlong "asked" ["c", "s", "c", "r", "s"]) :=
    .inl ⟨_, _, hp⟩
  have hlabel : (Signal.layerViolation? (shortcut.pathAlong "asked" ["c", "s", "c", "r", "s"])).map
      Signal.pairLabel = some "CONTROLLER->REPOSITORY" := by
    with_unfolding_all rfl
  obtain ⟨hfirst, -, hcounted⟩ := layerViolation_agrees hr hbuilds ℝ
  obtain ⟨i, a, b, hat, -, -⟩ := (hfirst _).1 hlabel
  refine ⟨hr, _, hp, hbuilds, hlabel, ⟨i, a, b, hat⟩, (hcounted ?_).1⟩
  intro hnone
  rw [hnone] at hlabel
  cases hlabel

end Store
end PathTriage
