import PathTriage.Discovery
import PathTriage.Proofs.Graph.Routes
import PathTriage.Proofs.Store.Degrees
import PathTriage.Proofs.Store.Lookup

/-!
Discovery of candidate paths: a change asks for the routes from all entry points to its methods.

`survey` is the whole list of these routes, one listing after the other. Discovery asks for no more
than `limit` routes of each listing, takes in routes that it does not have yet, and stops at the
limit. It comes to the first routes of the survey, for two reasons: cutting every part of a list off
at the limit leaves the part up to the limit as it is (`take_flatMap_congr`), and the first and the
last node of a route tell which listing it is from, so none is met twice (`survey_nodup`).
-/

namespace PathTriage

/-! ## Ids in order -/

/-- The ids that have a property, in ascending order. -/
structure Ascending (P : String → Prop) (ids : List String) : Prop where
  sorted : ids.Pairwise (· < ·)
  mem_iff : ∀ id, id ∈ ids ↔ P id

namespace Ascending

variable {P : String → Prop} {ids ids' : List String}

theorem nodup (h : Ascending P ids) : ids.Nodup := h.sorted.nodup

/-- Ids in ascending order are known by which they are. -/
theorem unique (h : Ascending P ids) (h' : Ascending P ids') : ids = ids' := by
  refine h.sorted.eq_of_mem_iff h'.sorted ?_
  intro id
  rw [h.mem_iff, h'.mem_iff]

/-- Leaving some out keeps the order of the rest. -/
theorem filter (h : Ascending P ids) (p : String → Bool) :
    Ascending (fun id => P id ∧ p id = true) (ids.filter p) where
  sorted := h.sorted.filter p
  mem_iff id := by rw [List.mem_filter, h.mem_iff]

end Ascending

/-- The sorted set of some texts has each of them once, in ascending order. -/
theorem Order.sortedSet_ascending (texts : List String) :
    Ascending (· ∈ texts) (Order.sortedSet texts) where
  sorted := sortedSet_lt texts
  mem_iff _ := mem_sortedSet

/-! ## Entry points -/

namespace Store

variable {s : Store}

/-- A stored method where calls come in: a controller, or one that no stored call is of. -/
def IsEntry (s : Store) (id : String) : Prop :=
  ∃ m, s.method? id = some m ∧ (m.layer = .controller ∨ ∀ a ∈ s.calls, a.target ≠ id)

/-- Methods are listed in the order of their ids. -/
theorem Integral.methodIds (h : s.Integral) : s.methodList.map (·.id) = s.methods.keys := by
  rw [methodList, Table.values_eq, List.map_map, ← Std.ExtTreeMap.map_fst_toList_eq_keys]
  refine List.map_congr_left ?_
  rintro ⟨id, m⟩ he
  rw [Std.ExtTreeMap.mem_toList_iff_getElem?_eq_some] at he
  exact h.method_id id m he

theorem Integral.mem_methodList (h : s.Integral) {m : Method} :
    m ∈ s.methodList ↔ s.method? m.id = some m := by
  rw [methodList, Table.values_eq, List.mem_map]
  constructor
  · rintro ⟨⟨id, m'⟩, he, rfl⟩
    rw [Std.ExtTreeMap.mem_toList_iff_getElem?_eq_some] at he
    rw [h.method_id id m' he]
    exact he
  · intro hm
    exact ⟨(m.id, m), Std.ExtTreeMap.mem_toList_iff_getElem?_eq_some.2 hm, rfl⟩

/-- A degree that is kept right tells whether a method is called. -/
theorem Valid.inDegree_isZero (h : s.Valid) {id : String} {m : Method}
    (hm : s.method? id = some m) : m.inDegree.isZero = true ↔ ∀ a ∈ s.calls, a.target ≠ id := by
  have hid := h.integral.method_id id m hm
  have hdegree : m.inDegree = .ofInt (s.callerCount id) := by
    rw [← h.counted id m hm, ← hid]
    rfl
  have hzero : m.inDegree.isZero = true ↔ s.callerCount id = 0 := by
    rw [hdegree]
    change ((s.callerCount id : Int) == 0) = true ↔ _
    rw [beq_iff_eq]
    omega
  rw [hzero, callerCount, List.countP_eq_zero]
  simp only [Std.ExtTreeMap.mem_keys, beq_iff_eq, ne_eq]

/-- Entry points are listed by id, each once. -/
theorem Valid.entryPoints_ascending (h : s.Valid) :
    Ascending s.IsEntry (s.entryPoints.map (·.id)) where
  sorted := by
    have hkeys : (s.methodList.map (·.id)).Pairwise (· < ·) := by
      rw [h.integral.methodIds]
      refine Std.ExtTreeMap.ordered_keys.imp ?_
      intro a b hab
      exact compare_lt_iff_lt.1 hab
    exact hkeys.sublist (List.filter_sublist.map _)
  mem_iff := by
    intro id
    have hiff : ∀ m, s.method? id = some m →
        ((m.layer == .controller || m.inDegree.isZero) = true ↔
          m.layer = .controller ∨ ∀ a ∈ s.calls, a.target ≠ id) := by
      intro m hm
      rw [Bool.or_eq_true, beq_iff_eq, h.inDegree_isZero hm]
    simp only [entryPoints, List.mem_map, List.mem_filter, h.integral.mem_methodList]
    constructor
    · rintro ⟨m, ⟨hm, hentry⟩, rfl⟩
      exact ⟨m, hm, (hiff m hm).1 hentry⟩
    · rintro ⟨m, hm, hentry⟩
      have hid := h.integral.method_id id m hm
      exact ⟨m, ⟨hid ▸ hm, (hiff m hm).2 hentry⟩, hid⟩

theorem mem_entryIds (h : s.Valid) {id : String} (hid : id ∈ s.entryPoints.map (·.id)) :
    id ∈ s.graph.nodes := by
  obtain ⟨m, hm, -⟩ := (h.entryPoints_ascending.mem_iff id).1 hid
  rw [h.integral.node_iff, hasMethod_iff]
  exact ⟨m, hm⟩

end Store

namespace Discovery

/-! ## The survey of a change -/

/-- The routes to a method from some entry points, one listing after the other; the method alone
    when there are none. -/
def routesInto (listing : String → String → List (List String)) (entries : List String)
    (target : String) : List (List String) :=
  let found := entries.flatMap fun entry =>
    if entry = target then [[target]] else listing entry target
  if found = [] then [[target]] else found

/-- All routes that a change asks for: those to each of its stored methods, by id, from each entry
    point, by id, in the order of their listing. -/
def IsSurvey (s : Store) (changed : List String) (depth : Int) (all : List (List String)) : Prop :=
  ∃ targets entries listing,
    Ascending (fun id => id ∈ changed ∧ s.hasMethod id = true) targets ∧
    Ascending s.IsEntry entries ∧
    (∀ source target, s.graph.Listing source target depth (listing source target)) ∧
    all = targets.flatMap (routesInto listing entries)

/-- There is one survey of a change: its entry points, its targets and its routes each come in one
    order. -/
theorem IsSurvey.unique {s : Store} {changed : List String} {depth : Int}
    {all all' : List (List String)}
    (h : IsSurvey s changed depth all) (h' : IsSurvey s changed depth all') : all = all' := by
  obtain ⟨targets, entries, listing, htargets, hentries, hlisting, rfl⟩ := h
  obtain ⟨targets', entries', listing', htargets', hentries', hlisting', rfl⟩ := h'
  have hsame : listing = listing' := by
    funext source target
    exact (hlisting source target).unique (hlisting' source target)
  rw [htargets.unique htargets', hentries.unique hentries', hsame]

/-- The survey as discovery goes through it. -/
def survey (s : Store) (changed : List String) (hops : Int) : List (List String) :=
  (targets s changed).flatMap
    (routesInto (fun source target => s.graph.allRoutes source target hops)
      (s.entryPoints.map (·.id)))

/-- The targets of a change are the changed methods that are stored, by id. -/
theorem targets_ascending (s : Store) (changed : List String) :
    Ascending (fun id => id ∈ changed ∧ s.hasMethod id = true) (targets s changed) :=
  (Order.sortedSet_ascending changed).filter s.hasMethod

theorem routesInto_congr {listing listing' : String → String → List (List String)}
    {entries : List String} {target : String}
    (h : ∀ entry ∈ entries, entry ≠ target → listing entry target = listing' entry target) :
    routesInto listing entries target = routesInto listing' entries target := by
  have hfound : (entries.flatMap fun entry =>
        if entry = target then [[target]] else listing entry target) =
      entries.flatMap fun entry =>
        if entry = target then [[target]] else listing' entry target := by
    refine List.flatMap_congr ?_
    intro entry hentry
    split
    · rfl
    · next hne => exact h entry hentry hne
  rw [routesInto, routesInto, hfound]

/-- The survey that is computed is one. -/
theorem survey_spec {s : Store} (h : s.Valid) (changed : List String) (depth : Int) :
    IsSurvey s changed depth (survey s changed depth) := by
  -- a listing from a node to itself is of no account
  refine ⟨_, _,
    fun source target =>
      if source = target then (if 0 ≤ depth then [[target]] else [])
      else s.graph.allRoutes source target depth,
    targets_ascending s changed, h.entryPoints_ascending, ?_, ?_⟩
  · intro source target
    by_cases hne : source = target
    · subst hne
      simpa using s.graph.self_listing source depth
    · simpa only [if_neg hne] using s.graph.allRoutes_listing hne depth
  · refine List.flatMap_congr ?_
    intro target _
    refine routesInto_congr ?_
    intro entry _ hne
    rw [if_neg hne]

/-! ## No route is met twice -/

/-- Routes that are listed by their two ends. -/
structure ByEnds (listing : String → String → List (List String)) : Prop where
  nodup : ∀ {source target}, source ≠ target → (listing source target).Nodup
  head : ∀ {source target route}, source ≠ target → route ∈ listing source target →
    route.head? = some source
  last : ∀ {source target route}, source ≠ target → route ∈ listing source target →
    route.getLast? = some target

/-- A route has its source at one end and its target at the other, and is listed once. -/
theorem allRoutes_byEnds (g : Graph) (hops : Int) :
    ByEnds fun source target => g.allRoutes source target hops where
  nodup hne := (g.allRoutes_listing hne hops).nodup
  head hne hroute := (((g.allRoutes_listing hne hops).mem_iff _).1 hroute).head
  last hne hroute := (((g.allRoutes_listing hne hops).mem_iff _).1 hroute).last

theorem ByEnds.take {listing : String → String → List (List String)} (h : ByEnds listing)
    (n : Nat) :
    ByEnds fun source target => (listing source target).take n where
  nodup hne := (h.nodup hne).sublist (List.take_sublist n _)
  head hne hroute := h.head hne (List.mem_of_mem_take hroute)
  last hne hroute := h.last hne (List.mem_of_mem_take hroute)

section ByEnds

variable {listing : String → String → List (List String)} {entries : List String}

/-- A target is reached from an entry point, or stands for itself. -/
theorem mem_routesInto {target : String} {route : List String}
    (hroute : route ∈ routesInto listing entries target) :
    route = [target] ∨ ∃ entry ∈ entries, entry ≠ target ∧ route ∈ listing entry target := by
  unfold routesInto at hroute
  dsimp only at hroute
  split at hroute
  · exact .inl (List.mem_singleton.1 hroute)
  · obtain ⟨entry, hentry, hroute⟩ := List.mem_flatMap.1 hroute
    split at hroute
    · exact .inl (List.mem_singleton.1 hroute)
    · next hne => exact .inr ⟨entry, hentry, hne, hroute⟩

/-- No target is without a route. -/
theorem routesInto_ne_nil (listing : String → String → List (List String)) (entries : List String)
    (target : String) : routesInto listing entries target ≠ [] := by
  unfold routesInto
  dsimp only
  split
  · exact List.cons_ne_nil _ _
  · next hne => exact hne

variable (h : ByEnds listing)

include h

/-- Routes into different targets end differently. -/
theorem getLast?_of_mem_routesInto {target : String} {route : List String}
    (hroute : route ∈ routesInto listing entries target) : route.getLast? = some target := by
  rcases mem_routesInto hroute with rfl | ⟨entry, -, hne, hroute⟩
  · rfl
  · exact h.last hne hroute

/-- Routes from different entry points begin differently, so none is met twice. -/
theorem routesInto_nodup (hentries : entries.Nodup) (target : String) :
    (routesInto listing entries target).Nodup := by
  -- the routes from one entry point start there
  have hhead : ∀ {entry : String} {route : List String},
      route ∈ (if entry = target then [[target]] else listing entry target) →
        route.head? = some entry := by
    intro entry route hroute
    split at hroute
    · next heq =>
      rw [List.mem_singleton.1 hroute, heq]
      rfl
    · next hne => exact h.head hne hroute
  unfold routesInto
  dsimp only
  split
  · exact List.nodup_singleton _
  · rw [List.nodup_flatMap]
    constructor
    · intro entry _
      split
      · exact List.nodup_singleton _
      · next hne => exact h.nodup hne
    · refine hentries.pairwise_of_forall_ne ?_
      intro entry _ entry' _ hne route hroute hroute'
      have heq := (hhead hroute).symm.trans (hhead hroute')
      exact hne (Option.some.inj heq)

/-- Neither is one met again at another target. -/
theorem flatMap_routesInto_nodup (hentries : entries.Nodup) {targets : List String}
    (htargets : targets.Nodup) : (targets.flatMap (routesInto listing entries)).Nodup := by
  rw [List.nodup_flatMap]
  constructor
  · intro target _
    exact routesInto_nodup h hentries target
  · -- the routes to one target end there
    refine htargets.pairwise_of_forall_ne ?_
    intro target _ target' _ hne route hroute hroute'
    have heq := (getLast?_of_mem_routesInto h hroute).symm.trans
      (getLast?_of_mem_routesInto h hroute')
    exact hne (Option.some.inj heq)

end ByEnds

theorem survey_nodup {s : Store} (h : s.Valid) (changed : List String) (hops : Int) :
    (survey s changed hops).Nodup :=
  flatMap_routesInto_nodup (allRoutes_byEnds s.graph hops) h.entryPoints_ascending.nodup
    (targets_ascending s changed).nodup

/-! ## Cutting off at a limit -/

section Cut

variable {α β : Type}

/-- Parts that agree up to a limit make wholes that agree up to it. -/
theorem take_flatMap_congr {f g : α → List β} {n : Nat} (xs : List α)
    (h : ∀ x ∈ xs, (f x).take n = (g x).take n) :
    (xs.flatMap f).take n = (xs.flatMap g).take n := by
  induction xs with
  | nil => rfl
  | cons x xs ih =>
    have hx := h x List.mem_cons_self
    have hrest := ih fun y hy => h y (List.mem_cons_of_mem x hy)
    -- what the first part leaves room for is the same on both sides
    have hroom : n - (f x).length = n - (g x).length := by
      have hlength := congrArg List.length hx
      rw [List.length_take, List.length_take] at hlength
      omega
    have hcut : ∀ k, k ≤ n → (xs.flatMap f).take k = (xs.flatMap g).take k := by
      intro k hk
      have htake := congrArg (List.take k) hrest
      rwa [List.take_take, List.take_take, min_eq_left hk] at htake
    rw [List.flatMap_cons, List.flatMap_cons, List.take_append, List.take_append, hx, hroom]
    rw [hcut _ (Nat.sub_le n _)]

end Cut

/-- Cutting off each listing at the limit changes nothing in what is found up to the limit. -/
theorem take_routesInto {limit : Nat} (hlimit : 1 ≤ limit)
    (listing : String → String → List (List String)) (entries : List String) (target : String) :
    (routesInto (fun a b => (listing a b).take limit) entries target).take limit =
      (routesInto listing entries target).take limit := by
  have hfound : (entries.flatMap fun entry =>
        if entry = target then [[target]] else (listing entry target).take limit).take limit =
      (entries.flatMap fun entry =>
        if entry = target then [[target]] else listing entry target).take limit := by
    refine take_flatMap_congr entries ?_
    intro entry _
    split
    · rfl
    · rw [List.take_take, min_self]
  unfold routesInto
  dsimp only
  -- with room for one route, nothing is left of a list only when there was nothing
  by_cases hnone : (entries.flatMap fun entry =>
      if entry = target then [[target]] else listing entry target) = []
  · rw [hnone, List.take_nil, List.take_eq_nil_iff] at hfound
    rw [if_pos hnone, if_pos (hfound.resolve_left (by omega))]
  · have hsome : (entries.flatMap fun entry =>
        if entry = target then [[target]] else (listing entry target).take limit) ≠ [] := by
      intro hnil
      rw [hnil, List.take_nil, eq_comm, List.take_eq_nil_iff] at hfound
      exact hnone (hfound.resolve_left (by omega))
    rw [if_neg hnone, if_neg hsome, hfound]

/-! ## The search -/

section Search

variable {s : Store} {depth : Json} {limit : Int}

/-- The routes from all entry points, one after the other. -/
theorem routesFrom_eq {target : String} {limit : Json} {f : String → List (List String)}
    {entries : List Method}
    (h : ∀ entry ∈ entries, s.graph.routesWithin entry.id target depth limit = .ok (f entry.id)) :
    routesFrom s target depth limit entries = .ok ((entries.map (·.id)).flatMap f) := by
  induction entries with
  | nil => rfl
  | cons entry rest ih =>
    rw [routesFrom, h entry List.mem_cons_self,
      ih fun entry' hentry => h entry' (List.mem_cons_of_mem entry hentry)]
    rfl

/-- The routes to a stored method, each listing cut off at the limit. -/
theorem routesTo_eq (hs : s.Valid) {n : Number} (hn : depth.number? = some n) (hlimit : 1 ≤ limit)
    {target : String} (htarget : s.hasMethod target = true) :
    routesTo s target depth (.ofInt limit) =
      .ok (routesInto
        (fun a b => (s.graph.allRoutes a b (s.graph.admitted n)).take limit.toNat)
        (s.entryPoints.map (·.id)) target) := by
  have hroutes : ∀ entry ∈ s.entryPoints,
      s.graph.routesWithin entry.id target depth (.ofInt limit) =
        .ok (if entry.id = target then [[target]]
          else (s.graph.allRoutes entry.id target (s.graph.admitted n)).take limit.toNat) := by
    intro entry hentry
    have hsource := Store.mem_entryIds hs (List.mem_map.2 ⟨entry, hentry, rfl⟩)
    have hin : ¬(entry.id ∉ s.graph.nodes ∨ target ∉ s.graph.nodes ∨ limit ≤ 0) := by
      rintro (hout | hout | hout)
      · exact hout hsource
      · exact hout ((hs.integral.node_iff target).2 htarget)
      · omega
    rw [s.graph.routesWithin_of_number entry.id target hn, Graph.firstRoutes, if_neg hin]
    split
    · next heq => rw [heq]
    · rfl
  rw [routesTo, routesFrom_eq
    (f := fun entry => if entry = target then [[target]]
      else (s.graph.allRoutes entry target (s.graph.admitted n)).take limit.toNat) hroutes]
  simp only [routesInto, ← List.isEmpty_iff]
  rfl

/-- Distinct routes are taken in up to the limit. -/
theorem collect_eq {found rest : List (List String)} (hnodup : (found ++ rest).Nodup)
    (hroom : (found.length : Int) < limit) :
    collect (.ofInt limit) found rest =
      .ok { routes := (found ++ rest).take limit.toNat
            isFull := decide (limit ≤ (found ++ rest).length) } := by
  induction rest generalizing found with
  | nil =>
    rw [collect, List.append_nil, List.take_of_length_le (by omega),
      decide_eq_false (by omega : ¬limit ≤ found.length)]
  | cons route rest ih =>
    -- the routes are distinct, so this one was not met before
    have hnew : found.contains route = false := by
      rw [Bool.eq_false_iff, ne_eq, List.contains_iff_mem]
      intro hmem
      exact (List.nodup_append.1 hnodup).2.2 route hmem route List.mem_cons_self rfl
    have happend : found ++ route :: rest = (found ++ [route]) ++ rest := by
      rw [List.append_assoc, List.singleton_append]
    rw [collect, hnew, if_neg Bool.false_ne_true]
    dsimp only
    rw [Json.holds_atLeast_ofInt]
    by_cases hfull : limit ≤ (found ++ [route]).length
    · -- the route takes the last place
      have hlength : (found ++ [route]).length = limit.toNat := by
        rw [List.length_append, List.length_singleton] at hfull ⊢
        omega
      have hall : limit ≤ (found ++ route :: rest).length := by
        rw [happend, List.length_append]
        omega
      rw [decide_eq_true hfull, decide_eq_true hall, happend, List.take_append_of_le_length
        hlength.symm.le, ← hlength, List.take_length]
      rfl
    · rw [decide_eq_false hfull, happend]
      exact ih (happend ▸ hnodup) (by omega)

/-- From target to target the first routes of the whole are taken in. -/
theorem collectTargets_eq {into : String → List (List String)} {targets : List String}
    (hroutes : ∀ target ∈ targets, routesTo s target depth (.ofInt limit) = .ok (into target))
    {found : List (List String)} (hnodup : (found ++ targets.flatMap into).Nodup)
    (hroom : (found.length : Int) < limit) :
    collectTargets s depth (.ofInt limit) found targets =
      .ok { routes := (found ++ targets.flatMap into).take limit.toNat
            isFull := decide (limit ≤ (found ++ targets.flatMap into).length) } := by
  induction targets generalizing found with
  | nil =>
    rw [collectTargets, List.flatMap_nil, List.append_nil, List.take_of_length_le (by omega),
      decide_eq_false (by omega : ¬limit ≤ found.length)]
  | cons target rest ih =>
    have happend : found ++ (target :: rest).flatMap into =
        (found ++ into target) ++ rest.flatMap into := by
      rw [List.flatMap_cons, List.append_assoc]
    rw [happend] at hnodup ⊢
    rw [collectTargets, hroutes target List.mem_cons_self]
    simp only [bind, Except.bind]
    rw [collect_eq hnodup.of_append_left hroom]
    by_cases hfull : limit ≤ (found ++ into target).length
    · -- the search ends with this target
      have hall : limit ≤ ((found ++ into target) ++ rest.flatMap into).length := by
        rw [List.length_append]
        omega
      have hcut : ((found ++ into target) ++ rest.flatMap into).take limit.toNat =
          (found ++ into target).take limit.toNat := List.take_append_of_le_length (by omega)
      rw [hcut, decide_eq_true hfull, decide_eq_true hall]
      rfl
    · rw [List.take_of_length_le (by omega), decide_eq_false hfull]
      have hroom : ((found ++ into target).length : Int) < limit := by omega
      exact ih (fun target' ht => hroutes target' (List.mem_cons_of_mem target ht)) hnodup hroom

/-- With room for a route, discovery comes to the first routes of the survey. -/
theorem candidateRoutes_eq (hs : s.Valid) {n : Number} (hn : depth.number? = some n)
    (hlimit : 1 ≤ limit) (changed : List String) :
    ∃ isFull, candidateRoutes s changed depth (.ofInt limit) =
      .ok ⟨(survey s changed (s.graph.admitted n)).take limit.toNat, isFull⟩ := by
  have hends := (allRoutes_byEnds s.graph (s.graph.admitted n)).take limit.toNat
  have htargets := targets_ascending s changed
  have hnodup := flatMap_routesInto_nodup hends hs.entryPoints_ascending.nodup htargets.nodup
  have hsearch : collectTargets s depth (.ofInt limit) [] (targets s changed) = _ :=
    collectTargets_eq (fun target ht => routesTo_eq hs hn hlimit ((htargets.mem_iff target).1 ht).2)
      hnodup (by rw [List.length_nil]; omega)
  have hcut := take_flatMap_congr (targets s changed) fun target _ =>
    take_routesInto (by omega : 1 ≤ limit.toNat)
      (fun a b => s.graph.allRoutes a b (s.graph.admitted n)) (s.entryPoints.map (·.id)) target
  rw [List.nil_append, hcut] at hsearch
  exact ⟨_, hsearch⟩

/-- Without room for a route there is still one candidate, the first target alone. -/
theorem candidateRoutes_of_not_pos (depth : Json) (hlimit : limit ≤ 0) (changed : List String) :
    ∃ isFull, candidateRoutes s changed depth (.ofInt limit) =
      .ok ⟨((targets s changed).map fun target => [target]).take 1, isFull⟩ := by
  have hroutes : ∀ target, routesTo s target depth (.ofInt limit) = .ok [[target]] := by
    intro target
    have hfrom : routesFrom s target depth (.ofInt limit) s.entryPoints =
        .ok ((s.entryPoints.map (·.id)).flatMap fun _ => []) := by
      refine routesFrom_eq ?_
      intro entry _
      exact s.graph.routesWithin_of_not_pos entry.id target depth hlimit
    rw [routesTo, hfrom, List.flatMap_eq_nil_iff.2 fun _ _ => rfl]
    rfl
  cases htargets : targets s changed with
  | nil =>
    rw [candidateRoutes, htargets]
    exact ⟨false, rfl⟩
  | cons target rest =>
    -- the limit is looked at only after a route was taken in
    have hcollect : collect (.ofInt limit) [] [[target]] = .ok ⟨[[target]], true⟩ := by
      rw [collect, List.contains_nil, if_neg Bool.false_ne_true, List.nil_append]
      dsimp only
      rw [Json.holds_atLeast_ofInt, List.length_singleton,
        decide_eq_true (by omega : limit ≤ (1 : Nat))]
      rfl
    refine ⟨true, ?_⟩
    rw [candidateRoutes, htargets, collectTargets, hroutes]
    simp only [bind, Except.bind]
    rw [hcollect]
    rfl

end Search

/-! ## Candidate paths -/

section Paths

variable {s : Store}

/-- A sequence of distinct stored methods, at least one. -/
structure Passable (s : Store) (route : List String) : Prop where
  ne_nil : route ≠ []
  nodup : route.Nodup
  stored : ∀ id ∈ route, s.hasMethod id = true

/-- A target that stands for itself. -/
theorem passable_alone {target : String} (h : s.hasMethod target = true) : Passable s [target] where
  ne_nil := List.cons_ne_nil _ _
  nodup := List.nodup_singleton _
  stored id hid := by rwa [List.mem_singleton.1 hid]

/-- Every route of a survey goes over stored methods, none of them twice. -/
theorem survey_passable (hs : s.Valid) {changed : List String} {hops : Int} {route : List String}
    (hroute : route ∈ survey s changed hops) : Passable s route := by
  obtain ⟨target, htarget, hroute⟩ := List.mem_flatMap.1 hroute
  rcases mem_routesInto hroute with rfl | ⟨entry, hentry, hne, hroute⟩
  · exact passable_alone (((targets_ascending s changed).mem_iff target).1 htarget).2
  · have hwalk := (((s.graph.allRoutes_listing hne hops).mem_iff route).1 hroute).toSimpleWalk
    refine ⟨hwalk.ne_nil, hwalk.nodup, ?_⟩
    intro id hid
    rw [← hs.integral.node_iff]
    exact hwalk.mem_nodes hs.integral.closed (Store.mem_entryIds hs hentry) hid

/-- A path over stored methods goes over all of them. -/
theorem methodIds_pathAlong (hs : s.Integral) (name : String) {ids : List String}
    (h : ∀ id ∈ ids, s.hasMethod id = true) : (s.pathAlong name ids).methodIds = ids := by
  change (ids.filterMap s.method?).map (·.id) = ids
  induction ids with
  | nil => rfl
  | cons id ids ih =>
    obtain ⟨m, hm⟩ := (s.hasMethod_iff id).1 (h id List.mem_cons_self)
    rw [List.filterMap_cons_some hm, List.map_cons, hs.method_id id m hm,
      ih fun id' hid => h id' (List.mem_cons_of_mem id hid)]

/-- The paths over some routes, numbered in their order. -/
def pathsOver (s : Store) (routes : List (List String)) : List CallPath :=
  routes.mapIdx fun i ids => s.pathAlong (Store.pathName i) ids

@[simp] theorem length_pathsOver (routes : List (List String)) :
    (pathsOver s routes).length = routes.length := List.length_mapIdx

/-- The paths of a change follow its routes, method by method. -/
theorem map_methodIds_pathsOver (hs : s.Integral) {routes : List (List String)}
    (h : ∀ route ∈ routes, Passable s route) :
    (pathsOver s routes).map (·.methodIds) = routes := by
  refine List.ext_getElem (by simp) ?_
  intro i _ hi
  rw [List.getElem_map]
  simp only [pathsOver, List.getElem_mapIdx]
  exact methodIds_pathAlong hs _ (h _ (List.getElem_mem hi)).stored

theorem map_id_pathsOver (routes : List (List String)) :
    (pathsOver s routes).map (·.id) = (List.range routes.length).map Store.pathName := by
  refine List.ext_getElem (by simp) ?_
  intro i _ _
  simp [pathsOver, Store.pathAlong, CallPath.along]

theorem candidates_eq {changed : List String} {depth limit : Json} {found : Found}
    (h : candidateRoutes s changed depth limit = .ok found) :
    ∃ events, candidates s changed depth limit = .ok (pathsOver s found.routes, events) := by
  rw [candidates, h]
  exact ⟨_, rfl⟩

/-- A search that has a result has found its paths along routes. -/
theorem exists_candidateRoutes {changed : List String} {depth limit : Json}
    {paths : List CallPath} {events : List Event}
    (h : candidates s changed depth limit = .ok (paths, events)) :
    ∃ found, candidateRoutes s changed depth limit = .ok found ∧
      paths = pathsOver s found.routes := by
  rw [candidates] at h
  obtain ⟨found, hfound, h⟩ := Outcome.bind_eq_ok.1 h
  cases h
  exact ⟨found, hfound, rfl⟩

/-- A change is without targets exactly when none of its methods is stored. -/
theorem targets_eq_nil (s : Store) (changed : List String) :
    targets s changed = [] ↔ ∀ id ∈ changed, s.hasMethod id = false := by
  rw [List.eq_nil_iff_forall_not_mem]
  simp only [(targets_ascending s changed).mem_iff, not_and, Bool.not_eq_true]

/-- And without routes exactly when it is without targets. -/
theorem survey_eq_nil (s : Store) (changed : List String) (hops : Int) :
    survey s changed hops = [] ↔ targets s changed = [] := by
  rw [survey, List.flatMap_eq_nil_iff]
  constructor
  · intro h
    rw [List.eq_nil_iff_forall_not_mem]
    intro target htarget
    exact routesInto_ne_nil _ _ target (h target htarget)
  · intro h target htarget
    rw [h] at htarget
    simp at htarget

/-- Whatever the limit, there are candidates exactly when some changed method is stored. -/
theorem exists_candidates (hs : s.Valid) {depth : Json} {n : Number} (hn : depth.number? = some n)
    (limit : Int) (changed : List String) :
    ∃ routes events, candidates s changed depth (.ofInt limit) = .ok (pathsOver s routes, events) ∧
      (∀ route ∈ routes, Passable s route) ∧
      (routes = [] ↔ ∀ id ∈ changed, s.hasMethod id = false) ∧
      routes.length ≤ max 1 limit.toNat := by
  by_cases hlimit : 1 ≤ limit
  · obtain ⟨isFull, hfound⟩ := candidateRoutes_eq hs hn hlimit changed
    obtain ⟨events, hpaths⟩ := candidates_eq hfound
    refine ⟨_, events, hpaths, ?_, ?_, ?_⟩
    · intro route hroute
      exact survey_passable hs (List.mem_of_mem_take hroute)
    · rw [List.take_eq_nil_iff, survey_eq_nil, targets_eq_nil]
      simp only [or_iff_right_iff_imp]
      omega
    · rw [List.length_take]
      omega
  · obtain ⟨isFull, hfound⟩ := candidateRoutes_of_not_pos depth (by omega : limit ≤ 0) changed
    obtain ⟨events, hpaths⟩ := candidates_eq hfound
    refine ⟨_, events, hpaths, ?_, ?_, ?_⟩
    · intro route hroute
      obtain ⟨target, htarget, rfl⟩ := List.mem_map.1 (List.mem_of_mem_take hroute)
      exact passable_alone (((targets_ascending s changed).mem_iff target).1 htarget).2
    · rw [List.take_eq_nil_iff, List.map_eq_nil_iff, targets_eq_nil]
      simp
    · rw [List.length_take]
      omega

end Paths

/-- **Discovery is exact.** In every store that can be reached, the candidate paths of a change go
    along the first routes of its survey, up to the limit, and are numbered in their order. The
    survey has no route twice, so nothing is dropped from it; and when fewer paths are found than
    the limit allows, they are the whole survey. -/
theorem candidates_exact {s : Store} (h : s.Reachable) (changed : List String) (depth : Int)
    {limit : Int} (hlimit : 1 ≤ limit) :
    ∃! all, IsSurvey s changed depth all ∧ all.Nodup ∧
      ∃ paths events, candidates s changed (.ofInt depth) (.ofInt limit) = .ok (paths, events) ∧
        paths.map (·.methodIds) = all.take limit.toNat ∧
        paths.map (·.id) = (List.range paths.length).map Store.pathName ∧
        ((paths.length : Int) < limit → paths.map (·.methodIds) = all) := by
  have hs := h.valid
  have hdepth : survey s changed (s.graph.admitted (.int depth)) = survey s changed depth := by
    simp only [survey, Graph.allRoutes_admitted_int]
  have hn : (Json.ofInt depth).number? = some (.int depth) := rfl
  obtain ⟨isFull, hfound⟩ := candidateRoutes_eq hs hn hlimit changed
  rw [hdepth] at hfound
  obtain ⟨events, hpaths⟩ := candidates_eq hfound
  have hpassable : ∀ route ∈ (survey s changed depth).take limit.toNat, Passable s route := by
    intro route hroute
    exact survey_passable hs (List.mem_of_mem_take hroute)
  have hids := map_methodIds_pathsOver hs.integral hpassable
  refine ⟨survey s changed depth, ⟨survey_spec hs changed depth, survey_nodup hs changed depth,
    _, events, hpaths, hids, ?_, ?_⟩, ?_⟩
  · rw [map_id_pathsOver, length_pathsOver]
  · intro hshort
    rw [length_pathsOver, List.length_take] at hshort
    rw [hids, List.take_of_length_le (by omega)]
  · rintro all ⟨hall, -⟩
    exact hall.unique (survey_spec hs changed depth)

/-- A controller with two ways to a method that calls it back, and a method that is on its own. -/
def roundTrip : Store :=
  .after
    [.putMethod { id := "a", name := "a", layer := .controller },
     .putMethod { id := "b", name := "b" },
     .putMethod { id := "c", name := "c", inDegree := .ofInt (-3) },
     .putMethod { id := "d", name := "d" },
     .addCall { caller := "a", callee := "b" },
     .addCall { caller := "b", callee := "c" },
     .addCall { caller := "a", callee := "c" },
     .addCall { caller := "c", callee := "a" }]

theorem candidates_exact_roundTrip :
    roundTrip.Reachable ∧ ∃ all, IsSurvey roundTrip ["d", "c", "e", "c"] 2 all ∧ all.Nodup ∧
      ∃ paths events,
        candidates roundTrip ["d", "c", "e", "c"] (.ofInt 2) (.ofInt 2) = .ok (paths, events) ∧
          paths.map (·.methodIds) = all.take 2 := by
  have hr : roundTrip.Reachable := Store.reachable_after _
  obtain ⟨all, ⟨hall, hnodup, paths, events, hpaths, hids, -⟩, -⟩ :=
    candidates_exact hr ["d", "c", "e", "c"] 2 (by decide : (1 : Int) ≤ 2)
  exact ⟨hr, all, hall, hnodup, paths, events, hpaths, hids⟩

end Discovery
end PathTriage
