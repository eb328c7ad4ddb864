import PathTriage.Proofs.Graph.Propagation
import PathTriage.Proofs.Graph.Routes

/-!
The order in which propagation lists ids.

A search among callers meets the callers of one node by id, but it takes the nodes of a level in the
order in which it met these. So ids at one distance need not come by id. What orders them is the way
on which the search comes to them, which is the first of all ways: the shortest one and, among
equally short ones, the first by its ids (`FirstWay`).

  * `FirstWay.step`: the first way to an id goes on from the first way to one of its callees.
  * `inOrder_freshCallers`: one more hop keeps a level in the order of first ways (step lemma, by
    induction on the level).
  * `Searched.inOrder_discovered`: so does a whole search (run lemma, by induction on the remaining
    depth).
-/

namespace PathTriage.Graph

/-! ## Ways -/

/-- The ways from an origin against the calls: each id on a way calls the one before it. -/
inductive Way (g : Graph) (origin : String) : String → List String → Prop
  | start : Way g origin origin [origin]
  | step {y z : String} {way : List String} :
      Way g origin y way → g.Calls z y → Way g origin z (way ++ [z])

/-- The first of all ways to an id: a shortest one and, among the shortest, the first by its ids. -/
structure FirstWay (g : Graph) (origin id : String) (way : List String) : Prop where
  leads : g.Way origin id way
  first : ∀ other, g.Way origin id other → other = way ∨ Before way other

/-- The first way to one id comes before the first way to another. -/
def Sooner (g : Graph) (origin a b : String) : Prop :=
  ∃ way way', g.FirstWay origin a way ∧ g.FirstWay origin b way' ∧ Before way way'

/-- What calls its way to an origin in fewer steps comes first, and equally near ids come by id. -/
def Closer (g : Graph) (origin a b : String) : Prop :=
  ∃ i j, Distance g.Calls a origin i ∧ Distance g.Calls b origin j ∧ (i < j ∨ i = j ∧ a < b)

/-- A list of all ids that reach an origin along at most some number of calls, in the order of the
    first ways to them. -/
structure Listed (g : Graph) (origin : String) (depth : Int) (ids : List String) : Prop where
  mem_iff : ∀ id, id ∈ ids ↔ ∃ h : Nat, h ≤ max 0 depth ∧ Distance g.Calls id origin h
  sorted : ids.Pairwise (g.Sooner origin)

section Before

variable {r r' r'' : List String}

theorem Before.trans (h : Before r r') (h' : Before r' r'') : Before r r'' := by
  rcases h with hlt | ⟨heq, hlt⟩
  · rcases h' with hlt' | ⟨heq', -⟩
    · exact .inl (by omega)
    · exact .inl (by omega)
  · rcases h' with hlt' | ⟨heq', hlt'⟩
    · exact .inl (by omega)
    · exact .inr ⟨by omega, List.lt_trans hlt hlt'⟩

/-- Ways are compared before the ids that they go on to. -/
theorem Before.concat (h : Before r r') (x x' : String) : Before (r ++ [x]) (r' ++ [x']) := by
  unfold Before
  rw [List.length_append, List.length_append, List.length_singleton, List.length_singleton]
  rcases h with hlt | ⟨heq, hlt⟩
  · exact .inl (by omega)
  · exact .inr ⟨by omega, concat_lt_concat heq hlt x x'⟩

/-- One way goes on to several ids by their order. -/
theorem before_concat {x x' : String} (r : List String) (h : x < x') :
    Before (r ++ [x]) (r ++ [x']) := by
  refine .inr ⟨?_, List.append_left_lt (List.cons_lt_cons_iff.2 (.inl h))⟩
  rw [List.length_append, List.length_append, List.length_singleton, List.length_singleton]

end Before

section Ways

variable {g : Graph} {origin a b c id y : String} {n : Nat} {way way' : List String}

/-- A way of some ids is a walk with one step less. -/
theorem Way.walk (h : g.Way origin id way) :
    ∃ n, way.length = n + 1 ∧ Walk g.CalledBy origin n id := by
  induction h with
  | start => exact ⟨0, rfl, .stay⟩
  | step _ hcall ih =>
    obtain ⟨n, hlength, hwalk⟩ := ih
    refine ⟨n + 1, ?_, hwalk.step hcall⟩
    rw [List.length_append, hlength, List.length_singleton]

theorem Walk.exists_way (h : Walk g.CalledBy origin n id) :
    ∃ way, g.Way origin id way ∧ way.length = n + 1 := by
  induction h with
  | stay => exact ⟨[origin], .start, rfl⟩
  | step _ hcall ih =>
    obtain ⟨way, hway, hlength⟩ := ih
    refine ⟨_, hway.step hcall, ?_⟩
    rw [List.length_append, hlength, List.length_singleton]

theorem firstWay_start (g : Graph) (origin : String) : g.FirstWay origin origin [origin] := by
  refine ⟨.start, ?_⟩
  intro other hother
  cases hother with
  | start => exact .inl rfl
  | step hway _ =>
    obtain ⟨n, hlength, -⟩ := hway.walk
    refine .inr (.inl ?_)
    rw [List.length_append, hlength, List.length_singleton]
    omega

theorem FirstWay.unique (h : g.FirstWay origin id way) (h' : g.FirstWay origin id way') :
    way = way' := by
  rcases h.first way' h'.leads with heq | hbefore
  · exact heq.symm
  · rcases h'.first way h.leads with heq | hbefore'
    · exact heq
    · exact absurd hbefore' hbefore.asymm

/-- The first way is as long as the id is far away. -/
theorem FirstWay.length (h : g.FirstWay origin id way) (hdist : Distance g.CalledBy origin id n) :
    way.length = n + 1 := by
  obtain ⟨k, hk, hwalk⟩ := h.leads.walk
  have hle : n ≤ k := hdist.2 hwalk
  obtain ⟨short, hshort, hlength⟩ := hdist.1.exists_way
  rcases h.first short hshort with rfl | hlt | ⟨heq, -⟩
  · exact hlength
  · omega
  · omega

theorem Sooner.asymm (h : g.Sooner origin a b) : ¬g.Sooner origin b a := by
  obtain ⟨way, way', ha, hb, hbefore⟩ := h
  rintro ⟨other', other, hb', ha', hbefore'⟩
  rw [ha'.unique ha, hb'.unique hb] at hbefore'
  exact hbefore.asymm hbefore'

instance Sooner.instAsymm : Std.Asymm (g.Sooner origin) where
  asymm _ _ h := h.asymm

/-- What is met sooner is not farther away. -/
theorem Sooner.le (h : g.Sooner origin a b) {i j : Nat} (ha : Distance g.CalledBy origin a i)
    (hb : Distance g.CalledBy origin b j) : i ≤ j := by
  obtain ⟨way, way', hway, hway', hlt | ⟨heq, -⟩⟩ := h
  · rw [hway.length ha, hway'.length hb] at hlt
    omega
  · rw [hway.length ha, hway'.length hb] at heq
    omega

theorem sooner_of_lt (ha : g.FirstWay origin a way) (hb : g.FirstWay origin b way') {i j : Nat}
    (hi : Distance g.CalledBy origin a i) (hj : Distance g.CalledBy origin b j) (hij : i < j) :
    g.Sooner origin a b := by
  refine ⟨way, way', ha, hb, .inl ?_⟩
  rw [ha.length hi, hb.length hj]
  omega

/-- **First ways go on from first ways.** Among the callees of an id that are nearer to the origin
    by one call, the one that is met first is the one before the id on the first way to it. -/
theorem FirstWay.step (h : g.FirstWay origin y way) (hy : Distance g.CalledBy origin y n)
    (hcall : g.Calls c y) (hc : Distance g.CalledBy origin c (n + 1))
    (hleast : ∀ z, Distance g.CalledBy origin z n → g.Calls c z → z = y ∨ g.Sooner origin y z) :
    g.FirstWay origin c (way ++ [c]) := by
  refine ⟨h.leads.step hcall, ?_⟩
  intro other hother
  cases hother with
  | start =>
    have hzero : n + 1 = 0 := hc.unique (distance_zero_iff.2 rfl)
    omega
  | @step z _ v hv hcall' =>
    obtain ⟨k, hk, hwalk⟩ := hv.walk
    have hle : n + 1 ≤ k + 1 := hc.2 (hwalk.step hcall')
    rcases Nat.lt_or_eq_of_le hle with hlonger | hsame
    · refine .inr (.inl ?_)
      rw [List.length_append, List.length_append, h.length hy, hk]
      omega
    · -- the id before the last one is a callee at distance `n`, so the first way to it is no sooner
      obtain rfl : n = k := by omega
      rcases hleast z (hwalk.distance hcall' hc) hcall' with rfl | ⟨w, w', hw, hw', hbefore⟩
      · rcases h.first v hv with rfl | hlater
        · exact .inl rfl
        · exact .inr (hlater.concat c c)
      · rw [hw.unique h] at hbefore
        rcases hw'.first v hv with rfl | hlater
        · exact .inr (hbefore.concat c c)
        · exact .inr ((hbefore.trans hlater).concat c c)

end Ways

/-! ## The search -/

/-- Ids that have first ways and come in the order of these. -/
structure InOrder (g : Graph) (origin : String) (ids : List String) : Prop where
  reached : ∀ id ∈ ids, ∃ way, g.FirstWay origin id way
  sorted : ids.Pairwise (g.Sooner origin)

section Search

variable {g : Graph} {origin : String} {n : Nat}

theorem inOrder_nil (g : Graph) (origin : String) : g.InOrder origin [] where
  reached _ hid := absurd hid List.not_mem_nil
  sorted := .nil

theorem inOrder_start (g : Graph) (origin : String) : g.InOrder origin [origin] where
  reached id hid := by
    rw [List.mem_singleton.1 hid]
    exact ⟨_, g.firstWay_start origin⟩
  sorted := List.pairwise_singleton _ origin

/-- Ids in order go on with ids in order that are farther away. -/
theorem InOrder.append {ids ids' : List String} (h : g.InOrder origin ids)
    (h' : g.InOrder origin ids') (hnear : ∀ id ∈ ids, Distance g.CalledBy origin id n)
    (hfar : ∀ id ∈ ids', ∃ k, n < k ∧ Distance g.CalledBy origin id k) :
    g.InOrder origin (ids ++ ids') where
  reached id hid := by
    rcases List.mem_append.1 hid with hid | hid
    · exact h.reached id hid
    · exact h'.reached id hid
  sorted := by
    rw [List.pairwise_append]
    refine ⟨h.sorted, h'.sorted, ?_⟩
    intro a ha b hb
    obtain ⟨way, hway⟩ := h.reached a ha
    obtain ⟨way', hway'⟩ := h'.reached b hb
    obtain ⟨k, hlt, hk⟩ := hfar b hb
    exact sooner_of_lt hway hway' (hnear a ha) hk hlt

/-- What is met at a level, and on which ways. The rest of a level suffices, once the callers of
    what came before it are among the ids that have been seen. -/
theorem freshCallers_ways {rest : List String} : ∀ {seen : List String},
    (∀ id k, k ≤ n → Distance g.CalledBy origin id k → id ∈ seen) →
    (∀ y ∈ rest, Distance g.CalledBy origin y n) →
    (∀ z, Distance g.CalledBy origin z n → z ∉ rest → ∀ c, g.Calls c z → c ∈ seen) →
    g.InOrder origin rest →
      (∀ c ∈ g.freshCallers seen rest, ∃ y ∈ rest, ∃ way,
        g.FirstWay origin y way ∧ g.FirstWay origin c (way ++ [c])) ∧
      (g.freshCallers seen rest).Pairwise (g.Sooner origin) := by
  induction rest with
  | nil =>
    intro seen _ _ _ _
    exact ⟨fun c hc => absurd hc List.not_mem_nil, .nil⟩
  | cons y rest ih =>
    intro seen hnear hlevel hpast hrest
    obtain ⟨hfirst, hsorted⟩ := List.pairwise_cons.1 hrest.sorted
    obtain ⟨way, hway⟩ := hrest.reached y List.mem_cons_self
    have hy := hlevel y List.mem_cons_self
    -- a caller of `y` that was not seen goes on from the first way to `y`
    have hfresh : ∀ c ∈ (Order.sorted (g.callers y)).filter (fun c => !seen.contains c),
        g.FirstWay origin c (way ++ [c]) := by
      intro c hc
      obtain ⟨hcall, hnew⟩ := mem_unseen.1 hc
      have hdist : Distance g.CalledBy origin c (n + 1) := by
        refine distance_succ_iff.2 ⟨⟨y, hy, hcall⟩, ?_⟩
        rintro ⟨k, hk, hk'⟩
        exact hnew (hnear c k hk hk')
      refine hway.step hy hcall hdist ?_
      intro z hz hcall'
      by_cases hmem : z ∈ y :: rest
      · rcases List.mem_cons.1 hmem with rfl | hmem
        · exact .inl rfl
        · exact .inr (hfirst z hmem)
      · exact absurd (hpast z hz hmem c hcall') hnew
    have hseen : ∀ z, Distance g.CalledBy origin z n → z ∉ rest → ∀ c, g.Calls c z →
        c ∈ seen ++ (Order.sorted (g.callers y)).filter (fun c => !seen.contains c) := by
      intro z hz hmem c hcall
      by_cases hc : c ∈ seen
      · exact List.mem_append_left _ hc
      · refine List.mem_append_right _ (mem_unseen.2 ⟨?_, hc⟩)
        by_cases hzy : z = y
        · exact hzy ▸ hcall
        · exact absurd (hpast z hz (by simp [hzy, hmem]) c hcall) hc
    obtain ⟨hways, hlater⟩ := ih
      (fun id k hk hdist => List.mem_append_left _ (hnear id k hk hdist))
      (fun z hz => hlevel z (List.mem_cons_of_mem y hz)) hseen
      ⟨fun z hz => hrest.reached z (List.mem_cons_of_mem y hz), hsorted⟩
    rw [freshCallers]
    refine ⟨?_, ?_⟩
    · intro c hc
      rcases List.mem_append.1 hc with hc | hc
      · exact ⟨y, List.mem_cons_self, way, hway, hfresh c hc⟩
      · obtain ⟨z, hz, hwayz⟩ := hways c hc
        exact ⟨z, List.mem_cons_of_mem y hz, hwayz⟩
    · rw [List.pairwise_append]
      refine ⟨?_, hlater, ?_⟩
      · -- the callers of one node come by id
        apply ((Order.sorted_lt (g.nodup_callers y)).filter _).imp_of_mem
        intro a b ha hb hlt
        exact ⟨_, _, hfresh a ha, hfresh b hb, before_concat way hlt⟩
      · -- the callers of two nodes come as these do
        intro a ha b hb
        obtain ⟨z, hz, wayz, hwayz, hb'⟩ := hways b hb
        obtain ⟨w, w', hw, hw', hbefore⟩ := hfirst z hz
        rw [hw.unique hway, hw'.unique hwayz] at hbefore
        exact ⟨_, _, hfresh a ha, hb', hbefore.concat a b⟩

/-- **One more hop keeps the order.** The callers of a level come in the order of their first ways
    if the level does. -/
theorem inOrder_freshCallers {seen level : List String}
    (hs : Searched g.CalledBy origin n seen level) (h : g.InOrder origin level) :
    g.InOrder origin (g.freshCallers seen level) := by
  obtain ⟨hways, hsorted⟩ := freshCallers_ways
    (fun id k hk hdist => (hs.mem_seen id).2 ⟨k, hk, hdist⟩)
    (fun y hy => (hs.mem_level y).1 hy)
    (fun z hz hmem => absurd ((hs.mem_level z).2 hz) hmem) h
  refine ⟨?_, hsorted⟩
  intro c hc
  obtain ⟨y, -, way, -, hway⟩ := hways c hc
  exact ⟨_, hway⟩

/-- **A search keeps the order.** From a level in order on, all that the search discovers comes in
    the order of first ways. -/
theorem Searched.inOrder_discovered (depth : Nat) : ∀ {n : Nat} {seen level : List String},
    Searched g.CalledBy origin n seen level → g.InOrder origin level →
      g.InOrder origin ((g.discovered depth (n + 1) seen level).map (·.1)) := by
  induction depth with
  | zero =>
    intro n seen level _ _
    exact inOrder_nil g origin
  | succ depth ih =>
    intro n seen level hs h
    have hhop : Searched g.CalledBy origin (n + 1) (seen ++ g.freshCallers seen level)
        (g.freshCallers seen level) := hs.hop fun id => mem_freshCallers
    have hfresh := inOrder_freshCallers hs h
    rw [Graph.discovered, List.map_append, map_fst_map]
    refine hfresh.append (ih hhop hfresh) (fun id hid => (hhop.mem_level id).1 hid) ?_
    intro id hid
    obtain ⟨⟨id, k⟩, hentry, rfl⟩ := List.mem_map.1 hid
    obtain ⟨hlt, -, hdist⟩ := ((hhop.discovered depth).1 id k).1 hentry
    exact ⟨k, hlt, hdist⟩

end Search

/-! ## Propagation -/

section Propagation

variable {g : Graph} {origin : String} {depth : Int} {ids : List String}

theorem Listed.unique {ids' : List String} (h : g.Listed origin depth ids)
    (h' : g.Listed origin depth ids') : ids = ids' := by
  apply h.sorted.eq_of_mem_iff h'.sorted
  intro id
  rw [h.mem_iff, h'.mem_iff]

/-- The ids of a propagation, in the order in which they are recorded. -/
theorem listed_discovered (g : Graph) (origin : String) (depth : Int) :
    g.Listed origin depth
      (((origin, 0) :: g.discovered (max 0 depth).toNat 1 [origin] [origin]).map (·.1)) := by
  have hreaching := g.reaching_discovered origin depth
  have hstart := searched_start g.CalledBy origin
  have horder := hstart.inOrder_discovered (max 0 depth).toNat (g.inOrder_start origin)
  refine ⟨?_, ?_⟩
  · intro id
    rw [List.mem_map]
    refine ⟨?_, ?_⟩
    · rintro ⟨⟨id, h⟩, hentry, rfl⟩
      exact ⟨h, (hreaching.mem_iff id h).1 hentry⟩
    · rintro ⟨h, hreach⟩
      exact ⟨(id, h), (hreaching.mem_iff id h).2 hreach, rfl⟩
  · refine ((g.inOrder_start origin).append horder
      (fun id hid => (hstart.mem_level id).1 hid) ?_).sorted
    intro id hid
    obtain ⟨⟨id, k⟩, hentry, rfl⟩ := List.mem_map.1 hid
    obtain ⟨hlt, -, hdist⟩ := ((hstart.discovered _).1 id k).1 hentry
    exact ⟨k, hlt, hdist⟩

/-- Giving ids their values leaves the ids and their order alone. -/
theorem map_fst_of_mapM_entryAt {risk decay : Json} {hops : List (String × Nat)}
    {entries : List (String × Json)} (h : hops.mapM (entryAt risk decay) = .ok entries) :
    entries.map (·.1) = hops.map (·.1) := by
  have hkeys :
      List.Forall₂ (fun (e : String × Nat) (v : String × Json) => e.1 = v.1) hops entries := by
    refine (Outcome.mapM_eq_ok.1 h).imp ?_
    intro e v hv
    obtain ⟨r, -, hr⟩ := Outcome.bind_eq_ok.1 hv
    cases hr
    rfl
  rw [← List.forall₂_eq_eq_eq, List.forall₂_map_left_iff, List.forall₂_map_right_iff]
  exact hkeys.flip.imp fun _ _ hkey => hkey.symm

/-- In a list by first ways, ids at one distance come by id exactly when first ways do. -/
theorem Listed.pairwise_closer_iff (h : g.Listed origin depth ids) :
    ids.Pairwise (g.Closer origin) ↔
      ∀ a ∈ ids, ∀ b ∈ ids, ∀ n, Distance g.Calls a origin n → Distance g.Calls b origin n →
        a < b → g.Sooner origin a b := by
  refine ⟨?_, ?_⟩
  · intro hcloser a ha b hb n hdista hdistb hlt
    -- the two stand in the list in one order or the other, and their ids tell which
    let Placed (a b : String) : Prop := g.Sooner origin a b ∧ g.Closer origin a b
    have hsymm : Std.Symm fun a b => Placed a b ∨ Placed b a := ⟨fun _ _ => Or.symm⟩
    have hboth : ids.Pairwise fun a b => Placed a b ∨ Placed b a :=
      (h.sorted.and hcloser).imp .inl
    have hne : a ≠ b := fun heq => lt_irrefl b (heq ▸ hlt)
    rcases hboth.forall ha hb hne with ⟨hsooner, -⟩ | ⟨-, i, j, hi, hj, hij⟩
    · exact hsooner
    · have hin : i = n := hi.unique hdistb
      have hjn : j = n := hj.unique hdista
      rcases hij with hcloser | ⟨-, hgt⟩
      · omega
      · exact absurd hlt (lt_asymm hgt)
  · intro hways
    apply h.sorted.imp_of_mem
    intro a b ha hb hsooner
    obtain ⟨i, -, hi⟩ := (h.mem_iff a).1 ha
    obtain ⟨j, -, hj⟩ := (h.mem_iff b).1 hb
    refine ⟨i, j, hi, hj, ?_⟩
    have hle := hsooner.le (distance_calledBy_iff.2 hi) (distance_calledBy_iff.2 hj)
    rcases Nat.lt_or_eq_of_le hle with hlt | rfl
    · exact .inl hlt
    · refine .inr ⟨rfl, ?_⟩
      rcases lt_trichotomy a b with hlt | rfl | hgt
      · exact hlt
      · exact absurd hsooner hsooner.asymm
      · exact absurd hsooner (hways b hb a ha i hj hi hgt).asymm

/-- A call away from the origin, first ways come by the ids that they end in. -/
theorem sooner_of_caller {a b : String} {h : Nat} (hle : h ≤ 1) (ha : Distance g.Calls a origin h)
    (hb : Distance g.Calls b origin h) (hlt : a < b) : g.Sooner origin a b := by
  rw [← distance_calledBy_iff] at ha hb
  match h, hle with
  | 0, _ =>
    -- only the origin is no call away
    rw [distance_zero_iff] at ha hb
    exact absurd hlt (ha ▸ hb ▸ lt_irrefl b)
  | 1, _ =>
    have hfirst : ∀ {c}, Distance g.CalledBy origin c 1 →
        g.FirstWay origin c ([origin] ++ [c]) := by
      intro c hc
      obtain ⟨⟨y, hy, hcall⟩, -⟩ := distance_succ_iff.1 hc
      obtain rfl := distance_zero_iff.1 hy
      refine (firstWay_start g y).step hy hcall hc ?_
      intro z hz _
      exact .inl (distance_zero_iff.1 hz)
    exact ⟨_, _, hfirst ha, hfirst hb, before_concat [origin] hlt⟩

end Propagation

/-- **Propagation lists ids by their first ways.** Whatever the risk and the decay, the ids that
    propagation from a node records are all those that reach it in as many calls as the depth
    allows, in the order of the first ways to them; there is one such list. So nearer ids come
    first, but equally near ones come by id exactly when their first ways do. One call away from the
    node that is always so. -/
theorem propagateWithin_order (g : Graph) (origin : String) (depth : Int) :
    ∃! ids, g.Listed origin depth ids ∧
      (∀ risk decay entries, g.propagateWithin origin risk (.ofInt depth) decay = .ok entries →
        entries.map (·.1) = if origin ∈ g.nodes then ids else []) ∧
      (∀ risk decay : Int, ∃ entries,
        g.propagateWithin origin (.ofInt risk) (.ofInt depth) (.ofInt decay) = .ok entries) ∧
      (ids.Pairwise (g.Closer origin) ↔
        ∀ a ∈ ids, ∀ b ∈ ids, ∀ h, Distance g.Calls a origin h → Distance g.Calls b origin h →
          a < b → g.Sooner origin a b) ∧
      (depth ≤ 1 → ids.Pairwise (g.Closer origin)) := by
  have hlisted := g.listed_discovered origin depth
  refine ⟨_, ⟨hlisted, ?_, ?_, hlisted.pairwise_closer_iff, ?_⟩, ?_⟩
  · intro risk decay entries hentries
    by_cases horigin : origin ∈ g.nodes
    · rw [propagateWithin_ofInt horigin] at hentries
      rw [if_pos horigin, map_fst_of_mapM_entryAt hentries]
    · rw [propagateWithin, if_neg fun hin => horigin (List.contains_iff_mem.1 hin)] at hentries
      cases hentries
      rw [if_neg horigin, List.map_nil]
  · intro risk decay
    by_cases horigin : origin ∈ g.nodes
    · rw [propagateWithin_ofInt horigin, mapM_entryAt (riskAt_ofInt risk decay)]
      exact ⟨_, rfl⟩
    · rw [propagateWithin, if_neg fun hin => horigin (List.contains_iff_mem.1 hin)]
      exact ⟨[], rfl⟩
  · intro hdepth
    refine hlisted.pairwise_closer_iff.2 ?_
    intro a ha b hb h hdista hdistb hlt
    obtain ⟨k, hk, hdist⟩ := (hlisted.mem_iff a).1 ha
    -- at most one call away, the first way is the call itself
    have hsame : h = k := hdista.unique hdist
    exact sooner_of_caller (by omega) hdista hdistb hlt
  · rintro ids ⟨hids, -⟩
    exact hids.unique hlisted

/-- Two callers of a node, each with a caller of its own, whose ids are in the other order. -/
def crossing : List Insertion :=
  [.arrow ⟨"a", "o"⟩, .arrow ⟨"b", "o"⟩, .arrow ⟨"z", "a"⟩, .arrow ⟨"m", "b"⟩]

/-- Propagation lists `z` before `m`, although both are two calls away from its origin. -/
theorem crossing_not_by_id :
    (ofInsertions crossing).propagateWithin "o" (.ofInt 1) (.ofInt 2) (.ofInt 1) =
      .ok [("o", .ofInt 1), ("a", .ofInt 1), ("b", .ofInt 1), ("z", .ofInt 1), ("m", .ofInt 1)] ∧
    Distance (ofInsertions crossing).Calls "z" "o" 2 ∧
    Distance (ofInsertions crossing).Calls "m" "o" 2 ∧
    ¬["o", "a", "b", "z", "m"].Pairwise ((ofInsertions crossing).Closer "o") := by
  have hentries :
      ("o", 0) :: (ofInsertions crossing).discovered (max 0 (2 : Int)).toNat 1 ["o"] ["o"] =
      [("o", 0), ("a", 1), ("b", 1), ("z", 2), ("m", 2)] := by cbv
  have hreaching := (ofInsertions crossing).reaching_discovered "o" 2
  rw [hentries] at hreaching
  have hz : Distance (ofInsertions crossing).Calls "z" "o" 2 :=
    ((hreaching.mem_iff "z" 2).1 (by decide)).2
  have hm : Distance (ofInsertions crossing).Calls "m" "o" 2 :=
    ((hreaching.mem_iff "m" 2).1 (by decide)).2
  refine ⟨by cbv, hz, hm, ?_⟩
  intro hsorted
  have hlast : ["z", "m"].Pairwise ((ofInsertions crossing).Closer "o") :=
    hsorted.sublist (by decide)
  obtain ⟨i, j, hi, hj, hij⟩ := (List.pairwise_cons.1 hlast).1 "m" List.mem_cons_self
  have hitwo : i = 2 := hi.unique hz
  have hjtwo : j = 2 := hj.unique hm
  rcases hij with hlt | ⟨-, hlt⟩
  · omega
  · exact absurd hlt (by decide)

end PathTriage.Graph
