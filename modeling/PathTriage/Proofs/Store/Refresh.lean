import PathTriage.Proofs.Store.Figures

/-!
Bringing the risks of a store up to date.

The methods are listed once and then weighed and rewritten one by one, in the store that they are
listed from. The risk of a method does not depend on any risk that is stored, its own or another's
(`riskOf_weighed`), so the whole run comes to one closed form (`refreshRisks_eq`): every method up
to the first that has no risk carries its risk, everything else is as it was, and the answer is that
of weighing the listed methods. What a run leaves alone, what it gives, and that a second run
changes nothing are read off this form.
-/

namespace PathTriage

open Outcome

/-- A method with the risk that it has now. A method that has none is left as it is. -/
def Method.weighed (history : Option ProjectHistory) (m : Method) : Method :=
  match Store.riskOf history m with
  | .ok risk => { m with riskScore := risk }
  | .error _ => m

/-- A method without its risk. -/
def Method.unweighed (m : Method) : Method := { m with riskScore := .ofFloat 0 }

namespace Store

variable {history : Option ProjectHistory} {s : Store} {m : Method}

/-! ## Weighing -/

theorem weighed_of_ok {risk : Json} (h : riskOf history m = .ok risk) :
    m.weighed history = { m with riskScore := risk } := by
  rw [Method.weighed, h]

/-- The risk of a method does not depend on the risk that it carries. -/
theorem riskOf_weighed (history : Option ProjectHistory) (m : Method) :
    riskOf history (m.weighed history) = riskOf history m := by
  unfold Method.weighed
  split <;> rfl

/-- Weighing looks at nothing that it sets, so a second time changes nothing. -/
theorem weighed_weighed (history : Option ProjectHistory) (m : Method) :
    (m.weighed history).weighed history = m.weighed history := by
  cases h : riskOf history m with
  | ok risk =>
    rw [weighed_of_ok ((riskOf_weighed history m).trans h), weighed_of_ok h]
  | error cause =>
    have hsame : m.weighed history = m := by rw [Method.weighed, h]
    rw [hsame, hsame]

/-- It sets the risk and nothing else. -/
theorem unweighed_weighed (history : Option ProjectHistory) (m : Method) :
    (m.weighed history).unweighed = m.unweighed := by
  unfold Method.weighed
  split <;> rfl

theorem id_weighed (history : Option ProjectHistory) (m : Method) :
    (m.weighed history).id = m.id := by
  unfold Method.weighed
  split <;> rfl

/-- The risks of some methods by id, up to a method that has none. -/
def risksOf (history : Option ProjectHistory) (ms : List Method) :
    Except Failure (List (String × Json)) :=
  ms.mapM fun m => do pure (m.id, ← riskOf history m)

/-- The risks of methods are listed in order, one for each, if all of them compute. -/
theorem risksOf_eq_ok {ms : List Method} {risks : List (String × Json)} :
    risksOf history ms = .ok risks ↔
      List.Forall₂ (fun m e => m.id = e.1 ∧ riskOf history m = .ok e.2) ms risks := by
  have heach : ∀ (m : Method) (e : String × Json),
      (do pure (m.id, ← riskOf history m)) = Except.ok (ε := Failure) e ↔
        m.id = e.1 ∧ riskOf history m = .ok e.2 := by
    intro m e
    rw [bind_eq_ok]
    constructor
    · rintro ⟨risk, hrisk, ⟨⟩⟩
      exact ⟨rfl, hrisk⟩
    · rintro ⟨hid, hrisk⟩
      exact ⟨e.2, hrisk, congrArg Except.ok (Prod.ext hid rfl)⟩
  simp only [risksOf, mapM_eq_ok, heach]

/-- Weighed methods have the same risks. -/
theorem risksOf_map_weighed (ms : List Method) :
    risksOf history (ms.map (Method.weighed history)) = risksOf history ms := by
  simp only [risksOf, List.mapM_map, Function.comp_def, id_weighed, riskOf_weighed]

theorem exists_risksOf {ms : List Method} (h : ∀ m ∈ ms, ∃ risk, riskOf history m = .ok risk) :
    ∃ risks, risksOf history ms = .ok risks := by
  have heach : ∀ m ∈ ms, Gives (fun _ : String × Json => True)
      (do pure (m.id, ← riskOf history m)) := by
    intro m hm
    obtain ⟨risk, hrisk⟩ := h m hm
    exact ⟨(m.id, risk), by rw [hrisk]; rfl, trivial⟩
  obtain ⟨risks, hrisks, -⟩ := Gives.mapM heach
  exact ⟨risks, hrisks⟩

/-- The ids of the methods before the first that has no risk. -/
def weighedIds (history : Option ProjectHistory) (ms : List Method) : List String :=
  (ms.takeWhile fun m => (riskOf history m).isOk).map (·.id)

/-- The store in which the methods with the given ids carry their current risks. -/
def reweighed (s : Store) (history : Option ProjectHistory) (ids : List String) : Store :=
  { s with methods := s.methods.map fun id m => if id ∈ ids then m.weighed history else m }

/-- Look-ups after some methods are weighed. -/
theorem method?_reweighed (s : Store) (history : Option ProjectHistory) (ids : List String)
    (id : String) :
    (s.reweighed history ids).method? id =
      (s.method? id).map fun m => if id ∈ ids then m.weighed history else m :=
  Std.ExtTreeMap.getElem?_map

/-- A store is known by its methods when the rest is the same. -/
theorem ext_method? {s t : Store} (h : ∀ id, s.method? id = t.method? id)
    (hrest : { s with methods := t.methods } = t) : s = t := by
  rw [← hrest]
  exact congrArg (fun methods => { s with methods }) (Std.ExtTreeMap.ext_getElem? h)

theorem reweighed_nil (s : Store) (history : Option ProjectHistory) :
    s.reweighed history [] = s := by
  refine ext_method? (fun id => ?_) rfl
  rw [method?_reweighed]
  exact Option.map_id'

/-- Where all methods are weighed, weighing some of them changes nothing. -/
theorem reweighed_of_weighed (h : ∀ id m, s.method? id = some m → m.weighed history = m)
    (ids : List String) : s.reweighed history ids = s := by
  refine ext_method? (fun id => ?_) rfl
  rw [method?_reweighed]
  cases hm : s.method? id with
  | none => rfl
  | some m =>
    rw [Option.map_some, h id m hm, ite_self]

/-- One step: the risk that is written is the one that the closed form writes. -/
theorem setRisk_reweighed {ids : List String} (hm : s.method? m.id = some m) {risk : Json}
    (hrisk : riskOf history m = .ok risk) (hids : m.id ∉ ids) :
    (s.setRisk m.id risk).reweighed history ids = s.reweighed history (m.id :: ids) := by
  refine ext_method? (fun id => ?_) rfl
  have hset : (s.setRisk m.id risk).method? id =
      if m.id = id then (s.method? id).map ({ · with riskScore := risk }) else s.method? id :=
    Table.getElem?_modify_eq ..
  rw [method?_reweighed, method?_reweighed, hset]
  by_cases hid : m.id = id
  · rw [if_pos hid, ← hid, hm]
    simp [hids, weighed_of_ok hrisk]
  · have hne : id ≠ m.id := fun h => hid h.symm
    rw [if_neg hid]
    simp [hne]

/-! ## The run -/

/-- By induction on the methods: those before the first failure are weighed, and those after it are
    not. -/
theorem refreshEach_eq (history : Option ProjectHistory) {ms : List Method}
    (hstored : ∀ m ∈ ms, s.method? m.id = some m) (hnodup : (ms.map (·.id)).Nodup)
    (found : List (String × Json)) :
    refreshEach history s found ms =
      (s.reweighed history (weighedIds history ms),
        (risksOf history ms).map (found.reverse ++ ·)) := by
  induction ms generalizing s found with
  | nil =>
    rw [weighedIds, List.takeWhile_nil, List.map_nil, reweighed_nil, refreshEach]
    exact Prod.ext rfl (congrArg Except.ok (List.append_nil _).symm)
  | cons m ms ih =>
    obtain ⟨hm, hstored⟩ := List.forall_mem_cons.1 hstored
    obtain ⟨hfresh, hnodup⟩ := List.nodup_cons.1 hnodup
    cases hrisk : riskOf history m with
    | error cause =>
      have hids : weighedIds history (m :: ms) = [] := by
        rw [weighedIds, List.takeWhile_cons, hrisk]
        rfl
      rw [refreshEach, hrisk, hids, reweighed_nil, risksOf, List.mapM_cons, hrisk]
      rfl
    | ok risk =>
      have hids : weighedIds history (m :: ms) = m.id :: weighedIds history ms := by
        rw [weighedIds, List.takeWhile_cons, hrisk]
        rfl
      have hlater : m.id ∉ weighedIds history ms := fun hmem =>
        hfresh (List.map_subset _ (List.takeWhile_subset _) hmem)
      -- ids are distinct, so the methods still to come are stored as they were listed
      have hkept : ∀ x ∈ ms, (s.setRisk m.id risk).method? x.id = some x := by
        intro x hx
        have hne : m.id ≠ x.id := fun heq => hfresh (List.mem_map.2 ⟨x, hx, heq.symm⟩)
        rw [method?, setRisk, Table.getElem?_modify_eq, if_neg hne]
        exact hstored x hx
      rw [refreshEach, hrisk, hids, ← setRisk_reweighed hm hrisk hlater]
      dsimp only
      rw [ih hkept hnodup, risksOf, risksOf, List.mapM_cons, hrisk]
      cases ms.mapM fun m => do pure (m.id, ← riskOf history m) with
      | error cause => rfl
      | ok risks =>
        rw [List.reverse_cons]
        exact Prod.ext rfl (congrArg Except.ok (List.append_assoc ..))

theorem Integral.nodup_methodIds (h : s.Integral) : (s.methodList.map (·.id)).Nodup :=
  h.methodIds ▸ Std.ExtTreeMap.nodup_keys

/-- **The closed form of a run.** Every method before the first that has no risk carries its risk,
    and the answer is that of weighing the listed methods. -/
theorem refreshRisks_eq (h : s.Integral) (history : Option ProjectHistory) :
    s.refreshRisks history =
      (s.reweighed history (weighedIds history s.methodList), risksOf history s.methodList) := by
  rw [refreshRisks, refreshEach_eq history (fun m hm => h.mem_methodList.1 hm) h.nodup_methodIds []]
  cases risksOf history s.methodList <;> rfl

/-! ## What a run leaves alone -/

/-- Two stores differ at most in the risks that their methods carry. -/
structure SameButRisks (s t : Store) : Prop where
  methods : ∀ id, (t.method? id).map Method.unweighed = (s.method? id).map Method.unweighed
  rest : { t with methods := s.methods } = s

theorem sameButRisks_reweighed (s : Store) (history : Option ProjectHistory) (ids : List String) :
    s.SameButRisks (s.reweighed history ids) where
  methods id := by
    rw [method?_reweighed, Option.map_map]
    congr 1
    funext m
    rw [Function.comp_apply]
    split
    · exact unweighed_weighed history m
    · rfl
  rest := rfl

/-! ## Runs to the end -/

/-- Every method carries its current risk, the risks are listed by id, and refreshing once more
    changes nothing. -/
structure Refreshed (history : Option ProjectHistory) (s t : Store) (risks : List (String × Json)) :
    Prop where
  ids : risks.map (·.1) = s.methods.keys
  current : ∀ id m, t.method? id = some m →
    riskOf history m = .ok m.riskScore ∧ (id, m.riskScore) ∈ risks
  again : t.refreshRisks history = (t, .ok risks)

section Success

variable (h : s.Reachable) (hall : ∀ m ∈ s.methodList, ∃ risk, riskOf history m = .ok risk)

include h hall

/-- Without a failure all methods are weighed. -/
theorem weighedIds_methodList : weighedIds history s.methodList = s.methods.keys := by
  rw [weighedIds, List.takeWhile_eq_self_iff.2, h.integral.methodIds]
  intro m hm
  obtain ⟨risk, hrisk⟩ := hall m hm
  rw [hrisk]
  rfl

/-- After a run to the end, every method is weighed. -/
theorem refreshRisks_fst :
    (s.refreshRisks history).1 =
      { s with methods := s.methods.map fun _ => Method.weighed history } := by
  rw [refreshRisks_eq h.integral, weighedIds_methodList h hall]
  refine ext_method? (fun id => ?_) rfl
  rw [method?_reweighed, method?, method?, Std.ExtTreeMap.getElem?_map]
  cases hm : s.methods[id]? with
  | none => rfl
  | some m =>
    have hid : id ∈ s.methods.keys := by
      rw [Std.ExtTreeMap.mem_keys, ← Std.ExtTreeMap.isSome_getElem?_iff_mem, hm]
      rfl
    rw [Option.map_some, Option.map_some, if_pos hid]

/-- Methods keep their order, which is that of their ids. -/
theorem methodList_refreshRisks :
    (s.refreshRisks history).1.methodList = s.methodList.map (Method.weighed history) := by
  rw [refreshRisks_fst h hall, methodList, methodList, Table.values_eq, Table.values_eq,
    Std.ExtTreeMap.toList_map, List.map_map, List.map_map]
  rfl

/-- A run to the end gives what it is for. -/
theorem exists_refreshed : ∃ risks, (s.refreshRisks history).2 = .ok risks ∧
    Refreshed history s (s.refreshRisks history).1 risks := by
  obtain ⟨risks, hrisks⟩ := exists_risksOf hall
  have hmatched := risksOf_eq_ok.1 hrisks
  have hreachable : (s.refreshRisks history).1.Reachable := h.step (.refreshRisks history)
  refine ⟨risks, ?_, ?_, ?_, ?_⟩
  · rw [refreshRisks_eq h.integral]
    exact hrisks
  · have hids : List.Forall₂ (· = ·) (s.methodList.map (·.id)) (risks.map (·.1)) := by
      rw [List.forall₂_map_left_iff, List.forall₂_map_right_iff]
      exact hmatched.imp fun _ _ he => he.1
    rw [List.forall₂_eq_eq_eq] at hids
    rw [← hids, h.integral.methodIds]
  -- each stored risk is current: weighing a weighed method gives the same risk
  · intro id m hm
    have hmem : m ∈ (s.refreshRisks history).1.methodList :=
      hreachable.integral.mem_methodList.2 (hreachable.integral.method_id id m hm ▸ hm)
    rw [methodList_refreshRisks h hall, List.mem_map] at hmem
    obtain ⟨n, hn, rfl⟩ := hmem
    obtain ⟨e, he, hid, hrisk⟩ := exists_of_forall₂ hmatched.flip hn
    rw [← hreachable.integral.method_id id _ hm, riskOf_weighed, id_weighed,
      weighed_of_ok hrisk, hid]
    exact ⟨hrisk, he⟩
  · rw [refreshRisks_eq hreachable.integral, methodList_refreshRisks h hall, risksOf_map_weighed,
      hrisks, reweighed_of_weighed]
    intro id m hm
    rw [refreshRisks_fst h hall, method?, Std.ExtTreeMap.getElem?_map] at hm
    obtain ⟨n, -, rfl⟩ := Option.map_eq_some_iff.1 hm
    exact weighed_weighed history n

end Success

/-! ## Runs that stop -/

/-- Refreshing fails after some methods. These are up to date, and the others are as they were. -/
structure StopsAfter (history : Option ProjectHistory) (s : Store) (before others : List Method)
    (cause : Failure) : Prop where
  failure : (s.refreshRisks history).2 = .error cause
  before : ∀ x ∈ before, ∃ risk, riskOf history x = .ok risk ∧
    (s.refreshRisks history).1.method? x.id = some { x with riskScore := risk }
  others : ∀ x ∈ others, (s.refreshRisks history).1.method? x.id = some x

/-- With a failure, the methods before it have new risks and the others keep theirs. -/
theorem stopsAfter (h : s.Integral) {before rest : List Method} {cause : Failure}
    (hlist : s.methodList = before ++ m :: rest)
    (hbefore : ∀ x ∈ before, ∃ risk, riskOf history x = .ok risk)
    (hm : riskOf history m = .error cause) : StopsAfter history s before (m :: rest) cause := by
  have hids : weighedIds history s.methodList = before.map (·.id) := by
    rw [weighedIds, hlist, List.takeWhile_append_of_pos, List.takeWhile_cons_of_neg,
      List.append_nil]
    -- the first method without a risk ends the run
    · rw [hm]
      exact Bool.false_ne_true
    · intro x hx
      obtain ⟨risk, hrisk⟩ := hbefore x hx
      rw [hrisk]
      rfl
  have hnodup := h.nodup_methodIds
  have hstored : ∀ x ∈ before ++ m :: rest, s.method? x.id = some x := fun x hx =>
    h.mem_methodList.1 (hlist ▸ hx)
  have heq := refreshRisks_eq h history
  rw [hids] at heq
  refine ⟨?_, fun x hx => ?_, fun x hx => ?_⟩ <;> rw [heq]
  · obtain ⟨risks, hrisks⟩ := exists_risksOf hbefore
    rw [risksOf] at hrisks
    rw [risksOf, hlist, List.mapM_append, hrisks, List.mapM_cons, hm]
    rfl
  · obtain ⟨risk, hrisk⟩ := hbefore x hx
    refine ⟨risk, hrisk, ?_⟩
    rw [method?_reweighed, hstored x (List.mem_append_left _ hx), Option.map_some,
      if_pos (List.mem_map_of_mem hx), weighed_of_ok hrisk]
  -- ids are distinct, so no method after the failure is among those before it
  · rw [hlist, List.map_append] at hnodup
    have hout : x.id ∉ before.map (·.id) := fun hmem =>
      (List.nodup_append.1 hnodup).2.2 x.id hmem x.id (List.mem_map_of_mem hx) rfl
    rw [method?_reweighed, hstored x (List.mem_append_right _ hx), Option.map_some, if_neg hout]

/-! ## Refreshing -/

/-- **Refreshing is exact, idempotent and touches nothing else.** In every store that can be reached
    and for every history, refreshing leaves all but the risks of the methods alone. If every method
    has a risk, then afterwards every method carries the risk that it has, the answer lists these
    risks by id, and refreshing again changes nothing. Otherwise it stops at the first method that
    has none, with its failure, and the methods from there on keep what they had. A method with an
    integer for its complexity and a number for its length has a risk unless its complexity is too
    large for a quotient. -/
theorem refreshRisks_exact (h : s.Reachable) (history : Option ProjectHistory) :
    s.SameButRisks (s.refreshRisks history).1 ∧
    ((∀ m ∈ s.methodList, ∃ risk, riskOf history m = .ok risk) →
      ∃ risks, (s.refreshRisks history).2 = .ok risks ∧
        Refreshed history s (s.refreshRisks history).1 risks) ∧
    (∀ before m rest cause, s.methodList = before ++ m :: rest →
      (∀ x ∈ before, ∃ risk, riskOf history x = .ok risk) → riskOf history m = .error cause →
        StopsAfter history s before (m :: rest) cause) ∧
    (s.calls.size < Number.machineBound → ∀ m ∈ s.methodList, m.complexity.toJson.IsInteger →
      m.linesOfCode.IsNumber →
        (m.Weighable → ∃ risk, riskOf history m = .ok risk) ∧
        (¬m.Weighable → riskOf history m = .error .quotientRange)) := by
  refine ⟨?_, exists_refreshed h, fun before m rest cause => stopsAfter h.integral, ?_⟩
  · rw [refreshRisks_eq h.integral]
    exact sameButRisks_reweighed s history _
  · intro hcalls m hm hcomplexity hlines
    obtain ⟨hgives, hout⟩ :=
      gives_riskOf h.valid hcalls (h.integral.mem_methodList.1 hm) hcomplexity hlines history
    refine ⟨fun hweighable => ?_, hout⟩
    obtain ⟨risk, hrisk, -⟩ := hgives hweighable
    exact ⟨risk, hrisk⟩

/-- Three methods, the second of a given complexity. -/
def threeMethods (complexity : Int) : Store :=
  after
    [.putMethod { id := "a", name := "a" },
     .putMethod { id := "b", name := "b", complexity := .ofNumber (.int complexity) },
     .putMethod { id := "c", name := "c" }]

/-- With a complexity of 12, every method of the three has a risk; with `10 ^ 400`, the second has
    none. -/
theorem refreshRisks_exact_threeMethods :
    (∃ risks, (threeMethods 12).Reachable ∧
      ((threeMethods 12).refreshRisks (some { hotspotMethods := ["c"] })).2 = .ok risks ∧
      Refreshed (some { hotspotMethods := ["c"] }) (threeMethods 12)
        ((threeMethods 12).refreshRisks (some { hotspotMethods := ["c"] })).1 risks ∧
      risks.map (·.1) = ["a", "b", "c"]) ∧
    ∃ x y z, (threeMethods (pow10 400)).methodList = [x, y, z] ∧
      StopsAfter none (threeMethods (pow10 400)) [x] [y, z] .quotientRange := by
  constructor
  · have hkeys : (threeMethods 12).methods.keys = ["a", "b", "c"] := by decide +kernel
    have hnone : ∀ r ∈ (threeMethods 12).methodList.map fun m =>
        reason? (riskOf (some { hotspotMethods := ["c"] }) m), r = none := by
      decide +kernel
    have hr : (threeMethods 12).Reachable := reachable_after _
    obtain ⟨-, hexact, -⟩ := refreshRisks_exact hr (some { hotspotMethods := ["c"] })
    obtain ⟨risks, hrisks, hrefreshed⟩ :=
      hexact fun m hm => reason?_eq_none.1 (hnone _ (List.mem_map_of_mem hm))
    exact ⟨risks, hr, hrisks, hrefreshed, hrefreshed.ids.trans hkeys⟩
  · have hreasons : (threeMethods (pow10 400)).methodList.map (fun m => reason? (riskOf none m)) =
        [none, some .quotientRange, none] := by
      decide +kernel
    obtain ⟨x, xs, hlist, hx, hreasons⟩ := List.map_eq_cons_iff.1 hreasons
    obtain ⟨y, ys, rfl, hy, hreasons⟩ := List.map_eq_cons_iff.1 hreasons
    obtain ⟨z, zs, rfl, -, hreasons⟩ := List.map_eq_cons_iff.1 hreasons
    rw [List.map_eq_nil_iff.1 hreasons] at hlist
    obtain ⟨-, -, hstops, -⟩ :=
      refreshRisks_exact (reachable_after _ : (threeMethods _).Reachable) none
    refine ⟨x, y, z, hlist, hstops [x] y [z] .quotientRange hlist ?_ (reason?_eq_some.1 hy)⟩
    rw [List.forall_mem_singleton]
    exact reason?_eq_none.1 hx

/-- A complexity of `10 ^ 400` keeps refreshing from its end. The last of the three methods is left
    with a risk below the one that it has. -/
theorem threeMethods_left_stale :
    (threeMethods (pow10 400)).Reachable ∧
    ((threeMethods (pow10 400)).refreshRisks none).2 = .error .quotientRange ∧
    ∃ m risk, ((threeMethods (pow10 400)).refreshRisks none).1.method? "c" = some m ∧
      riskOf none m = .ok risk ∧ Json.holds .above risk m.riskScore = .ok true := by
  have hreason :
      reason? ((threeMethods (pow10 400)).refreshRisks none).2 = some .quotientRange := by
    decide +kernel
  have hstale : (((threeMethods (pow10 400)).refreshRisks none).1.method? "c").map (fun m =>
      (do Json.holds .above (← riskOf none m) m.riskScore).toOption) = some (some true) := by
    decide +kernel
  obtain ⟨m, hm, habove⟩ := Option.map_eq_some_iff.1 hstale
  have hok : ∀ {c : Except Failure Bool}, c.toOption = some true → c = .ok true := by
    intro c hc
    cases c with
    | error cause => exact nomatch hc
    | ok met => exact congrArg Except.ok (Option.some.inj hc)
  obtain ⟨risk, hrisk, habove⟩ := bind_eq_ok.1 (hok habove)
  exact ⟨reachable_after _, reason?_eq_some.1 hreason, m, risk, hm, hrisk, habove⟩

end Store
end PathTriage
