import PathTriage.Proofs.Store.Effect
import PathTriage.Proofs.Store.Rebuild

/-!
Batches of file changes in another order.

Changes of different files meet in one place only: a call is taken in when both of its methods are
known, and one change may bring the method that another one's analysis calls. When each such method
is stored beforehand, two neighbours in the batch can be swapped (`agree_swap`), and so any order is
as good as any other (`agree_of_perm`). When one is not stored, the order in which caller and callee
arrive decides whether there is a call (`calls_of_ungrounded`).
-/

namespace PathTriage

theorem Json.eq_of_isText {v : Json} {a b : String} (ha : v.isText a = true)
    (hb : v.isText b = true) : a = b := by
  rw [Json.isText_iff] at ha hb
  rw [ha] at hb
  injection hb

/-- Changes of different files, each of which analyses its own file, lists nothing as deleted and
    brings no method that the store has as one of another file that is changed, too. A method that
    the store has from a file that no change is about, or from none, may come with any change. -/
@[mk_iff] structure Separate (find : String → FileAnalysis) (s : Store)
    (changes : List FileChange) : Prop where
  kinds : ∀ c ∈ changes, c.kind ≠ .renamed
  listed : ∀ c ∈ changes, c.deletedMethods = []
  paths : ∀ c ∈ changes, (c.brings find).filePath = c.filePath
  perFile : PerFile (changes.map (·.brings find))
  own : ∀ c ∈ changes, ∀ d ∈ changes, c.filePath ≠ d.filePath →
    ∀ id ∈ (c.brings find).methodIds, s.owns d.filePath id = false

instance (find : String → FileAnalysis) (s : Store) (changes : List FileChange) :
    Decidable (Separate find s changes) :=
  decidable_of_iff' _ (separate_iff find s changes)

/-- No change brings a call of a method that only another change brings. -/
def Grounded (find : String → FileAnalysis) (s : Store) (changes : List FileChange) : Prop :=
  ∀ c ∈ changes, ∀ d ∈ changes, c.filePath ≠ d.filePath → ∀ k ∈ (c.brings find).calls,
    k.callee ∈ (d.brings find).methodIds → s.hasMethod k.callee = true

instance (find : String → FileAnalysis) (s : Store) (changes : List FileChange) :
    Decidable (Grounded find s changes) :=
  inferInstanceAs (Decidable (∀ c ∈ changes, ∀ d ∈ changes, _))

namespace Store

/-! ## Two changes -/

/-- Two look-ups of which at most one finds something, and none finds what the other's filter
    rejects, can be put before a third one in either order. -/
theorem or_filter_swap {α : Type} {x y : Option α} {p q : α → Bool}
    (hx : ∀ a, x = some a → y = none ∧ q a = true) (hy : ∀ a, y = some a → p a = true)
    (o : Option α) :
    y.or ((x.or (o.filter p)).filter q) = x.or ((y.or (o.filter q)).filter p) := by
  cases x with
  | some a =>
    obtain ⟨rfl, hq⟩ := hx a rfl
    simp [hq]
  | none =>
    cases y with
    | some b => simp [Option.filter, hy b rfl]
    | none => simp [Option.filter_filter, Bool.and_comm]

section Two

variable {find : String → FileAnalysis} {s : Store} {changes : List FileChange}
  (h : Separate find s changes) {c d : FileChange} (hc : c ∈ changes) (hd : d ∈ changes)

include h hc

theorem bare?_change (s : Store) (id : String) :
    (s.changed find c).bare? id = ((c.brings find).method? id).or
      ((s.bare? id).filter fun m => !(c.clears && m.isIn c.filePath)) :=
  bare?_changed (h.kinds c hc) (h.listed c hc) (h.paths c hc) id

theorem hasMethod_change (s : Store) {id : String} :
    (s.changed find c).hasMethod id = true ↔
      id ∈ (c.brings find).methodIds ∨ s.hasMethod id = true ∧ s.takes c id = false :=
  hasMethod_changed (h.kinds c hc) (h.listed c hc) (h.paths c hc)

omit h in
theorem mem_brings : c.brings find ∈ changes.map (·.brings find) := List.mem_map_of_mem hc

/-- The methods that a change brings are in its file. -/
theorem isIn_of_brought {id : String} {m : Method} (hm : (c.brings find).method? id = some m)
    (path : String) : m.isIn path = true ↔ c.filePath = path := by
  rw [h.perFile.isIn_of_method? (mem_brings hc) hm path, h.paths c hc]

include hd

theorem brings_ne (hne : c.filePath ≠ d.filePath) : c.brings find ≠ d.brings find := by
  intro heq
  have hpaths : (c.brings find).filePath = (d.brings find).filePath := by rw [heq]
  rw [h.paths c hc, h.paths d hd] at hpaths
  exact hne hpaths

variable (hne : c.filePath ≠ d.filePath)

include hne

theorem not_brought_twice {id : String} (hid : id ∈ (c.brings find).methodIds) :
    id ∉ (d.brings find).methodIds := fun hid' =>
  brings_ne h hc hd hne (h.perFile.eq_of_method (mem_brings hc) (mem_brings hd) hid hid')

/-- What one file owns is not up to a change of another. -/
theorem owns_change (id : String) :
    (s.changed find c).owns d.filePath id = s.owns d.filePath id := by
  rw [owns, bare?_change h hc]
  cases hm : (c.brings find).method? id with
  | some m =>
    have hin : m.isIn d.filePath = false :=
      Bool.eq_false_iff.2 fun hin => hne ((isIn_of_brought h hc hm _).1 hin)
    have howns := h.own c hc d hd hne id (FileAnalysis.mem_methodIds hm)
    simp [hin, howns]
  | none =>
    rw [owns]
    cases hs : s.bare? id with
    | none => rfl
    | some m =>
      by_cases hin : (c.clears && m.isIn c.filePath) = true
      · -- it goes, and was not of the other file
        have hother : m.isIn d.filePath = false :=
          Bool.eq_false_iff.2 fun hin' =>
            hne (Json.eq_of_isText (Bool.and_eq_true _ _ ▸ hin).2 hin')
        simp [Option.filter, hin, hother]
      · simp [Option.filter, hin]

theorem takes_change (id : String) : (s.changed find c).takes d id = s.takes d id := by
  rw [takes, owns_change h hc hd hne, takes]

theorem takes_of_brought {id : String} (hid : id ∈ (c.brings find).methodIds) :
    s.takes d id = false := by
  rw [takes, h.own c hc d hd hne id hid, Bool.and_false]

/-- The methods that two changes leave, in either order. -/
theorem hasMethod_two {id : String} :
    ((s.changed find c).changed find d).hasMethod id = true ↔
      id ∈ (c.brings find).methodIds ∨ id ∈ (d.brings find).methodIds ∨
        s.hasMethod id = true ∧ s.takes c id = false ∧ s.takes d id = false := by
  rw [hasMethod_change h hd, hasMethod_change h hc, takes_change h hc hd hne]
  constructor
  · rintro (hid | ⟨hid | ⟨hid, hc'⟩, hd'⟩)
    · exact .inr (.inl hid)
    · exact .inl hid
    · exact .inr (.inr ⟨hid, hc', hd'⟩)
  · rintro (hid | hid | ⟨hid, hc', hd'⟩)
    · exact .inr ⟨.inl hid, takes_of_brought h hc hd hne hid⟩
    · exact .inl hid
    · exact .inr ⟨.inr ⟨hid, hc'⟩, hd'⟩

/-- What is stored before two changes and after them is there between them. -/
theorem hasMethod_between {id : String} (hbefore : s.hasMethod id = true)
    (hafter : ((s.changed find c).changed find d).hasMethod id = true) :
    (s.changed find c).hasMethod id = true := by
  rw [hasMethod_change h hc]
  rcases (hasMethod_two h hc hd hne).1 hafter with hid | hid | ⟨-, hkeep, -⟩
  · exact .inl hid
  · exact .inr ⟨hbefore, takes_of_brought h hd hc hne.symm hid⟩
  · exact .inr ⟨hbefore, hkeep⟩

theorem bare?_swap (id : String) :
    ((s.changed find c).changed find d).bare? id =
      ((s.changed find d).changed find c).bare? id := by
  rw [bare?_change h hd, bare?_change h hc, bare?_change h hc, bare?_change h hd]
  refine or_filter_swap ?_ ?_ (s.bare? id)
  · intro m hm
    constructor
    · rw [Option.eq_none_iff_forall_ne_some]
      intro n hn
      exact not_brought_twice h hc hd hne (FileAnalysis.mem_methodIds hm)
        (FileAnalysis.mem_methodIds hn)
    · have hin : m.isIn d.filePath = false :=
        Bool.eq_false_iff.2 fun hin => hne ((isIn_of_brought h hc hm _).1 hin)
      simp [hin]
  · intro m hm
    have hin : m.isIn c.filePath = false :=
      Bool.eq_false_iff.2 fun hin => hne ((isIn_of_brought h hd hm _).1 hin).symm
    simp [hin]

theorem class?_swap (id : String) :
    ((s.changed find c).changed find d).class? id =
      ((s.changed find d).changed find c).class? id := by
  have hclass : ∀ b ∈ changes, ∀ (t : Store),
      (t.changed find b).class? id = ((b.brings find).class? id).or
        ((t.class? id).filter fun k => !(b.clears && k.isIn b.filePath)) := fun b hb _ =>
    class?_changed (h.kinds b hb) (h.listed b hb) (h.paths b hb) id
  rw [hclass d hd, hclass c hc, hclass c hc, hclass d hd]
  refine or_filter_swap ?_ ?_ (s.class? id)
  · intro k hk
    constructor
    · rw [Option.eq_none_iff_forall_ne_some]
      intro n hn
      exact brings_ne h hc hd hne (h.perFile.eq_of_class (mem_brings hc) (mem_brings hd)
        (FileAnalysis.mem_classIds hk) (FileAnalysis.mem_classIds hn))
    · have hin : k.isIn d.filePath = false := Bool.eq_false_iff.2 fun hin =>
        hne (h.paths c hc ▸ (FileAnalysis.isIn_of_class? hk _).1 hin)
      simp [hin]
  · intro k hk
    have hin : k.isIn c.filePath = false := Bool.eq_false_iff.2 fun hin =>
      hne (h.paths d hd ▸ (FileAnalysis.isIn_of_class? hk _).1 hin).symm
    simp [hin]

theorem call?_of_brought {e : Arrow} (hsrc : e.source ∈ (c.brings find).methodIds) :
    (d.brings find).call? e = none := by
  rw [Option.eq_none_iff_forall_ne_some]
  intro k hk
  exact not_brought_twice h hc hd hne hsrc (h.perFile.source_of_call? (mem_brings hd) hk)

theorem settled_change (e : Arrow) (stored : Option Call) :
    (s.changed find c).settled find d e stored = s.settled find d e stored := by
  rw [settled, takes_change h hc hd hne, takes_change h hc hd hne, settled]

variable (hs : s.Integral) {e : Arrow}

include hs

/-- The call between two methods that are known after two changes. -/
theorem calls_two (hknown : ((s.changed find c).changed find d).knows e = true) :
    ((s.changed find c).changed find d).calls[e]? =
      s.settled find d e (s.changed find c).calls[e]? := by
  rw [calls_changed (h.kinds d hd) (h.listed d hd) (h.paths d hd) (hs.changed find c),
    if_pos hknown, settled_change h hc hd hne]

/-- Between two changes, a call that the first does not bring is the stored one, unless the first
    takes its caller out. -/
theorem calls_between (hknown : ((s.changed find c).changed find d).knows e = true)
    (hnone : (c.brings find).call? e = none) :
    (s.changed find c).calls[e]? = if s.takes c e.source = true then none else s.calls[e]? := by
  rw [calls_changed (h.kinds c hc) (h.listed c hc) (h.paths c hc) hs,
    settled_of_call?_eq_none hnone]
  cases hcall : s.calls[e]? with
  | none => simp
  | some k =>
    have hbefore := (s.knows_iff e).1 (hs.calls e k hcall).2
    have hafter := (knows_iff _ e).1 hknown
    have hbetween : (s.changed find c).knows e = true :=
      (knows_iff _ e).2 ⟨hasMethod_between h hc hd hne hbefore.1 hafter.1,
        hasMethod_between h hc hd hne hbefore.2 hafter.2⟩
    rw [if_pos hbetween]

/-- A call that the second of two changes brings. -/
theorem calls_second (hknown : ((s.changed find c).changed find d).knows e = true) {k : Call}
    (hk : (d.brings find).call? e = some k) :
    ((s.changed find c).changed find d).calls[e]? = s.settled find d e s.calls[e]? := by
  have hsrc : e.source ∈ (d.brings find).methodIds := h.perFile.source_of_call? (mem_brings hd) hk
  have hnone : (c.brings find).call? e = none := call?_of_brought h hd hc hne.symm hsrc
  have htakes : s.takes c e.source = false := takes_of_brought h hd hc hne.symm hsrc
  rw [calls_two h hc hd hne hs hknown, calls_between h hc hd hne hs hknown hnone, htakes]
  rfl

/-- A call that the first of two changes brings, when its callee does not wait for the second. -/
theorem calls_first (hg : Grounded find s changes)
    (hknown : ((s.changed find c).changed find d).knows e = true) {k : Call}
    (hk : (c.brings find).call? e = some k) :
    ((s.changed find c).changed find d).calls[e]? = s.settled find c e s.calls[e]? := by
  have hsrc : e.source ∈ (c.brings find).methodIds := h.perFile.source_of_call? (mem_brings hc) hk
  have hnone : (d.brings find).call? e = none := call?_of_brought h hc hd hne hsrc
  have htakes : s.takes d e.source = false := takes_of_brought h hc hd hne hsrc
  have hafter := ((knows_iff _ e).1 hknown).2
  have htgt : (s.changed find c).hasMethod e.target = true := by
    rcases (hasMethod_two h hc hd hne).1 hafter with hid | hid | ⟨hid, hkeep, -⟩
    · exact (hasMethod_change h hc s).2 (.inl hid)
    · obtain ⟨hmem, hends⟩ := Table.mem_of_lastWith hk
      obtain ⟨f, hf, rfl⟩ := List.mem_map.1 hmem
      have hcallee : f.callee = e.target := congrArg Arrow.target hends
      have hbefore : s.hasMethod e.target = true :=
        hcallee ▸ hg c hc d hd hne f hf (hcallee ▸ hid)
      exact hasMethod_between h hc hd hne hbefore hafter
    · exact (hasMethod_change h hc s).2 (.inr ⟨hid, hkeep⟩)
  have hbetween : (s.changed find c).knows e = true :=
    (knows_iff _ e).2 ⟨(hasMethod_change h hc s).2 (.inl hsrc), htgt⟩
  rw [calls_two h hc hd hne hs hknown, settled_of_call?_eq_none hnone, htakes,
    calls_changed (h.kinds c hc) (h.listed c hc) (h.paths c hc) hs, if_pos hbetween]
  rfl

theorem calls_swap (hg : Grounded find s changes) (e : Arrow) :
    ((s.changed find c).changed find d).calls[e]? =
      ((s.changed find d).changed find c).calls[e]? := by
  have hknows : ((s.changed find c).changed find d).knows e =
      ((s.changed find d).changed find c).knows e :=
    knows_congr (fun id => bare?_swap h hc hd hne id) e
  by_cases hknown : ((s.changed find c).changed find d).knows e = true
  · have hknown' : ((s.changed find d).changed find c).knows e = true := hknows ▸ hknown
    cases hk : (c.brings find).call? e with
    | some k =>
      rw [calls_first h hc hd hne hs hg hknown hk, calls_second h hd hc hne.symm hs hknown' hk]
    | none =>
      cases hk' : (d.brings find).call? e with
      | some k' =>
        rw [calls_second h hc hd hne hs hknown hk', calls_first h hd hc hne.symm hs hg hknown' hk']
      | none =>
        -- neither brings it: it stays unless one of them takes its caller out
        rw [calls_two h hc hd hne hs hknown, calls_two h hd hc hne.symm hs hknown',
          settled_of_call?_eq_none hk, settled_of_call?_eq_none hk',
          calls_between h hc hd hne hs hknown hk, calls_between h hd hc hne.symm hs hknown' hk']
        by_cases hc' : s.takes c e.source = true <;> simp [hc']
  · rw [((hs.changed find c).changed find d).calls_eq_none hknown,
      ((hs.changed find d).changed find c).calls_eq_none (hknows ▸ hknown)]

end Two

/-- Two changes of different files can be swapped. -/
theorem agree_swap {find : String → FileAnalysis} {s : Store} {changes : List FileChange}
    (hs : s.Valid) (h : Separate find s changes) (hg : Grounded find s changes)
    {c d : FileChange} (hc : c ∈ changes) (hd : d ∈ changes) (hne : c.filePath ≠ d.filePath) :
    Agree ((s.changed find c).changed find d) ((s.changed find d).changed find c) :=
  .of_content ((hs.changed find c).changed find d) ((hs.changed find d).changed find c)
    (bare?_swap h hc hd hne) (class?_swap h hc hd hne) (calls_swap h hc hd hne hs.integral hg)

/-! ## Batches -/

section Batch

variable {find : String → FileAnalysis} {s : Store} {c : FileChange}
  {changes changes' : List FileChange}

theorem filePath_ne_of_cons (h : Separate find s (c :: changes)) {d : FileChange}
    (hd : d ∈ changes) : c.filePath ≠ d.filePath := by
  have hpaths := h.perFile.paths
  rw [List.map_cons, List.map_cons, List.nodup_cons] at hpaths
  intro heq
  refine hpaths.1 (List.mem_map.2 ⟨d.brings find, List.mem_map_of_mem hd, ?_⟩)
  rw [h.paths d (List.mem_cons_of_mem c hd), h.paths c List.mem_cons_self, heq]

/-- After the first change, the others are still separate. -/
theorem separate_tail (h : Separate find s (c :: changes)) :
    Separate find (s.changed find c) changes where
  kinds d hd := h.kinds d (List.mem_cons_of_mem c hd)
  listed d hd := h.listed d (List.mem_cons_of_mem c hd)
  paths d hd := h.paths d (List.mem_cons_of_mem c hd)
  perFile := h.perFile.tail
  own d hd b hb hne id hid := by
    have hb' : b ∈ c :: changes := List.mem_cons_of_mem c hb
    rw [owns_change h List.mem_cons_self hb' (filePath_ne_of_cons h hb)]
    exact h.own d (List.mem_cons_of_mem c hd) b hb' hne id hid

theorem grounded_tail (h : Separate find s (c :: changes)) (hg : Grounded find s (c :: changes)) :
    Grounded find (s.changed find c) changes := by
  intro b hb d hd hne k hk hid
  have hb' : b ∈ c :: changes := List.mem_cons_of_mem c hb
  have hd' : d ∈ c :: changes := List.mem_cons_of_mem c hd
  refine (hasMethod_change h List.mem_cons_self s).2 (.inr ⟨hg b hb' d hd' hne k hk hid, ?_⟩)
  exact takes_of_brought h hd' List.mem_cons_self (filePath_ne_of_cons h hd).symm hid

theorem separate_of_perm (hperm : changes.Perm changes') (h : Separate find s changes) :
    Separate find s changes' where
  kinds d hd := h.kinds d (hperm.mem_iff.2 hd)
  listed d hd := h.listed d (hperm.mem_iff.2 hd)
  paths d hd := h.paths d (hperm.mem_iff.2 hd)
  perFile := h.perFile.of_perm (hperm.map _)
  own d hd b hb := h.own d (hperm.mem_iff.2 hd) b (hperm.mem_iff.2 hb)

theorem grounded_of_perm (hperm : changes.Perm changes') (h : Grounded find s changes) :
    Grounded find s changes' := fun c hc d hd =>
  h c (hperm.mem_iff.2 hc) d (hperm.mem_iff.2 hd)

theorem agree_foldl (h : Separate find s changes) :
    ∀ {t u : Store}, Agree t u → t.Valid → u.Valid →
      Agree (changes.foldl (changed find) t) (changes.foldl (changed find) u) := by
  induction changes generalizing s with
  | nil => intro t u hagree _ _; exact hagree
  | cons c changes ih =>
    intro t u hagree ht hu
    have hc : c ∈ c :: changes := List.mem_cons_self
    exact ih (separate_tail h)
      (hagree.changed (h.kinds c hc) (h.listed c hc) (h.paths c hc) ht hu)
      (ht.changed find c) (hu.changed find c)

/-- A grounded batch leaves the same in every order. -/
theorem agree_of_perm (hperm : changes.Perm changes') :
    ∀ {s : Store}, s.Valid → Separate find s changes → Grounded find s changes →
      Agree (changes.foldl (changed find) s) (changes'.foldl (changed find) s) := by
  induction hperm with
  | nil => intro s _ _ _; exact .refl s
  | cons c _ ih =>
    intro s hs h hg
    exact ih (hs.changed find c) (separate_tail h) (grounded_tail h hg)
  | swap d c changes =>
    intro s hs h hg
    have hcd : c.filePath ≠ d.filePath := filePath_ne_of_cons h List.mem_cons_self
    have hc : c ∈ c :: d :: changes := List.mem_cons_self
    have hd : d ∈ c :: d :: changes := List.mem_cons_of_mem c List.mem_cons_self
    exact agree_foldl (separate_tail (separate_tail h)) (agree_swap hs h hg hc hd hcd)
      ((hs.changed find c).changed find d) ((hs.changed find d).changed find c)
  | trans hfirst _ ih ih' =>
    intro s hs h hg
    exact (ih hs h hg).trans
      (ih' hs (separate_of_perm hfirst h) (grounded_of_perm hfirst hg))

/-- A call between known methods outlives the changes that neither bring it nor take out one of its
    ends. -/
theorem calls_foldl {e : Arrow} :
    ∀ {s : Store}, s.Integral → Separate find s changes → s.knows e = true →
      (∀ b ∈ changes, (b.brings find).call? e = none ∧ s.takes b e.source = false ∧
        s.takes b e.target = false) →
      (changes.foldl (changed find) s).calls[e]? = s.calls[e]? := by
  induction changes with
  | nil => intro s _ _ _ _; rfl
  | cons c changes ih =>
    intro s hs h hknown hfar
    have hc : c ∈ c :: changes := List.mem_cons_self
    obtain ⟨hnone, hsrc, htgt⟩ := hfar c hc
    have hends := (s.knows_iff e).1 hknown
    have hknown' : (s.changed find c).knows e = true :=
      (knows_iff _ e).2 ⟨(hasMethod_change h hc s).2 (.inr ⟨hends.1, hsrc⟩),
        (hasMethod_change h hc s).2 (.inr ⟨hends.2, htgt⟩)⟩
    rw [List.foldl_cons, ih (hs.changed find c) (separate_tail h) hknown',
      calls_changed (h.kinds c hc) (h.listed c hc) (h.paths c hc) hs, if_pos hknown',
      settled_of_call?_eq_none hnone, hsrc]
    · rfl
    · intro b hb
      have hne := filePath_ne_of_cons h hb
      have hb' : b ∈ c :: changes := List.mem_cons_of_mem c hb
      rw [takes_change h hc hb' hne, takes_change h hc hb' hne]
      exact hfar b hb'

/-- Two changes settle a call that no later change says anything about. -/
theorem calls_foldl_two (hs : s.Integral) {d : FileChange}
    (h : Separate find s (c :: d :: changes)) {e : Arrow}
    (hknown : ((s.changed find c).changed find d).knows e = true)
    (hfar : ∀ b ∈ changes, (b.brings find).call? e = none ∧
      s.takes b e.source = false ∧ s.takes b e.target = false) :
    ((c :: d :: changes).foldl (changed find) s).calls[e]? =
      ((s.changed find c).changed find d).calls[e]? := by
  refine calls_foldl ((hs.changed find c).changed find d) (separate_tail (separate_tail h))
    hknown fun b hb => ?_
  have hcb : c.filePath ≠ b.filePath := filePath_ne_of_cons h (List.mem_cons_of_mem d hb)
  have hdb : d.filePath ≠ b.filePath := filePath_ne_of_cons (separate_tail h) hb
  have hb' : b ∈ d :: changes := List.mem_cons_of_mem d hb
  -- what a change takes is the same before and after the two
  have hfirst := takes_change h List.mem_cons_self (List.mem_cons_of_mem c hb') hcb
  have hsecond := takes_change (separate_tail h) List.mem_cons_self hb' hdb
  rw [hsecond, hfirst, hsecond, hfirst]
  exact hfar b hb

/-- The call of a method that only a later change brings is lost, and it is kept when the callee
    comes first. -/
theorem calls_of_ungrounded (hs : s.Integral) {d : FileChange}
    (h : Separate find s (c :: d :: changes)) {k : CallFinding} (hk : k ∈ (c.brings find).calls)
    (hid : k.callee ∈ (d.brings find).methodIds) (hnew : s.hasMethod k.callee = false) :
    ((c :: d :: changes).foldl (changed find) s).calls[k.toCall.ends]? = none ∧
      ((d :: c :: changes).foldl (changed find) s).calls[k.toCall.ends]? ≠ none := by
  have hc : c ∈ c :: d :: changes := List.mem_cons_self
  have hd : d ∈ c :: d :: changes := List.mem_cons_of_mem c List.mem_cons_self
  have hne : c.filePath ≠ d.filePath := filePath_ne_of_cons h List.mem_cons_self
  have h' : Separate find s (d :: c :: changes) := separate_of_perm (.swap d c changes) h
  have hsrc : k.toCall.ends.source ∈ (c.brings find).methodIds :=
    h.perFile.callers _ (mem_brings hc) k hk
  have htgt : k.toCall.ends.target ∈ (d.brings find).methodIds := hid
  have hnone : (d.brings find).call? k.toCall.ends = none := call?_of_brought h hc hd hne hsrc
  have hknown : ((s.changed find c).changed find d).knows k.toCall.ends = true :=
    (knows_iff _ _).2 ⟨(hasMethod_two h hc hd hne).2 (.inl hsrc),
      (hasMethod_two h hc hd hne).2 (.inr (.inl htgt))⟩
  have hknown' : ((s.changed find d).changed find c).knows k.toCall.ends = true := by
    rw [← hknown]
    exact knows_congr (fun id => (bare?_swap h hc hd hne id).symm) _
  -- no other change says anything about the call
  have hfar : ∀ b ∈ changes, (b.brings find).call? k.toCall.ends = none ∧
      s.takes b k.toCall.ends.source = false ∧ s.takes b k.toCall.ends.target = false := by
    intro b hb
    have hb' : b ∈ c :: d :: changes := List.mem_cons_of_mem c (List.mem_cons_of_mem d hb)
    have hcb : c.filePath ≠ b.filePath := filePath_ne_of_cons h (List.mem_cons_of_mem d hb)
    have hdb : d.filePath ≠ b.filePath := filePath_ne_of_cons h' (List.mem_cons_of_mem c hb)
    exact ⟨call?_of_brought h hc hb' hcb hsrc, takes_of_brought h hc hb' hcb hsrc,
      takes_of_brought h hd hb' hdb htgt⟩
  rw [calls_foldl_two hs h hknown hfar, calls_foldl_two hs h' hknown' hfar,
    calls_two h hc hd hne hs hknown, calls_two h hd hc hne.symm hs hknown']
  constructor
  · -- when the caller comes first, the callee is not known yet
    have hunknown : ¬(s.changed find c).knows k.toCall.ends = true := by
      rw [knows_iff, hasMethod_change h hc, hasMethod_change h hc]
      rintro ⟨-, hin | ⟨hin, -⟩⟩
      · exact not_brought_twice h hd hc hne.symm htgt hin
      · exact absurd hin (by rw [show k.toCall.ends.target = k.callee from rfl, hnew]; decide)
    rw [(hs.changed find c).calls_eq_none hunknown, settled_of_call?_eq_none hnone, ite_self]
  · obtain ⟨call, hcall⟩ : ∃ call, (c.brings find).call? k.toCall.ends = some call :=
      Table.exists_lastWith.2 ⟨k.toCall, List.mem_map_of_mem hk, rfl⟩
    rw [settled, hcall]
    split
    · simp
    · split <;> simp

/-- **When the order of a batch matters.** Take changes of different files, each of which analyses
    its own file and brings no method that the store has as one of another file of the batch. All
    orders of the batch leave the same methods, classes and calls exactly when no change brings a
    call of a method that is new with another change. -/
theorem update_perm_iff (hs : s.Reachable) (h : Separate find s changes) :
    (∀ changes', changes'.Perm changes →
      Agree (s.update (some (.always find)) changes').store
        (s.update (some (.always find)) changes).store) ↔
      Grounded find s changes := by
  have hstore : ∀ l, (s.update (some (.always find)) l).store = l.foldl (changed find) s :=
    fun l => update_store l
  simp only [hstore]
  constructor
  · intro hall c hc d hd hne k hk hid
    by_contra hnew
    -- put the caller and the callee first, in the two orders
    classical
    have hd' : d ∈ changes.erase c :=
      (List.mem_erase_of_ne fun heq => hne (congrArg FileChange.filePath heq.symm)).2 hd
    have hperm : changes.Perm (c :: d :: (changes.erase c).erase d) :=
      (List.perm_cons_erase hc).trans ((List.perm_cons_erase hd').cons c)
    have hswap := hperm.trans (.swap d c ((changes.erase c).erase d))
    have hlost := calls_of_ungrounded hs.valid.integral (separate_of_perm hperm h) hk hid
      (Bool.not_eq_true _ ▸ hnew)
    apply hlost.2
    rw [(hall _ hswap.symm).calls, ← (hall _ hperm.symm).calls]
    exact hlost.1
  · intro hg changes' hperm
    exact (agree_of_perm hperm.symm hs.valid h hg).symm

end Batch

/-- The analysis of each file of a small project. -/
def analyses : String → FileAnalysis
  | "parser" => parserFile
  | "server" => serverFile
  | path => { filePath := path }

/-- A store of two files, one of which is about to go. -/
def parserAndMain : Store := after [.applyAnalysis parserFile, .applyAnalysis mainFile]

/-- A change of each kind. -/
def oneOfEach : List FileChange :=
  [{ filePath := "server", kind := .added }, { filePath := "parser", kind := .modified },
    { filePath := "main", kind := .deleted }]

theorem update_perm_iff_oneOfEach :
    parserAndMain.Reachable ∧ Separate analyses parserAndMain oneOfEach ∧
      Grounded analyses parserAndMain oneOfEach ∧
      Agree (parserAndMain.update (some (.always analyses)) oneOfEach.reverse).store
        (parserAndMain.update (some (.always analyses)) oneOfEach).store := by
  have hr : parserAndMain.Reachable := reachable_after _
  have hsep : Separate analyses parserAndMain oneOfEach := by decide +kernel
  have hg : Grounded analyses parserAndMain oneOfEach := by decide +kernel
  exact ⟨hr, hsep, hg, (update_perm_iff hr hsep).2 hg _ (List.reverse_perm _)⟩

/-- Two new files, of which the first calls methods of the second. -/
def callerFirst : List FileChange :=
  [{ filePath := "server", kind := .added }, { filePath := "parser", kind := .added }]

/-- The order of new files matters: a call is lost when its caller comes before its callee. -/
theorem update_loses_call_of_later_file :
    empty.Reachable ∧ Separate analyses .empty callerFirst ∧
      (empty.update (some (.always analyses)) callerFirst).store.hasCall "serve" "parse" = false ∧
      (empty.update (some (.always analyses)) callerFirst.reverse).store.hasCall "serve" "parse" =
        true :=
  ⟨.empty, by decide +kernel, by decide +kernel, by decide +kernel⟩

end Store
end PathTriage
