import PathTriage.Proofs.Store.Links

/-!
What a store holds after an operation on a whole file, table by table.

An analysis is read as three look-ups: the last method, class and call that it gives for an id or a
pair of ends. Each operation on files is then an equation between look-ups, without its loops:

  * `applyAnalysis` puts the look-ups of the analysis before those of the store;
  * `removeFile` filters out what the file owns;
  * `restore` puts the kept links before the stored ones;
  * `replaceFile` is the three in a row.

An analysis brings calls and no other links. So the replacement of a file may change a call, but it
only drops an implementation or a data flow that has lost an end (`SideTable.getElem?_replaceFile`).
-/

namespace PathTriage

/-- The method that a finding describes, in the given file unless it names another. -/
def MethodFinding.placedIn (f : MethodFinding) (filePath : String) : Method :=
  { f.toMethod with filePath := if f.filePath.isTrue then f.filePath else .string filePath }

namespace FileAnalysis

/-- The method that an analysis gives last for an id, without degrees. -/
def method? (a : FileAnalysis) (id : String) : Option Method :=
  (Table.lastWith Method.id id a.methodNodes).map Method.bare

/-- The class that an analysis gives last for an id. -/
def class? (a : FileAnalysis) (id : String) : Option ClassEntry :=
  Table.lastWith ClassEntry.id id a.classNodes

/-- The call that an analysis gives last for a pair of ends. -/
def call? (a : FileAnalysis) (ends : Arrow) : Option Call :=
  Table.lastWith Call.ends ends a.callLinks

/-- The method that an analysis gives for an id is the one of its last finding with the id. -/
theorem method?_eq (a : FileAnalysis) (id : String) :
    a.method? id =
      (Table.lastWith MethodFinding.id id a.methods).map (·.placedIn a.filePath) := by
  have hid : ∀ f : MethodFinding, Method.id
      (if f.toMethod.filePath.isTrue then f.toMethod
        else { f.toMethod with filePath := .string a.filePath }) = f.id := by
    intro f
    split <;> rfl
  have hplaced : ∀ f : MethodFinding, Method.bare
      (if f.toMethod.filePath.isTrue then f.toMethod
        else { f.toMethod with filePath := .string a.filePath }) = f.placedIn a.filePath := by
    intro f
    change Method.bare (if f.filePath.isTrue = true then _ else _) = _
    rw [MethodFinding.placedIn]
    split <;> rfl
  rw [method?, methodNodes, Table.lastWith_map, Option.map_map]
  simp only [hid]
  exact Option.map_congr fun f _ => hplaced f

end FileAnalysis

namespace Store

variable (s : Store)

/-! ## Runs of additions -/

/-- Of several methods with one id the last is stored, and a method that is not given stays. -/
theorem bare?_putMethods (ms : List Method) (id : String) :
    (ms.foldl putMethod s).bare? id =
      ((Table.lastWith Method.id id ms).map Method.bare).or (s.bare? id) := by
  have h := Table.foldl_view bare? (fun _ _ => true) putMethod Method.id Method.bare
    (fun s m id => by simpa using s.bare?_putMethod m id) (fun _ _ _ => rfl) ms id s
  simpa using h

/-- The same for classes. -/
theorem class?_putClasses (cs : List ClassEntry) (id : String) :
    (cs.foldl putClass s).class? id = (Table.lastWith ClassEntry.id id cs).or (s.class? id) := by
  have h := Table.foldl_view class? (fun _ _ => true) putClass ClassEntry.id (fun c => c)
    (fun s c id => by simpa using s.class?_putClass c id) (fun _ _ _ => rfl) cs id s
  simpa using h

/-- Of several calls with the same ends the last is stored. Calls come after methods, so what is
    known does not change between them. -/
theorem calls_addCalls (cs : List Call) (a : Arrow) :
    (cs.foldl addCall s).calls[a]? =
      if s.knows a = true then (Table.lastWith Call.ends a cs).or s.calls[a]? else s.calls[a]? := by
  have h := Table.foldl_view (fun s a => s.calls[a]?) knows addCall Call.ends (fun c => c)
    calls_addCall (fun s c a => knows_congr (s.bare?_addCall c) a) cs a s
  simpa using h

/-- Calls, classes and methods go into tables of their own, so each run leaves the other tables
    alone. -/
@[simp] theorem bare?_addCalls (cs : List Call) (id : String) :
    (cs.foldl addCall s).bare? id = s.bare? id :=
  foldl_unchanged (·.bare? id) (fun s c => s.bare?_addCall c id) cs s

@[simp] theorem classes_addCalls (cs : List Call) : (cs.foldl addCall s).classes = s.classes :=
  foldl_unchanged classes classes_addCall cs s

@[simp] theorem bare?_putClasses (cs : List ClassEntry) (id : String) :
    (cs.foldl putClass s).bare? id = s.bare? id :=
  foldl_unchanged (·.bare? id) (f := putClass) (fun _ _ => rfl) cs s

@[simp] theorem calls_putClasses (cs : List ClassEntry) :
    (cs.foldl putClass s).calls = s.calls :=
  foldl_unchanged calls (f := putClass) (fun _ _ => rfl) cs s

@[simp] theorem classes_putMethods (ms : List Method) :
    (ms.foldl putMethod s).classes = s.classes :=
  foldl_unchanged classes (f := putMethod) (fun _ _ => rfl) ms s

@[simp] theorem calls_putMethods (ms : List Method) : (ms.foldl putMethod s).calls = s.calls :=
  foldl_unchanged calls (f := putMethod) (fun _ _ => rfl) ms s

/-! ## Taking an analysis in -/

/-- The methods of an analysis come before the stored ones. -/
theorem bare?_putNodes (a : FileAnalysis) (id : String) :
    (s.putNodes a).bare? id = (a.method? id).or (s.bare? id) := by
  rw [putNodes, bare?_putMethods, bare?_putClasses, FileAnalysis.method?]

theorem class?_putNodes (a : FileAnalysis) (id : String) :
    (s.putNodes a).class? id = (a.class? id).or (s.class? id) := by
  have h : (s.putNodes a).class? id = (a.classNodes.foldl putClass s).class? id := by
    simp only [class?, putNodes, classes_putMethods]
  rw [h, class?_putClasses, FileAnalysis.class?]

theorem calls_putNodes (a : FileAnalysis) : (s.putNodes a).calls = s.calls := by
  simp only [putNodes, calls_putMethods, calls_putClasses]

/-- Taking an analysis in adds its methods or replaces what had their ids. -/
theorem bare?_applyAnalysis (a : FileAnalysis) (id : String) :
    (s.applyAnalysis a).bare? id = (a.method? id).or (s.bare? id) := by
  rw [applyAnalysis, bare?_addCalls, bare?_putNodes]

/-- The same for classes. -/
theorem class?_applyAnalysis (a : FileAnalysis) (id : String) :
    (s.applyAnalysis a).class? id = (a.class? id).or (s.class? id) := by
  have h : (s.applyAnalysis a).class? id = (s.putNodes a).class? id := by
    simp only [class?, applyAnalysis, classes_addCalls]
  rw [h, class?_putNodes]

/-- The calls that an analysis lists between known methods come before the stored ones. -/
theorem calls_applyAnalysis (a : FileAnalysis) (e : Arrow) :
    (s.applyAnalysis a).calls[e]? =
      if (s.applyAnalysis a).knows e = true then (a.call? e).or s.calls[e]? else s.calls[e]? := by
  have hknows : (s.applyAnalysis a).knows e = (s.putNodes a).knows e :=
    knows_congr (fun id => bare?_addCalls _ _ id) e
  rw [hknows, applyAnalysis, calls_addCalls, calls_putNodes, FileAnalysis.call?]

/-! ## Removing a file -/

/-- Without a file, the methods are left that are not in it. -/
theorem bare?_removeFile (filePath id : String) :
    (s.removeFile filePath).bare? id = (s.bare? id).filter fun m => !m.isIn filePath := by
  have h : (s.removeFile filePath).bare? id =
      ((s.methodsOf filePath).foldl removeMethod s).bare? id := rfl
  rw [h, bare?_removeMethods]
  simp only [mem_methodsOf, owns]
  cases s.bare? id with
  | none => simp
  | some m => cases hin : m.isIn filePath <;> simp [hin, Option.filter]

theorem classes_removeMethods (xs : List String) :
    (xs.foldl removeMethod s).classes = s.classes :=
  foldl_unchanged classes classes_removeMethod xs s

/-- And the classes that are not in it. -/
theorem class?_removeFile (filePath id : String) :
    (s.removeFile filePath).class? id = (s.class? id).filter fun c => !c.isIn filePath := by
  simp only [class?, removeFile, removeClassesOf, classes_removeMethods,
    Std.ExtTreeMap.getElem?_filter']

section Integral

variable {s} (h : s.Integral)

include h

theorem calls_removeMethods (xs : List String) (a : Arrow) :
    (xs.foldl removeMethod s).calls[a]? =
      if a.source ∈ xs ∨ a.target ∈ xs then none else s.calls[a]? :=
  LinkTable.ofCalls.getElem?_removeMethods h xs a

/-- And the calls at none of its methods. -/
theorem calls_removeFile (filePath : String) (a : Arrow) :
    (s.removeFile filePath).calls[a]? =
      if s.owns filePath a.source = true ∨ s.owns filePath a.target = true then none
      else s.calls[a]? :=
  LinkTable.ofCalls.getElem?_removeFile h filePath a

/-- The calls that are kept when a file is replaced, looked up by their ends. -/
theorem lastWith_kept (filePath : String) (a : Arrow) :
    Table.lastWith Call.ends a (s.kept (s.methodsOf filePath)).calls =
      if s.owns filePath a.target = true ∧ s.owns filePath a.source = false then s.calls[a]?
      else none := by
  have hends : ∀ a c, s.calls[a]? = some c → Call.ends c = a := fun a c hc => (h.calls a c hc).1
  have hlast := Table.lastWith_toList hends
    (fun a => s.owns filePath a.target && !s.owns filePath a.source) a
  simp only [kept, contains_methodsOf]
  rw [hlast]
  simp

end Integral

/-! ## Replacing a file -/

theorem bare?_restore (k : Kept) (id : String) : (s.restore k).bare? id = s.bare? id := by
  have hflows := foldl_unchanged methods methods_addDataFlow k.dataFlows
  have himpls := foldl_unchanged methods methods_addImplementation k.implementations
  rw [restore, bare?, method?, hflows, himpls]
  exact bare?_addCalls s k.calls id

theorem class?_restore (k : Kept) (id : String) : (s.restore k).class? id = s.class? id := by
  have hflows := foldl_unchanged classes classes_addDataFlow k.dataFlows
  have himpls := foldl_unchanged classes classes_addImplementation k.implementations
  rw [restore, class?, hflows, himpls, classes_addCalls, class?]

/-- What was kept is put back where both ends are known, in place of what is there. -/
theorem calls_restore (k : Kept) (a : Arrow) :
    (s.restore k).calls[a]? =
      if s.knows a = true then (Table.lastWith Call.ends a k.calls).or s.calls[a]?
      else s.calls[a]? := by
  have hflows := foldl_unchanged calls calls_addDataFlow k.dataFlows
  have himpls := foldl_unchanged calls calls_addImplementation k.implementations
  rw [restore, hflows, himpls, calls_addCalls]

/-- After a file is replaced, a method is as the analysis gives it, or else was there and not in the
    file. -/
theorem bare?_replaceFile (a : FileAnalysis) (id : String) :
    (s.replaceFile a).bare? id =
      (a.method? id).or ((s.bare? id).filter fun m => !m.isIn a.filePath) := by
  rw [replaceFile, bare?_restore, bare?_applyAnalysis, bare?_removeFile]

/-- The same for classes. -/
theorem class?_replaceFile (a : FileAnalysis) (id : String) :
    (s.replaceFile a).class? id =
      (a.class? id).or ((s.class? id).filter fun c => !c.isIn a.filePath) := by
  rw [replaceFile, class?_restore, class?_applyAnalysis, class?_removeFile]

/-- The calls after a file is replaced, among the methods that are then known. A call that leaves
    the file is up to the new analysis. One that enters it from outside is the stored one, if there
    was one, and any other is the stored one unless the analysis gives it anew. -/
theorem calls_replaceFile {s : Store} (h : s.Integral) (a : FileAnalysis) (e : Arrow) :
    (s.replaceFile a).calls[e]? =
      if (s.replaceFile a).knows e = true then
        if s.owns a.filePath e.source = true then a.call? e
        else if s.owns a.filePath e.target = true then s.calls[e]?.or (a.call? e)
        else (a.call? e).or s.calls[e]?
      else none := by
  have hintegral := integral_stable.replaceFile h a
  by_cases hknows : (s.replaceFile a).knows e = true
  · have happlied : ((s.removeFile a.filePath).applyAnalysis a).knows e = true := by
      rw [← hknows]
      exact (knows_congr (fun id => bare?_restore _ _ id) e).symm
    rw [if_pos hknows, replaceFile, calls_restore, if_pos happlied, calls_applyAnalysis,
      if_pos happlied, calls_removeFile h, lastWith_kept h]
    cases hsrc : s.owns a.filePath e.source
    · cases htgt : s.owns a.filePath e.target <;> simp
    · simp
  · -- what is stored is known
    rw [if_neg hknows]
    cases hc : (s.replaceFile a).calls[e]? with
    | none => rfl
    | some c => exact absurd (hintegral.calls e c hc).2 hknows

/-- A file that owns no method and no class takes nothing with it. -/
theorem removeFile_of_unowned {filePath : String} (hmethods : s.methodsOf filePath = [])
    (hclasses : ∀ id c, s.class? id = some c → c.isIn filePath = false) :
    s.removeFile filePath = s := by
  have hfilter : (s.classes.filter fun _ c => !c.isIn filePath) = s.classes := by
    refine Std.ExtTreeMap.ext_getElem? fun id => ?_
    rw [Std.ExtTreeMap.getElem?_filter']
    cases hc : s.classes[id]? with
    | none => rfl
    | some c => simp [Option.filter, hclasses id c hc]
  rw [removeFile, hmethods, List.foldl_nil, removeClassesOf, hfilter]

/-- A file owns nothing when its count says so. -/
theorem ownedCount_eq_zero {filePath : String} :
    s.ownedCount filePath = 0 ↔
      s.methodsOf filePath = [] ∧ ∀ id c, s.class? id = some c → c.isIn filePath = false := by
  have hclasses : s.classesOf filePath = [] ↔
      ∀ id c, s.class? id = some c → c.isIn filePath = false := by
    rw [classesOf, List.map_eq_nil_iff, List.filter_eq_nil_iff]
    simp only [Bool.not_eq_true, Prod.forall, Std.ExtTreeMap.mem_toList_iff_getElem?_eq_some]
    rfl
  rw [ownedCount, Nat.add_eq_zero_iff, List.length_eq_zero_iff, List.length_eq_zero_iff, hclasses]

/-- No method is in a file that owns nothing. -/
theorem not_isIn_of_unowned {filePath : String} (h : s.ownedCount filePath = 0) {id : String}
    {m : Method} (hm : s.method? id = some m) : m.isIn filePath = false := by
  refine Bool.eq_false_iff.2 fun hin => ?_
  have hid : id ∈ s.methodsOf filePath := by
    rw [mem_methodsOf, owns, bare?, hm]
    exact hin
  rw [((s.ownedCount_eq_zero).1 h).1] at hid
  cases hid

/-- A new file replaces nothing. -/
theorem replaceFile_of_unowned {a : FileAnalysis} (hmethods : s.methodsOf a.filePath = [])
    (hclasses : ∀ id c, s.class? id = some c → c.isIn a.filePath = false) :
    s.replaceFile a = s.applyAnalysis a := by
  have hkept : s.kept (s.methodsOf a.filePath) = ⟨[], [], []⟩ := by
    simp [kept, hmethods]
  rw [replaceFile, s.removeFile_of_unowned hmethods hclasses, hkept]
  rfl

/-! ## Links that no analysis brings -/

/-- A table of links that analyses leave alone. When a file is replaced, those of its links that are
    at a method of the file are kept. -/
structure SideTable (β : Type) extends LinkTable β where
  links : Kept → List β
  links_kept : ∀ (s : Store) (owned : List String), links (s.kept owned) =
    ((view s).toList.filter fun e =>
      owned.contains e.1.source || owned.contains e.1.target).map (·.2)
  view_applyAnalysis : ∀ (s : Store) (a : FileAnalysis), view (s.applyAnalysis a) = view s
  getElem?_restore : ∀ (s : Store) (k : Kept) (e : Arrow), (view (s.restore k))[e]? =
    if s.knows e = true then (Table.lastWith ends e (links k)).or (view s)[e]?
    else (view s)[e]?

/-- What neither nodes nor calls touch, an analysis leaves alone. -/
theorem view_applyAnalysis_of {ρ : Type} {view : Store → ρ}
    (hclass : ∀ s c, view (putClass s c) = view s) (hmethod : ∀ s m, view (putMethod s m) = view s)
    (hcall : ∀ s c, view (addCall s c) = view s) (a : FileAnalysis) :
    view (s.applyAnalysis a) = view s := by
  rw [applyAnalysis, foldl_unchanged view hcall, putNodes, foldl_unchanged view hmethod,
    foldl_unchanged view hclass]

theorem knows_addCalls (cs : List Call) (e : Arrow) : (cs.foldl addCall s).knows e = s.knows e :=
  knows_congr (fun id => bare?_addCalls s cs id) e

theorem knows_of_methods {s t : Store} (h : s.methods = t.methods) (e : Arrow) :
    s.knows e = t.knows e := by
  rw [knows, hasMethod, hasMethod, h, knows, hasMethod, hasMethod]

/-- Implementations that are put in one by one, the last of each ends. -/
theorem implementations_addImplementations (is : List Implementation) (e : Arrow) :
    (is.foldl addImplementation s).implementations[e]? =
      if s.knows e = true then (Table.lastWith Implementation.ends e is).or s.implementations[e]?
      else s.implementations[e]? := by
  have h := Table.foldl_view (fun s e => s.implementations[e]?) knows addImplementation
    Implementation.ends (fun i => i) implementations_addImplementation
    (fun s i e => knows_of_methods (s.methods_addImplementation i) e) is e s
  simpa using h

theorem dataFlows_addDataFlows (fs : List DataFlow) (e : Arrow) :
    (fs.foldl addDataFlow s).dataFlows[e]? =
      if s.knows e = true then (Table.lastWith DataFlow.ends e fs).or s.dataFlows[e]?
      else s.dataFlows[e]? := by
  have h := Table.foldl_view (fun s e => s.dataFlows[e]?) knows addDataFlow DataFlow.ends
    (fun f => f) dataFlows_addDataFlow (fun s f e => knows_of_methods (s.methods_addDataFlow f) e)
    fs e s
  simpa using h

namespace SideTable

/-- The table of implementations. -/
def ofImplementations : SideTable Implementation where
  toLinkTable := .ofImplementations
  links := Kept.implementations
  links_kept _ _ := rfl
  view_applyAnalysis s :=
    s.view_applyAnalysis_of (fun _ _ => rfl) (fun _ _ => rfl) implementations_addCall
  getElem?_restore s k e := by
    have hflows := foldl_unchanged implementations implementations_addDataFlow k.dataFlows
    have hcalls := foldl_unchanged implementations implementations_addCall k.calls s
    change (s.restore k).implementations[e]? = _
    rw [restore, hflows, implementations_addImplementations, knows_addCalls, hcalls]
    rfl

/-- The table of data flows. -/
def ofDataFlows : SideTable DataFlow where
  toLinkTable := .ofDataFlows
  links := Kept.dataFlows
  links_kept _ _ := rfl
  view_applyAnalysis s :=
    s.view_applyAnalysis_of (fun _ _ => rfl) (fun _ _ => rfl) dataFlows_addCall
  getElem?_restore s k e := by
    have himpls := foldl_unchanged dataFlows dataFlows_addImplementation k.implementations
    have hcalls := foldl_unchanged dataFlows dataFlows_addCall k.calls s
    have hknows := foldl_unchanged methods methods_addImplementation k.implementations
    change (s.restore k).dataFlows[e]? = _
    rw [restore, dataFlows_addDataFlows, knows_of_methods (hknows _), knows_addCalls, himpls,
      hcalls]
    rfl

/-- A link that no analysis brings outlives the replacement of a file exactly when its two ends do,
    and it does so as it was stored. -/
theorem getElem?_replaceFile {β : Type} (t : SideTable β) {s : Store} (h : s.Integral)
    (a : FileAnalysis) (e : Arrow) :
    (t.view (s.replaceFile a))[e]? =
      if (s.replaceFile a).knows e = true then (t.view s)[e]? else none := by
  by_cases hknows : (s.replaceFile a).knows e = true
  · have happlied : ((s.removeFile a.filePath).applyAnalysis a).knows e = true := by
      rw [← hknows]
      exact (knows_congr (fun id => bare?_restore _ _ id) e).symm
    have hkept := Table.lastWith_toList (fun e l hl => (t.linked h e l hl).1)
      (fun e => s.owns a.filePath e.source || s.owns a.filePath e.target) e
    rw [if_pos hknows, replaceFile, t.getElem?_restore, if_pos happlied, t.view_applyAnalysis,
      t.getElem?_removeFile h, t.links_kept]
    simp only [contains_methodsOf]
    rw [hkept]
    -- the link is either kept or not removed
    by_cases howned : s.owns a.filePath e.source = true ∨ s.owns a.filePath e.target = true
    · simp [howned]
    · simp [howned]
  · rw [if_neg hknows]
    exact t.getElem?_of_not_knows (integral_stable.replaceFile h a) hknows

end SideTable
end Store
end PathTriage
