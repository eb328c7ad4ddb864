import PathTriage.Command.Run
import PathTriage.Proofs.Outcome

/-!
The files that a request reads, and what is wrong with them.

A file that is missing, is no JSON or does not have the right shape is refused. Only three things
make a run break off over a file: bytes that encode no text, JSON that goes beyond a limit of the
reader, and a name that no file can have. They are told from the entry alone (`FileEntry.Breaks`).
Files are read one after the other, and the first one that cannot be used decides
(`answer_of_error`).
-/

namespace PathTriage

open Outcome

/-! ## Entries -/

/-- What makes a program break off over what a path leads to, when it is read as JSON or as
    lines. -/
def FileEntry.Breaks (isJson : Bool) (entry : FileEntry) : FileFault → Prop
  | .notText => ∃ bytes, entry = .file bytes ∧ ∀ text : String, text.toUTF8 ≠ bytes
  | .limit l => isJson = true ∧ ∃ text : String, entry = .file text.toUTF8 ∧
      Json.read (Text.Lines.newlines text.toList) = .error (.limit l)
  | .invalidName => entry = .invalidName
  | .nameTooLong => False

/-- Bytes decode to a text exactly when they are its encoding. -/
theorem fromUTF8?_eq_some {bytes : ByteArray} {text : String} :
    String.fromUTF8? bytes = some text ↔ text.toUTF8 = bytes := by
  unfold String.fromUTF8?
  constructor
  · intro h
    split at h
    · cases h
      rfl
    · cases h
  · rintro rfl
    rw [String.toUTF8_eq_toByteArray, dif_pos text.isValidUTF8]
    rfl

namespace FileEntry

variable {path : String} {entry : FileEntry} {e : FileFault}

/-- A file can be read when its bytes are those of a text. -/
theorem readChars_eq_ok {cs : List Char} : entry.readChars path = .ok cs ↔
    ∃ text : String, entry = .file text.toUTF8 ∧ cs = Text.Lines.newlines text.toList := by
  cases entry with
  | file bytes =>
    simp only [readChars]
    cases htext : String.fromUTF8? bytes with
    | some text =>
      -- bytes are the encoding of one text at most
      have hbytes := fromUTF8?_eq_some.1 htext
      constructor
      · rintro ⟨⟩
        exact ⟨text, by rw [hbytes], rfl⟩
      · rintro ⟨text', heq, rfl⟩
        cases heq
        rw [fromUTF8?_eq_some.2 rfl] at htext
        cases htext
        rfl
    | none =>
      constructor
      · nofun
      · rintro ⟨text, heq, -⟩
        cases heq
        rw [fromUTF8?_eq_some.2 rfl] at htext
        cases htext
  | _ => simp [readChars]

/-- And it breaks the command when they are not, or when its name is no name. -/
theorem readChars_eq_fault : entry.readChars path = .error (.fault e) ↔ entry.Breaks false e := by
  cases entry with
  | file bytes =>
    have hnone : String.fromUTF8? bytes = none ↔ ∀ text : String, text.toUTF8 ≠ bytes := by
      rw [Option.eq_none_iff_forall_ne_some]
      simp only [ne_eq, fromUTF8?_eq_some]
    cases htext : String.fromUTF8? bytes with
    | some text =>
      have hbytes := fromUTF8?_eq_some.1 htext
      cases e <;> simp [readChars, Breaks, htext]
      exact ⟨text, hbytes⟩
    | none =>
      have hall := hnone.1 htext
      cases e <;> simp [readChars, Breaks, htext]
      exact hall
  | _ => cases e <;> simp [readChars, Breaks]

/-- JSON text breaks the reader exactly when it goes beyond a limit. -/
theorem breaks_text {text : String} : (file text.toUTF8).Breaks true e ↔
    ∃ l, e = .limit l ∧ Json.read (Text.Lines.newlines text.toList) = .error (.limit l) := by
  cases e with
  | notText =>
    constructor
    · rintro ⟨_, ⟨⟩, hall⟩
      exact absurd rfl (hall text)
    · rintro ⟨l, hl, -⟩
      cases hl
  | limit l =>
    constructor
    · rintro ⟨-, text', heq, hread⟩
      -- two texts with the same bytes are the same text
      cases (fromUTF8?_eq_some.2 rfl).symm.trans (fromUTF8?_eq_some.2 (file.inj heq.symm))
      exact ⟨l, rfl, hread⟩
    · rintro ⟨_, ⟨⟩, hread⟩
      exact ⟨rfl, text, rfl, hread⟩
  | invalidName => simp [Breaks]
  | nameTooLong => simp [Breaks]

/-- A JSON text breaks the command also by its depth or by the length of an integer. -/
theorem readJson_eq_fault : entry.readJson path = .error (.fault e) ↔ entry.Breaks true e := by
  unfold readJson
  cases hread : entry.readChars path with
  | error cause =>
    -- without a text there is nothing that could go beyond a limit
    have hlimit : ∀ l, ¬entry.Breaks true (.limit l) := by
      rintro l ⟨-, text, rfl, -⟩
      rw [readChars_eq_ok.2 ⟨text, rfl, rfl⟩] at hread
      cases hread
    have hchars : entry.readChars path = .error (.fault e) ↔ entry.Breaks false e :=
      readChars_eq_fault
    rw [hread] at hchars
    refine Iff.trans (by simp) (hchars.trans ?_)
    cases e with
    | limit l => simpa [Breaks] using hlimit l
    | _ => rfl
  | ok cs =>
    obtain ⟨text, rfl, rfl⟩ := readChars_eq_ok.1 hread
    rw [breaks_text]
    dsimp only
    cases hjson : Json.read (Text.Lines.newlines text.toList) with
    | ok v => simp [Except.mapError]
    | error cause => cases cause <;> simp [Except.mapError, DocumentError.ofRead, eq_comm]

end FileEntry

namespace Command

/-! ## Inputs -/

/-- A file that a request reads, by what is to be in it. -/
inductive Input where
  | analyses (path : String)
  | changes (path : String)
  | commits (path : String)
  | changedMethods (path : String)

namespace Input

/-- Where an input is. -/
def path : Input → String
  | .analyses path | .changes path | .commits path | .changedMethods path => path

/-- Whether an input is read as JSON; the other kind is read line by line. -/
def isJson : Input → Bool
  | .changedMethods _ => false
  | _ => true

/-- Why an input cannot be used, if it cannot. -/
def error? (look : String → FileEntry) : Input → Option LoadError
  | .analyses path => reason? (Command.analyses path (look path))
  | .changes path => reason? (Command.changes path (look path))
  | .commits path => reason? (Command.commits path (look path))
  | .changedMethods path => reason? (Command.changedMethods path (look path))

/-- Records that are not there or of the wrong shape are refused. -/
theorem records_eq_fault {α : Type} {title field : String} {check : Payload.Check α} {path : String}
    {entry : FileEntry} {e : FileFault} :
    records title field check path entry = .error (.fault e) ↔ entry.Breaks true e := by
  refine Iff.trans ?_ (FileEntry.readJson_eq_fault : entry.readJson path = _ ↔ _)
  unfold records
  cases entry.readJson path with
  | error cause => cases cause <;> simp [LoadError.ofDocument]
  | ok v =>
    dsimp only
    split <;> simp

/-- A run breaks off over an input for what is in the file or in its name, not for its shape. -/
theorem error?_eq_fault {look : String → FileEntry} {i : Input} {e : FileFault} :
    i.error? look = some (.fault e) ↔ (look i.path).Breaks i.isJson e := by
  cases i with
  | changedMethods path =>
    have hchars : (look path).readChars path = .error (.fault e) ↔ (look path).Breaks false e :=
      FileEntry.readChars_eq_fault
    refine reason?_eq_some.trans (Iff.trans ?_ hchars)
    unfold Command.changedMethods
    cases (look path).readChars path with
    | error cause => cases cause <;> simp [LoadError.ofDocument]
    | ok cs => simp
  | _ => exact reason?_eq_some.trans records_eq_fault

end Input

/-! ## Requests -/

/-- An input whose name may be left out. -/
def optionalInput (input : String → Input) (path : String) : List Input :=
  if path.isEmpty then [] else [input path]

/-- The files that a question reads beside the call graph. -/
def GraphQuery.inputs : GraphQuery → List Input
  | .update changesFile analysisFile _ =>
    .changes changesFile :: optionalInput .analyses analysisFile
  | _ => []

/-- The files that a request reads, in the order in which it does. -/
def Request.inputs : Request → List Input
  | .analysis r => .analyses r.graph :: (optionalInput .commits r.commits ++
      optionalInput (fun path => .changedMethods (Path.tidy path)) r.changedFile)
  | .graph file query => .analyses file :: query.inputs
  | .settings => []

/-- Why a request cannot be answered from its files, if it cannot: the first error counts. -/
def Request.error? (look : String → FileEntry) (r : Request) : Option LoadError :=
  r.inputs.findSome? (·.error? look)

/-- A run breaks off over the first file that cannot be used. -/
def Request.BreaksOver (look : String → FileEntry) (r : Request) (e : FileFault) : Prop :=
  ∃ before i after, r.inputs = before ++ i :: after ∧ (∀ j ∈ before, j.error? look = none) ∧
    (look i.path).Breaks i.isJson e

theorem Request.error?_eq_fault {look : String → FileEntry} {r : Request} {e : FileFault} :
    r.error? look = some (.fault e) ↔ r.BreaksOver look e := by
  rw [error?, List.findSome?_eq_some_iff]
  constructor
  · rintro ⟨before, i, after, hinputs, hi, hbefore⟩
    exact ⟨before, i, after, hinputs, hbefore, Input.error?_eq_fault.1 hi⟩
  · rintro ⟨before, i, after, hinputs, hbefore, hi⟩
    exact ⟨before, i, after, hinputs, Input.error?_eq_fault.2 hi, hbefore⟩

/-! ## Loading -/

/-- The reply to a request whose files cannot be used. -/
def LoadError.reply (complaint : String) (events : List Event) : LoadError → Except Fault Reply
  | .fault e => .error (.file e)
  | .refused message => .ok (.refusal (complaint ++ ": " ++ message) events)

section Loading

variable {α β : Type}

theorem run_bind {ε : Type} (x : ExceptT ε Id α) (f : α → ExceptT ε Id β) :
    (x >>= f).run.run = x.run.run >>= fun a => (f a).run.run := by
  change Except ε α at x
  cases x <;> rfl

theorem run_bind_eq_ok {ε : Type} {x : ExceptT ε Id α} {f : α → ExceptT ε Id β} {b : β} :
    (x >>= f).run.run = .ok b ↔ ∃ a, x.run.run = .ok a ∧ (f a).run.run = .ok b := by
  rw [run_bind, bind_eq_ok]

variable {complaint : String} {events : List Event} {loaded : ExceptT LoadError Id α}
  {next : α → ExceptT Fault Id Reply}

/-- What is loaded is passed on, and an error in loading is the end of the command. -/
theorem withLoaded_ok {a : α} (h : loaded.run.run = .ok a) :
    (withLoaded complaint events loaded next).run.run = (next a).run.run := by
  change loaded = Except.ok a at h
  subst h
  rfl

theorem withLoaded_error {e : LoadError} (h : loaded.run.run = .error e) :
    (withLoaded complaint events loaded next).run.run = e.reply complaint events := by
  change loaded = Except.error e at h
  subst h
  cases e <;> rfl

variable {look : String → FileEntry}

/-- When the rest fails in the same way whatever came before, the first failure counts. -/
theorem reason?_run_bind {ε : Type} {x : ExceptT ε Id α} {f : α → ExceptT ε Id β} {k : Option ε}
    (h : ∀ a, reason? (f a).run.run = k) :
    reason? (x >>= f).run.run = (reason? x.run.run).or k := by
  rw [run_bind]
  change Except ε α at x
  cases x with
  | ok a => exact h a
  | error e => rfl

theorem findSome?_error?_cons (i : Input) (rest : List Input) :
    (i :: rest).findSome? (·.error? look) =
      (i.error? look).or (rest.findSome? (·.error? look)) := by
  rw [← List.singleton_append, List.findSome?_append, List.findSome?_singleton]

/-- A file that is not named is not looked at. -/
theorem reason?_loadOr (usual : α) {read : String → FileEntry → Except LoadError α}
    {input : String → Input} {path : String}
    (hinput : (input path).error? look = reason? (read path (look path))) :
    reason? (loadOr (m := Id) look usual read path).run.run =
      (optionalInput input path).findSome? (·.error? look) := by
  unfold loadOr optionalInput
  split
  · rfl
  · rw [List.findSome?_singleton, hinput]
    rfl

theorem reason?_loadListed (path : String) : reason? (loadListed (m := Id) look path).run.run =
    (optionalInput (fun path => .changedMethods (Path.tidy path)) path).findSome?
      (·.error? look) := by
  unfold loadListed optionalInput
  split
  · rfl
  · rw [List.findSome?_singleton]
    rfl

/-- An analysis stops at the first of its files, in the order of reading, that has an error. -/
theorem reason?_analysisInputs (r : AnalysisRequest) :
    reason? (analysisInputs (m := Id) look r).run.run = (Request.analysis r).error? look := by
  have hcommits : reason? (loadOr (m := Id) look [] commits r.commits).run.run =
      (optionalInput .commits r.commits).findSome? (·.error? look) := reason?_loadOr [] rfl
  rw [Request.error?, Request.inputs, findSome?_error?_cons, List.findSome?_append,
    ← reason?_loadListed, ← hcommits]
  refine reason?_run_bind fun files => reason?_run_bind fun commits => ?_
  refine (reason?_run_bind (k := none) fun listed => rfl).trans ?_
  rw [Option.or_none]

/-- An update likewise: the changes come first. -/
theorem reason?_updateInputs (changesFile analysisFile : String) (top : Json) :
    reason? (updateInputs (m := Id) look changesFile analysisFile).run.run =
      (GraphQuery.update changesFile analysisFile top).inputs.findSome? (·.error? look) := by
  have hanalyzer : reason? (loadOr (m := Id) look none (fun path entry =>
      (analyses path entry).map fun files => some (analyzerOf files)) analysisFile).run.run =
        (optionalInput .analyses analysisFile).findSome? (·.error? look) := by
    refine reason?_loadOr none ?_
    rw [Input.error?]
    cases analyses analysisFile (look analysisFile) <;> rfl
  rw [GraphQuery.inputs, findSome?_error?_cons, ← hanalyzer]
  refine reason?_run_bind fun changes => ?_
  refine (reason?_run_bind (k := none) fun analyzer => rfl).trans ?_
  rw [Option.or_none]

/-- The analyzer of an update answers from the analyses that were read, if any were. -/
theorem analyzer_of_updateInputs {changesFile analysisFile : String} {changes : List FileChange}
    {analyzer : Option Analyzer}
    (h : (updateInputs (m := Id) look changesFile analysisFile).run.run = .ok (changes, analyzer)) :
    ∃ more : Option (List FileAnalysis), analyzer = more.map analyzerOf ∧
      ∀ files, more = some files →
        Input.analyses analysisFile ∈ optionalInput .analyses analysisFile ∧
          analyses analysisFile (look analysisFile) = .ok files := by
  obtain ⟨_, -, h⟩ := run_bind_eq_ok.1 h
  obtain ⟨_, hanalyzer, h⟩ := run_bind_eq_ok.1 h
  cases h
  -- a file without a name is not read, and then there is no analyzer
  unfold loadOr at hanalyzer
  unfold optionalInput
  split at hanalyzer
  · cases hanalyzer
    exact ⟨none, rfl, nofun⟩
  · next hname =>
    change Except.map _ (analyses analysisFile (look analysisFile)) = _ at hanalyzer
    cases hfiles : analyses analysisFile (look analysisFile) with
    | error e =>
      rw [hfiles] at hanalyzer
      cases hanalyzer
    | ok files =>
      rw [hfiles] at hanalyzer
      cases hanalyzer
      refine ⟨some files, rfl, ?_⟩
      rintro _ ⟨⟩
      rw [if_neg hname]
      exact ⟨List.mem_singleton_self _, rfl⟩

/-- A request with a file that cannot be used is refused, or the run breaks off. -/
theorem answer_of_error {r : Request} {e : LoadError} (h : r.error? look = some e) (now : String)
    (course : Batch.Course) (settings : Settings) : ∃ complaint events,
      (answer (m := Id) look now course settings r).run.run = e.reply complaint events := by
  cases r with
  | analysis r =>
    rw [← reason?_analysisInputs, reason?_eq_some] at h
    exact ⟨_, _, withLoaded_error h⟩
  | graph file query =>
    rw [Request.error?, Request.inputs, findSome?_error?_cons, Option.or_eq_some_iff] at h
    rcases h with h | ⟨hfiles, h⟩
    · exact ⟨_, _, withLoaded_error (reason?_eq_some.1 h)⟩
    · -- the call graph was read, so the file is one of an update
      obtain ⟨files, hfiles⟩ := reason?_eq_none.1 hfiles
      cases query with
      | update changesFile analysisFile top =>
        rw [← reason?_updateInputs, reason?_eq_some] at h
        exact ⟨_, _, (withLoaded_ok hfiles).trans (withLoaded_error h)⟩
      | _ => cases h
  | settings => cases h

end Loading

end Command
end PathTriage
