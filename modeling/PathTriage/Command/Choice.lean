import PathTriage.Command.Grammar

/-!
What a command line chooses: its commands and the values of its options.

Options are taken in order. The first plain word is the command, and all that follows belongs to it.
Words that have no place are kept and refused at the very end.
-/

namespace PathTriage.Command

/-- The commands and values that a command line chooses, and the words that have no place in it. -/
structure Choice where
  commands : List String := []
  values : Fields Json := []
  extras : List String := []

/-- The message about an option. -/
def aboutOption (g : Grammar) (o : Opt) (text : String) : Stop :=
  .usage g.program ("argument " ++ o.title ++ ": " ++ text)

/-- The message about a value that an option does not take. -/
def ignoredValue (g : Grammar) (o : Opt) (value : String) : Stop :=
  aboutOption g o ("ignored explicit argument " ++ Text.Quoted.render value)

/-- Checks the letters behind a one-letter option that takes no value: only further such options may
    stand there. -/
def checkLetters (g : Grammar) (o : Opt) : List Char → Except Stop Unit
  | [] => .ok ()
  | c :: rest =>
    match g.option? (String.ofList ['-', c]) with
    | none => .error (ignoredValue g o (String.ofList (c :: rest)))
    | some next => checkLetters g next rest

/-- Checks that an option without value is given none. -/
def checkNoValue (g : Grammar) (o : Opt) (name : String) : Option String → Except Stop Unit
  | none => .ok ()
  | some value =>
    if value.isEmpty || name.startsWith "--" then .error (ignoredValue g o value)
    else checkLetters g o value.toList

/-- Reads the value of an option. -/
def readValue (g : Grammar) (o : Opt) (reading : Reading) (text : String) : Except Stop Json :=
  match reading.value? text with
  | some v => .ok v
  | none => .error (aboutOption g o
      ("invalid " ++ reading.name ++ " value: " ++ Text.Quoted.render text))

/-- The value of an option and the number of following words it takes. A double dash inside the word
    of the option is dropped, and no value is left. -/
def takeOption (g : Grammar) (o : Opt) (name : String) (given : Option String)
    (following : List Word) : Except Stop (Json × Nat) :=
  match o.arity with
  | .help => do
    checkNoValue g o name given
    .error (.help g.usage)
  | .flag => do
    checkNoValue g o name given
    pure (.bool true, 0)
  | .one reading =>
    match given, following with
    | some "--", _ => .ok (.array [], 0)
    | some value, _ => (readValue g o reading value).map fun v => (v, 0)
    | none, ⟨text, .plain⟩ :: _ => (readValue g o reading text).map fun v => (v, 1)
    | none, _ => .error (aboutOption g o "expected one argument")
  | .many =>
    match given with
    | some "--" => .ok (.array [], 0)
    | some value => .ok (.ofStrings [value], 0)
    | none =>
      let taken := (following.takeWhile Word.isPlain).map (·.text)
      .ok (.ofStrings taken, taken.length)

/-- The values and misplaced words before a command, and the words from the command on. -/
structure Prelude where
  values : Fields Json := []
  extras : List String := []
  command : List String := []

/-- Whether a command starts at a word. -/
def startsCommand (g : Grammar) (w : Word) (following : List Word) : Bool :=
  !g.commands.isEmpty &&
    (w.isPlain || (w.role == .separator && (following.head?.map Word.isPlain).getD false))

/-- Takes the words up to the command. -/
def takeWords (g : Grammar) (p : Prelude) : List Word → Except Stop Prelude
  | [] => .ok p
  | w :: rest =>
    match w.role with
    | .option o name given =>
      match takeOption g o name given rest with
      | .error stop => .error stop
      | .ok (value, taken) =>
        takeWords g { p with values := p.values.put o.key value } (rest.drop taken)
    | _ =>
      if startsCommand g w rest then .ok { p with command := w.text :: rest.map (·.text) }
      else takeWords g { p with extras := p.extras ++ [w.text] } rest
termination_by words => words.length
decreasing_by
  · simp only [List.length_drop, List.length_cons]
    omega
  · simp

/-- The message about a command that is not there. -/
def invalidChoice (g : Grammar) (name : String) : Stop :=
  .usage g.program ("argument " ++ g.slot ++ ": invalid choice: " ++ Text.Quoted.render name
    ++ " (choose from " ++ ", ".intercalate (g.commands.map fun c => Text.Quoted.render c.1) ++ ")")

/-- Checks that every required option has a value. -/
def checkRequired (g : Grammar) (values : Fields Json) : Except Stop Unit :=
  let missing := g.options.filter fun o => o.required && (values.get? o.key).isNone
  if missing.isEmpty then .ok ()
  else .error (.usage g.program
    ("the following arguments are required: " ++ ", ".intercalate (missing.map Opt.title)))

/-- Puts the choice of a command behind what came before it. -/
def Prelude.choice (p : Prelude) (name : String) (inner : Choice) : Choice where
  commands := name :: inner.commands
  values := p.values ++ inner.values
  extras := p.extras ++ inner.extras

mutual

/-- What the words after a program or command choose. -/
def choose : Grammar → List String → Except Stop Choice
  | .mk program options slot commands, args => do
    let g := Grammar.mk program options slot commands
    let p ← takeWords g {} (← words g args)
    let choice ← match p.command with
      | [] => pure { values := p.values, extras := p.extras }
      | name :: rest => (chooseAmong (invalidChoice g name) name rest commands).map (p.choice name)
    checkRequired g p.values
    pure choice

/-- What the words after a command choose. The command is looked for among the given ones; `absent`
    is reported when it is none of them. -/
def chooseAmong (absent : Stop) (name : String) (args : List String) :
    List (String × Grammar) → Except Stop Choice
  | [] => .error absent
  | (command, inner) :: rest =>
    if command == name then choose inner args else chooseAmong absent name args rest

end

/-- What a command line chooses. Words that have no place are refused after all other checks. -/
def read (g : Grammar) (args : List String) : Except Stop Choice :=
  match choose g args with
  | .error stop => .error stop
  | .ok choice =>
    if choice.extras.isEmpty then .ok choice
    else .error (.usage g.program ("unrecognized arguments: " ++ " ".intercalate choice.extras))

end PathTriage.Command
