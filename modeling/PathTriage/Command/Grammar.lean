import PathTriage.Reading
import PathTriage.Text.Digit
import PathTriage.Text.Quoted

/-!
Grammars of command lines, and the role of every word of a command line.

A grammar has options and possibly commands, each with a grammar of its own. A word is an option
when it is the name of one, the start of exactly one long name, or a name with a value after an
equals sign. After a separating double dash all words are plain.
-/

namespace PathTriage.Command

/-- What an option takes. -/
inductive Arity where
  | help
  | flag
  | one (reading : Reading)
  | many
deriving Repr, DecidableEq

/-- An option. -/
structure Opt where
  names : List String
  arity : Arity
  required : Bool := false
deriving Repr, DecidableEq

/-- The title of an option in messages. -/
def Opt.title (o : Opt) : String := "/".intercalate o.names

/-- The name under which the value of an option is kept. -/
def Opt.key (o : Opt) : String := o.names.getLastD ""

/-- The grammar of a program or of one of its commands. `slot` names the place of the command in
    messages. -/
inductive Grammar where
  | mk (program : String) (options : List Opt) (slot : String) (commands : List (String × Grammar))

namespace Grammar

/-- The program as messages name it. -/
def program : Grammar → String
  | .mk program _ _ _ => program

/-- The options. -/
def options : Grammar → List Opt
  | .mk _ options _ _ => options

/-- The place of the command in messages. -/
def slot : Grammar → String
  | .mk _ _ slot _ => slot

/-- The commands. -/
def commands : Grammar → List (String × Grammar)
  | .mk _ _ _ commands => commands

/-- The options by name, in order. -/
def named (g : Grammar) : List (String × Opt) :=
  g.options.flatMap fun o => o.names.map fun name => (name, o)

/-- The option with a name. -/
def option? (g : Grammar) (name : String) : Option Opt :=
  (g.named.find? fun entry => entry.1 == name).map (·.2)

end Grammar

/-! ## Usage -/

/-- The word that stands for the value of an option. -/
def Opt.valueWord (o : Opt) : String :=
  let letters := o.key.toList.dropWhile (· == '-')
  String.ofList (letters.map fun c => if c = '-' then '_' else c.toUpper)

/-- An option in the usage of a program. -/
def Opt.usage (o : Opt) : String :=
  let name := o.names.headD ""
  let text := match o.arity with
    | .one _ => name ++ " " ++ o.valueWord
    | .many => name ++ " [" ++ o.valueWord ++ " ...]"
    | _ => name
  if o.required then text else "[" ++ text ++ "]"

/-- How a program is used, in one line. -/
def Grammar.usage (g : Grammar) : String :=
  let names := g.commands.map (·.1)
  let commands := if names.isEmpty then [] else ["\x7b" ++ ",".intercalate names ++ "\x7d ..."]
  "usage: " ++ " ".intercalate (g.program :: g.options.map Opt.usage ++ commands)

/-! ## Words -/

/-- Why a command line is not followed. -/
inductive Stop where
  | help (usage : String)
  | usage (program message : String)
deriving Repr, DecidableEq

/-- The role of a word. An option may have its value in the same word: after an equals sign, or
    right behind a one-letter name. -/
inductive Role where
  | plain
  | separator
  | option (o : Opt) (name : String) (value : Option String)
  | unknown
deriving Repr, DecidableEq

/-- A word with its role. -/
structure Word where
  text : String
  role : Role
deriving Repr, DecidableEq

/-- Whether a word is plain. -/
def Word.isPlain (w : Word) : Bool := w.role == .plain

/-- The parts of a word before and after its first equals sign. -/
def cutAtEquals (cs : List Char) : String × Option String :=
  let name := String.ofList (cs.takeWhile (· != '='))
  match cs.dropWhile (· != '=') with
  | [] => (name, none)
  | _ :: value => (name, some (String.ofList value))

/-- Whether characters are digits, at least one. A line feed at the end is overlooked. -/
def areDigits (cs : List Char) : Bool :=
  let isDigit := fun c => (Text.decimalValue? c).isSome
  !(cs.takeWhile isDigit).isEmpty && [[], ['\n']].contains (cs.dropWhile isDigit)

/-- Whether a word is a negative number: a dash and digits, possibly with a point before the last
    ones. -/
def isNegativeNumber (text : String) : Bool :=
  match text.toList with
  | '-' :: rest =>
    areDigits rest ||
      match rest.dropWhile fun c => (Text.decimalValue? c).isSome with
      | '.' :: fraction => areDigits fraction
      | _ => false
  | _ => false

/-- The options that a word may be short for, with the value it gives. -/
def candidates (g : Grammar) (text : String) : List (String × Opt × Option String) :=
  match text.toList with
  | '-' :: '-' :: _ =>
    let (start, value) := cutAtEquals text.toList
    (g.named.filter fun entry => entry.1.startsWith start).map fun entry =>
      (entry.1, entry.2, value)
  | '-' :: letter :: rest =>
    g.named.filterMap fun entry =>
      if entry.1 == String.ofList ['-', letter] then
        some (entry.1, entry.2, some (String.ofList rest))
      else if entry.1.startsWith text then some (entry.1, entry.2, none)
      else none
  | _ => []

/-- The role of a word that starts with a dash, is no option's name and gives no value by an equals
    sign after one. -/
def roleOfDashed (g : Grammar) (text : String) : Except Stop Role :=
  match candidates g text with
  | [] =>
    .ok (if isNegativeNumber text || text.toList.contains ' ' then .plain else .unknown)
  | [(name, o, value)] => .ok (.option o name value)
  | several =>
    .error (.usage g.program ("ambiguous option: " ++ text ++ " could match "
      ++ ", ".intercalate (several.map (·.1))))

/-- The role of a word before any separator. -/
def role (g : Grammar) (text : String) : Except Stop Role :=
  if !text.startsWith "-" then .ok .plain
  else
    match g.option? text with
    | some o => .ok (.option o text none)
    | none =>
      if text == "-" then .ok .plain
      else
        match cutAtEquals text.toList with
        | (name, some value) =>
          match g.option? name with
          | some o => .ok (.option o name (some value))
          | none => roleOfDashed g text
        | (_, none) => roleOfDashed g text

/-- The words of a command line with their roles. -/
def words (g : Grammar) : List String → Except Stop (List Word)
  | [] => .ok []
  | text :: rest =>
    if text == "--" then .ok (⟨text, .separator⟩ :: rest.map fun t => ⟨t, .plain⟩)
    else do
      let role ← role g text
      let more ← words g rest
      pure (⟨text, role⟩ :: more)

end PathTriage.Command
