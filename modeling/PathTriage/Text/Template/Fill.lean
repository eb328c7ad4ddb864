import PathTriage.Decimal.Scientific
import PathTriage.Json.Literal
import PathTriage.Text.Template.Directive

/-!
Filling a template with values. Directives take the values in order, or by key from one table; each
shows its value as a text, as an integer in some base, or as a decimal, in a field of some width.
-/

namespace PathTriage.Text.Template

/-- Why a template cannot be filled. -/
inductive FillError where
  | brokenOff
  | unclosedKey
  | unsupported (c : Char) (index : Nat)
  | notANumber
  | unfit
  | missingKey (key : String)
  | outOfRange
  | widthTooBig
  | precisionTooBig
  | outOfMemory
deriving Repr, DecidableEq

/-- The message of a template that cannot be filled. -/
def FillError.message : FillError → String
  | .brokenOff => "incomplete format"
  | .unclosedKey => "incomplete format key"
  | .unsupported c index =>
    let shown := if 31 ≤ c.toNat ∧ c.toNat < 128 then c else '?'
    "unsupported format character '" ++ String.singleton shown ++ "' (0x"
      ++ String.ofList (Nat.toDigits 16 c.toNat) ++ ") at index " ++ toString index
  | .notANumber => "cannot convert float NaN to integer"
  | .unfit => "the values do not fit the template"
  | .missingKey key => Quoted.render key
  | .outOfRange => "value out of range"
  | .widthTooBig => "width too big"
  | .precisionTooBig => "precision too big"
  | .outOfMemory => "field too wide"

/-- The values that wait to be shown, and the table that keys refer to. -/
structure Supply where
  waiting : List Json
  table : Option (Fields Json) := none

namespace Supply

/-- The supply of a list of values. A single table that is not empty is looked up by key. -/
def ofValues : List Json → Supply
  | [.object (entry :: rest)] =>
    { waiting := [.object (entry :: rest)], table := some (entry :: rest) }
  | values => { waiting := values }

/-- The next value. -/
def next (s : Supply) : Except FillError (Json × Supply) :=
  match s.waiting with
  | [] => .error .unfit
  | v :: rest => .ok (v, { s with waiting := rest })

/-- Makes the value of a key the next one. -/
def select (s : Supply) (key : Key) : Except FillError Supply :=
  match key, s.table with
  | .absent, _ => .ok s
  | _, none => .error .unfit
  | .unclosed, some _ => .error .unclosedKey
  | .named name, some table =>
    match Fields.get? name table with
    | some v => .ok { s with waiting := [v] }
    | none => .error (.missingKey name)

/-- An integer that is the next value. -/
def nextInteger (s : Supply) : Except FillError (Int × Supply) := do
  let (v, s) ← s.next
  match v.number? with
  | some (.int n) => pure (n, s)
  | _ => .error .unfit

/-- A width that a field can have. -/
def feasible (n : Int) : Except FillError Int :=
  if n.natAbs < pow2 31 then .ok n else .error .outOfMemory

/-- The width of a directive, which may be the next value. -/
def width (s : Supply) : Amount → Except FillError (Option Int × Supply)
  | .absent => .ok (none, s)
  | .given n =>
    if n < pow2 63 then (feasible n).map fun n => (some n, s) else .error .widthTooBig
  | .fromArgument => do
    let (n, s) ← s.nextInteger
    if n.natAbs < pow2 63 then (feasible n).map fun n => (some n, s) else .error .outOfRange

/-- The precision of a directive, which may be the next value. -/
def precision (s : Supply) : Amount → Except FillError (Option Int × Supply)
  | .absent => .ok (none, s)
  | .given n => if n < pow2 31 then .ok (some n, s) else .error .precisionTooBig
  | .fromArgument => do
    let (n, s) ← s.nextInteger
    if n.natAbs < pow2 31 then pure (some n, s) else .error .outOfRange

end Supply

/-! ## Fields -/

/-- How a value stands in its field. -/
structure Style where
  left : Bool
  plus : Bool
  blank : Bool
  alternate : Bool
  zeros : Bool
  width : Nat
  precision : Option Nat

/-- The style of a directive with its width and precision. A negative width means alignment to the
    left. -/
def Style.ofFlags (flags : List Char) (width precision : Option Int) : Style where
  left := flags.contains '-' || decide (width.getD 0 < 0)
  plus := flags.contains '+'
  blank := flags.contains ' '
  alternate := flags.contains '#'
  zeros := flags.contains '0'
  width := (width.getD 0).natAbs
  precision := precision.map Int.toNat

/-- A text in its field. -/
def Style.text (style : Style) (text : String) : String :=
  let fill := "".pushn ' ' (style.width - text.length)
  if style.left then text ++ fill else fill ++ text

/-- A number in its field, given its sign, the mark of its base and its digits. -/
def Style.number (style : Style) (negative : Bool) (mark digits : String) : String :=
  let sign := if negative then "-" else if style.plus then "+" else if style.blank then " " else ""
  let missing := style.width - (sign ++ mark ++ digits).length
  if style.left then sign ++ mark ++ digits ++ "".pushn ' ' missing
  else if style.zeros then sign ++ mark ++ "".pushn '0' missing ++ digits
  else "".pushn ' ' missing ++ sign ++ mark ++ digits

/-- The digits of an integer in a base, at least as many as the precision asks for. -/
def Style.digits (style : Style) (base : Nat) (n : Int) : String :=
  let ds := Nat.toDigits base n.natAbs
  String.ofList (List.replicate (style.precision.getD 0 - ds.length) '0' ++ ds)

/-- An integer in its field. -/
def Style.integer (style : Style) (base : Nat) (mark : String) (n : Int) : String :=
  style.number (decide (n < 0)) (if style.alternate then mark else "") (style.digits base n)

/-- A machine number in its field, its magnitude written in one of the decimal layouts. -/
def Style.decimal (style : Style) (write : Decimal.Magnitude → Nat → Int → String) (x : Float) :
    String :=
  match Binary64.ofFloat x with
  | .nan => style.number false "" "nan"
  | .infinite negative => style.number negative "" "inf"
  | .finite negative mant exp =>
    let layout := { places := style.precision.getD 6, keepPoint := style.alternate }
    style.number negative "" (write layout mant exp)

/-! ## Conversions -/

/-- A text with every character outside ASCII written by its code point. -/
def asciiOnly (text : String) : String :=
  String.ofList (text.toList.flatMap fun c =>
    if c.toNat < 128 then [c] else Quoted.escapeCode c.toNat)

/-- The integer part of a value. -/
def truncated (v : Json) : Except FillError Int :=
  match v.number? with
  | some (.int n) => .ok n
  | some (.float x) =>
    match Binary64.ofFloat x with
    | .nan => .error .notANumber
    | .infinite _ => .error .outOfRange
    | .finite negative mant exp =>
      let (num, den) := Binary64.quotient mant exp
      .ok (if negative then -((num / den : Nat) : Int) else (num / den : Nat))
  | none => .error .unfit

/-- The integer that a value is. -/
def whole (v : Json) : Except FillError Int :=
  match v.number? with
  | some (.int n) => .ok n
  | _ => .error .unfit

/-- The machine number of a value. -/
def measured (v : Json) : Except FillError Float :=
  match v.number? with
  | some n => n.toFloat.mapError fun _ => .outOfRange
  | none => .error .unfit

/-- The single character that a value stands for. -/
def single (v : Json) : Except FillError String :=
  match v with
  | .string s => if s.length = 1 then .ok s else .error .unfit
  | v =>
    match v.number? with
    | some (.int n) =>
      if 0 ≤ n ∧ n < 0x110000 then .ok (String.singleton (Char.ofNat n.toNat))
      else .error .outOfRange
    | _ => .error .unfit

/-- A text cut to the precision. -/
def Style.cut (style : Style) (text : String) : String :=
  match style.precision with
  | some n => String.ofList (text.toList.take n)
  | none => text

/-- A value shown by a conversion; `index` is the place of the conversion in the template. -/
def Style.show (style : Style) (conversion : Char) (index : Nat) (v : Json) :
    Except FillError String :=
  match conversion with
  | 's' => .ok (style.text (style.cut v.plain))
  | 'r' => .ok (style.text (style.cut v.literal))
  | 'a' => .ok (style.text (style.cut (asciiOnly v.literal)))
  | 'd' | 'i' | 'u' => (truncated v).map (style.integer 10 "")
  | 'o' => (whole v).map (style.integer 8 "0o")
  | 'x' => (whole v).map (style.integer 16 "0x")
  | 'X' => (whole v).map fun n => (style.integer 16 "0x" n).toUpper
  | 'f' => (measured v).map (style.decimal Decimal.Magnitude.positional)
  | 'F' => (measured v).map fun x => (style.decimal Decimal.Magnitude.positional x).toUpper
  | 'e' => (measured v).map (style.decimal Decimal.Magnitude.exponential)
  | 'E' => (measured v).map fun x => (style.decimal Decimal.Magnitude.exponential x).toUpper
  | 'g' => (measured v).map (style.decimal Decimal.Magnitude.general)
  | 'G' => (measured v).map fun x => (style.decimal Decimal.Magnitude.general x).toUpper
  | 'c' => (single v).map style.text
  | c => .error (.unsupported c index)

/-- What a directive shows, and the values that are left. `size` is the length of the template. -/
def fillDirective (size : Nat) (d : Directive) (s : Supply) :
    Except FillError (String × Supply) := do
  let s ← s.select d.key
  let (width, s) ← s.width d.width
  let (precision, s) ← s.precision d.precision
  match d.conversion with
  | none => .error .brokenOff
  | some conversion =>
    let (v, s) ← s.next
    let style := Style.ofFlags d.flags width precision
    let shown ← style.show conversion.char (size - conversion.following - 1) v
    pure (shown, s)

/-- What the parts of a template show. Every value has to be shown, unless values are looked up by
    key. -/
def fillPieces (size : Nat) : List Piece → Supply → Except FillError (List String)
  | [], s => if s.waiting.isEmpty || s.table.isSome then .ok [] else .error .unfit
  | .char c :: rest, s => (fillPieces size rest s).map (String.singleton c :: ·)
  | .directive d :: rest, s => do
    let (shown, s) ← fillDirective size d s
    let more ← fillPieces size rest s
    pure (shown :: more)

/-- A template filled with values. Without values it stands for itself. -/
def fill (template : String) (values : List Json) : Except FillError String :=
  if values.isEmpty then .ok template
  else
    let cs := template.toList
    (fillPieces cs.length (pieces cs) (Supply.ofValues values)).map String.join

end PathTriage.Text.Template
