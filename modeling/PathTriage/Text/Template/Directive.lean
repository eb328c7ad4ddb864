/-!
Templates and their directives. A directive starts with a percent sign; then come, all optional but
the last, a key in parentheses, flags, a width, a precision after a point, a length mark that means
nothing, and the conversion. What is missing at the end of a template is recorded, not refused, so
that every text is a template.
-/

namespace PathTriage.Text.Template

/-- The key of a directive. Parentheses inside a key are balanced. -/
inductive Key where
  | absent
  | named (name : String)
  | unclosed
deriving Repr, DecidableEq

/-- A width or a precision; it may be the next argument. -/
inductive Amount where
  | absent
  | given (n : Nat)
  | fromArgument
deriving Repr, DecidableEq

/-- The conversion of a directive: the character and how much of the template follows it. -/
structure Conversion where
  char : Char
  following : Nat
deriving Repr, DecidableEq

/-- A directive. Without a conversion it breaks off at the end of the template. -/
structure Directive where
  key : Key := .absent
  flags : List Char := []
  width : Amount := .absent
  precision : Amount := .absent
  conversion : Option Conversion := none
deriving Repr, DecidableEq

/-- A part of a template. -/
inductive Piece where
  | char (c : Char)
  | directive (d : Directive)
deriving Repr, DecidableEq

/-- The rest of a key after an opening parenthesis, with `depth` parentheses open inside it, and
    what follows the key. -/
def readKeyRest (depth : Nat) (seen : List Char) : List Char → Key × List Char
  | [] => (.unclosed, [])
  | ')' :: rest =>
    match depth with
    | 0 => (.named (String.ofList seen.reverse), rest)
    | d + 1 => readKeyRest d (')' :: seen) rest
  | '(' :: rest => readKeyRest (depth + 1) ('(' :: seen) rest
  | c :: rest => readKeyRest depth (c :: seen) rest

/-- The key of a directive and what follows it. -/
def readKey : List Char → Key × List Char
  | '(' :: rest => readKeyRest 0 [] rest
  | cs => (.absent, cs)

/-- Whether a character is a flag. -/
def isFlag (c : Char) : Bool := ['-', '+', ' ', '#', '0'].contains c

/-- Whether a character is a length mark. -/
def isLengthMark (c : Char) : Bool := ['h', 'l', 'L'].contains c

/-- The number that digits denote. -/
def digitsValue (ds : List Char) : Nat := ds.foldl (fun n c => n * 10 + (c.toNat - 48)) 0

/-- An amount, `none` where it has no digits, and what follows it. -/
def readAmount (none : Amount) (cs : List Char) : Amount × List Char :=
  match cs with
  | '*' :: rest => (.fromArgument, rest)
  | cs =>
    match cs.takeWhile Char.isDigit with
    | [] => (none, cs)
    | ds => (.given (digitsValue ds), cs.dropWhile Char.isDigit)

/-- The precision of a directive and what follows it. A point alone stands for zero. -/
def readPrecision : List Char → Amount × List Char
  | '.' :: rest => readAmount (.given 0) rest
  | cs => (.absent, cs)

/-- What follows a length mark. -/
def skipLengthMark : List Char → List Char
  | [] => []
  | c :: rest => if isLengthMark c then rest else c :: rest

/-- The conversion of a directive and what follows it. -/
def readConversion : List Char → Option Conversion × List Char
  | [] => (none, [])
  | c :: rest => (some ⟨c, rest.length⟩, rest)

/-- The directive after a percent sign and what follows it. -/
def readDirective (cs : List Char) : Directive × List Char :=
  let (key, afterKey) := readKey cs
  let afterFlags := afterKey.dropWhile isFlag
  let (width, afterWidth) := readAmount .absent afterFlags
  let (precision, afterPrecision) := readPrecision afterWidth
  let (conversion, rest) := readConversion (skipLengthMark afterPrecision)
  ({ key, flags := afterKey.takeWhile isFlag, width, precision, conversion }, rest)

/-! ## A directive consumes its text -/

theorem length_readKeyRest_le (depth : Nat) (seen cs : List Char) :
    (readKeyRest depth seen cs).2.length ≤ cs.length := by
  fun_induction readKeyRest depth seen cs <;> simp_all <;> omega

theorem length_readKey_le (cs : List Char) : (readKey cs).2.length ≤ cs.length := by
  unfold readKey
  split
  · exact Nat.le_succ_of_le (length_readKeyRest_le 0 [] _)
  · exact Nat.le_refl _

theorem length_dropWhile_le (p : Char → Bool) (cs : List Char) :
    (cs.dropWhile p).length ≤ cs.length := (List.dropWhile_suffix p).length_le

theorem length_readAmount_le (none : Amount) (cs : List Char) :
    (readAmount none cs).2.length ≤ cs.length := by
  unfold readAmount
  split
  · exact Nat.le_succ _
  · split
    · exact Nat.le_refl _
    · exact length_dropWhile_le _ _

theorem length_readPrecision_le (cs : List Char) : (readPrecision cs).2.length ≤ cs.length := by
  unfold readPrecision
  split
  · exact Nat.le_succ_of_le (length_readAmount_le _ _)
  · exact Nat.le_refl _

theorem length_skipLengthMark_le (cs : List Char) : (skipLengthMark cs).length ≤ cs.length := by
  unfold skipLengthMark
  split
  · exact Nat.le_refl _
  · split <;> simp

theorem length_readConversion_le (cs : List Char) : (readConversion cs).2.length ≤ cs.length := by
  unfold readConversion
  split <;> simp

/-- What follows a directive is no longer than the text it was read from. -/
theorem length_readDirective_le (cs : List Char) : (readDirective cs).2.length ≤ cs.length := by
  refine Nat.le_trans (length_readConversion_le _) ?_
  refine Nat.le_trans (length_skipLengthMark_le _) ?_
  refine Nat.le_trans (length_readPrecision_le _) ?_
  refine Nat.le_trans (length_readAmount_le _ _) ?_
  exact Nat.le_trans (length_dropWhile_le _ _) (length_readKey_le cs)

/-- The parts of a template. Two percent signs stand for one. -/
def pieces : List Char → List Piece
  | [] => []
  | '%' :: '%' :: rest => .char '%' :: pieces rest
  | c :: rest =>
    if c = '%' then
      have := length_readDirective_le rest
      .directive (readDirective rest).1 :: pieces (readDirective rest).2
    else .char c :: pieces rest
termination_by cs => cs.length

end PathTriage.Text.Template
