import PathTriage.Model.Commit
import PathTriage.Model.Method
import PathTriage.Order
import PathTriage.Text.Camel

/-!
What names say: the business vocabulary, the keywords of methods and commits, the customary forms of
method names, and the purpose that a name announces.
-/

namespace PathTriage

/-- What a method is for, as far as its name tells. -/
inductive Purpose where
  | query
  | create
  | update
  | delete
  | process
  | validate
  | transform
  | other
deriving Repr, DecidableEq, Inhabited

instance : Named Purpose where
  all := [.query, .create, .update, .delete, .process, .validate, .transform, .other]
  name
    | .query => "QUERY"
    | .create => "CREATE"
    | .update => "UPDATE"
    | .delete => "DELETE"
    | .process => "PROCESS"
    | .validate => "VALIDATE"
    | .transform => "TRANSFORM"
    | .other => "OTHER"

namespace Lexicon

/-- The business vocabulary. -/
def businessTerms : List String :=
  ["create", "update", "delete", "save", "process", "validate", "calculate",
   "generate", "import", "export", "sync", "notify", "schedule", "execute",
   "analyze", "report", "search", "filter", "transform", "convert",
   "business", "service", "manager", "processor", "handler", "controller"]

/-- The entities at the core of the business, as they stand in ids. -/
def coreEntities : List String := ["User", "Order", "Product", "Payment"]

/-- Whether the name of a method or of its class contains a business term. -/
def mentionsBusiness (m : Method) : Bool :=
  let names := [Text.lower m.name, Text.lower m.className]
  businessTerms.any fun term => names.any fun name => Text.occursIn term name

/-- The business terms in the names of the methods, in the order of the vocabulary. -/
def termsOf (methods : List Method) : List String :=
  let names := methods.map fun m => Text.lower m.name
  businessTerms.filter fun term => names.any fun name => Text.occursIn term name

/-- The words in the names of a method and its class. -/
def keywordsOfMethod (m : Method) : List String :=
  Order.sortedSet (Text.Camel.split m.name ++ Text.Camel.split m.className)

/-- The words in the names of methods and their classes. -/
def keywordsOf (methods : List Method) : List String :=
  Order.sortedSet (methods.flatMap keywordsOfMethod)

/-- The lower-cased keywords of commits. -/
def keywordsOfCommits (history : List Commit) : List String :=
  Order.sortedSet (history.flatMap fun c => c.keywords.map Text.lower)

/-- The verbs that may start a method name in front of a capital letter. -/
def accessorVerbs : List String :=
  ["get", "set", "is", "has", "can", "create", "update", "delete", "find", "save"]

/-- Whether a character is an ASCII small letter. -/
def isSmall (c : Char) : Bool := 'a' ≤ c && c ≤ 'z'

/-- Whether a character is an ASCII letter or digit. -/
def isAlphanumeric (c : Char) : Bool :=
  isSmall c || Text.Camel.isCapital c || ('0' ≤ c && c ≤ '9')

/-- Whether a name is a small letter followed by letters and digits. -/
def isPlainName : List Char → Bool
  | [] => false
  | c :: cs => isSmall c && cs.all isAlphanumeric

/-- Whether a name is a verb, then a capital letter, then anything without a line feed. -/
def isAccessorName (verb name : List Char) : Bool :=
  verb.isPrefixOf name &&
    match name.drop verb.length with
    | [] => false
    | c :: rest => Text.Camel.isCapital c && !rest.contains '\n'

/-- Whether a method name has one of the customary forms. -/
def isCustomaryName (name : String) : Bool :=
  isPlainName name.toList ||
    accessorVerbs.any fun verb => isAccessorName verb.toList name.toList

/-- The openings of names that announce a purpose, in the order in which they are tried. -/
def purposeOpenings : List (Purpose × List String) :=
  [(.query, ["get", "find", "query", "list", "search", "load", "fetch"]),
   (.create, ["create", "save", "add", "insert", "register"]),
   (.update, ["update", "modify", "set", "change", "edit"]),
   (.delete, ["delete", "remove", "clear", "purge"]),
   (.validate, ["validate", "check", "verify"]),
   (.transform, ["convert", "transform", "map", "parse", "format"]),
   (.process, ["process", "execute", "handle", "run", "apply"])]

/-- The purpose that a method name announces. -/
def purposeOf (name : String) : Purpose :=
  let name := (Text.lower name).toList
  match purposeOpenings.find? fun p => p.2.any fun opening => opening.toList.isPrefixOf name with
  | some (purpose, _) => purpose
  | none => .other

end Lexicon
end PathTriage
