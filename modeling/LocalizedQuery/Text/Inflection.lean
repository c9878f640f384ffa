import LocalizedQuery.Text.Letter

/-!
# Singular names and type names

Names derived from the name of a table: its singular (`blog_posts` gives `blog_post`) and the type
name that goes with it (`BlogPost`).

English plurals are undone by a list of rules tried in order, after the words that have no plural
and the irregular ones. A rule looks at the end of a name. It writes down only the last word of what
precedes the ending it knows, so `my posts` gives `post`, and a rule for a whole word gives that
word alone: `horseshoes` gives `shoe`.
-/

namespace LocalizedQuery

/-- Names that keep their form although a rule would cut them. -/
def uncountableNames : List String :=
  ["athletics", "chaos", "crossroads", "economics", "ethics", "gallows", "genetics", "gymnastics",
   "linguistics", "mathematics", "measles", "mumps", "news", "pasta", "physics", "series",
   "species", "tennis"]

/-- Names with a singular of their own. -/
def irregularNames : List (String × String) :=
  [("oxen", "ox"), ("boxes", "box"), ("men", "man"), ("women", "woman"), ("dice", "die"),
   ("yeses", "yes"), ("feet", "foot"), ("eaves", "eave"), ("geese", "goose"), ("teeth", "tooth"),
   ("quizzes", "quiz")]

/-- The longest run of word characters at the end of a text. -/
def lastWord (text : List Char) : List Char :=
  (text.reverse.takeWhile isWordChar).reverse

/-- What precedes the ending, if the text ends so. -/
def beforeEnding? (ending : String) (text : List Char) : Option (List Char) :=
  if ending.toList.isSuffixOf text then some (text.take (text.length - ending.length)) else none

/-- A way to undo a plural: the singular of the names that it applies to. -/
abbrev SingularRule := List Char → Option (List Char)

namespace SingularRule

/-- A name that ends in `word` and `ending` gives `word` and `written`; what precedes is dropped. -/
def ofWord (word ending written : String) : SingularRule := fun text =>
  (beforeEnding? (word ++ ending) text).map fun _ => word.toList ++ written.toList

/-- A name that ends in `ending` gives the last word before it and `written`. -/
def ofEnding (ending written : String) : SingularRule := fun text =>
  (beforeEnding? ending text).map fun stem => lastWord stem ++ written.toList

/-- A name that is `name` gives `written`. -/
def ofName (name written : String) : SingularRule := fun text =>
  if text = name.toList then some written.toList else none

/-- A name that starts with `oxen` gives `ox`. -/
def oxen : SingularRule := fun text =>
  if "oxen".toList.isPrefixOf text then some "ox".toList else none

/-- `cities` gives `city`: before `ies` stands a character other than a vowel, or `qu`. After a
dollar sign nothing is written, and the sign is dropped. -/
def ies : SingularRule := fun text =>
  (beforeEnding? "ies" text).bind fun stem =>
    match stem.reverse with
    | 'u' :: 'q' :: before => some (lastWord before.reverse ++ "quy".toList)
    | '$' :: before => some (lastWord before.reverse)
    | c :: before =>
      if "aeiouy".toList.contains c then none
      else some (lastWord before.reverse ++ [c, 'y'])
    | [] => none

/-- `knives` gives `kfe`: before `ves` one character other than `f` is dropped. -/
def ves : SingularRule := fun text =>
  (beforeEnding? "ves" text).bind fun stem =>
    match stem.reverse with
    | [] => none
    | c :: before => if c = 'f' then none else some (lastWord before.reverse ++ "fe".toList)

/-- The words in `-sis`, both as they are and with a plural in `-ses`. -/
def sis : List SingularRule :=
  ["parenthe", "diagno", "progno", "analy", "synop", "the", "ba"].flatMap fun word =>
    [ofWord word "sis" "sis", ofWord word "ses" "sis"]

/-- All rules, the first that applies first. -/
def all : List SingularRule :=
  [ofWord "database" "s" "", ofWord "quiz" "zes" "", ofWord "matr" "ices" "ix",
   ofWord "vert" "ices" "ex", ofWord "ind" "ices" "ex", oxen,
   ofWord "alias" "es" "", ofWord "alias" "" "", ofWord "status" "es" "", ofWord "status" "" "",
   ofWord "octop" "us" "us", ofWord "octop" "i" "us", ofWord "vir" "us" "us", ofWord "vir" "i" "us",
   ofName "axis" "axis", ofName "axes" "axis",
   ofWord "cris" "is" "is", ofWord "cris" "es" "is",
   ofWord "test" "is" "is", ofWord "test" "es" "is",
   ofWord "shoe" "s" "", ofEnding "oes" "", ofWord "bus" "es" "", ofWord "bus" "" "",
   ofWord "m" "ice" "ouse", ofWord "l" "ice" "ouse",
   ofEnding "xes" "x", ofEnding "ches" "ch", ofEnding "sses" "ss", ofEnding "shes" "sh",
   ofWord "m" "ovies" "ovie", ofWord "s" "eries" "eries", ies,
   ofEnding "lves" "f", ofEnding "rves" "f", ofEnding "tives" "", ofEnding "hives" "", ves]
  ++ sis
  ++ [ofEnding "ta" "um", ofEnding "ia" "um", ofWord "n" "ews" "ews", ofEnding "ss" "ss",
      ofEnding "s" ""]

end SingularRule

/-- The singular of a name; a name that no rule applies to is its own singular. -/
def singularName (name : String) : String :=
  if uncountableNames.contains name then name
  else match irregularNames.lookup name with
    | some singular => singular
    | none =>
      match SingularRule.all.findSome? (fun rule => rule name.toList) with
      | some singular => String.ofList singular
      | none => name

/-! ## Type names -/

/-- How far the words of a name have been read. -/
structure PascalState where
  /-- A separator or a number ended the last word. -/
  newWord : Bool := true
  /-- The last letter written inside a word. -/
  last : Char := ' '
  /-- A letter or number has been read. -/
  started : Bool := false

/-- Joins the words of a name, each with a capital first letter. Words end at characters that are
neither letters nor numbers, at numbers, and where a capital follows a small letter inside a word.
Only Latin letters without marks change their case. -/
def pascalFrom (state : PascalState) : List Char → List Char
  | [] => []
  | c :: rest =>
    if !isLetterOrNumber c then
      pascalFrom (if state.started then { state with newWord := true } else state) rest
    else if isNumber c then
      c :: pascalFrom { state with newWord := true, started := true } rest
    else if state.newWord || (isLowercase state.last && isUppercase c) then
      c.toUpper :: pascalFrom { state with newWord := false, started := true } rest
    else
      c.toLower :: pascalFrom { state with last := c, started := true } rest

/-- The type name of a singular name: `blog_post` gives `BlogPost`. -/
def pascalName (name : String) : String := String.ofList (pascalFrom {} name.toList)

end LocalizedQuery
