import LocalizedQuery.Sql.Dialect

/-!
# Commands

A command line names a command, `compile` or `check`, and gives its options and operands:

* an option has a long name, as in `--model posts` or `--model=posts`, and a letter, as in
  `-m posts`, `-mposts` or `-m=posts`; it is given once at most,
* `--invert` has no value,
* every word behind `--` is an operand, and so is every other word that does not start with `-`; a
  single `-` counts as a value.
-/

namespace LocalizedQuery

/-- What is printed for a compiled predicate. -/
inductive OutputFormat where
  | sql
  | plan
deriving DecidableEq, Repr, Inhabited

/-- The format with the given name. -/
def OutputFormat.ofName? : String → Option OutputFormat
  | "sql" => some .sql
  | "plan" => some .plan
  | _ => none

/-- What the program is to do. -/
inductive Command where
  /-- Print a query or its joins. -/
  | compile (configuration model locale : String) (invert : Bool) (dialect : Dialect)
    (output : OutputFormat) (predicate : String)
  /-- List the models. -/
  | check (configuration : String)
deriving DecidableEq, Repr

/-- Why a command line cannot be understood. -/
inductive UsageError where
  | noCommand
  | unknownCommand (word : String)
  | unexpected (word : String)
  | missingValue (option : String)
  | repeated (option : String)
  | missing (what : String)
  | invalidValue (option value : String)
deriving DecidableEq, Repr

/-- The wording of an error. -/
def UsageError.message : UsageError → String
  | .noCommand => "a command is missing: compile or check"
  | .unknownCommand word => s!"unknown command '{word}'"
  | .unexpected word => s!"unexpected argument '{word}'"
  | .missingValue option => s!"--{option} needs a value"
  | .repeated option => s!"--{option} is given more than once"
  | .missing what => s!"{what} is missing"
  | .invalidValue option value => s!"--{option} cannot be '{value}'"

/-! ## Options and operands -/

namespace Command

/-- The options and operands of a command line. -/
structure Arguments where
  /-- Long names with values. -/
  options : List (String × String) := []
  /-- The long names of options without values. -/
  flags : List String := []
  operands : List String := []

/-- Which options a command has. -/
structure OptionNames where
  /-- The options with values: their letters and long names. -/
  valued : List (Char × String)
  /-- The options without values. -/
  flags : List String := []

namespace Arguments

/-- Adds an option with its value. -/
def addOption (given : Arguments) (name value : String) : Except UsageError Arguments :=
  if (given.options.lookup name).isSome then .error (.repeated name)
  else .ok { given with options := given.options ++ [(name, value)] }

/-- Adds an option without value. -/
def addFlag (given : Arguments) (name : String) : Except UsageError Arguments :=
  if given.flags.contains name then .error (.repeated name)
  else .ok { given with flags := given.flags ++ [name] }

/-- Adds an operand. -/
def addOperand (given : Arguments) (word : String) : Arguments :=
  { given with operands := given.operands ++ [word] }

/-- The value of an option. -/
def get (given : Arguments) (name : String) : Except UsageError String :=
  match given.options.lookup name with
  | some value => .ok value
  | none => .error (.missing s!"--{name}")

end Arguments

/-- What a single word is. -/
inductive Word where
  /-- An option with a value, which may be attached. -/
  | option (name : String) (value : Option String)
  | flag (name : String)
  /-- The word `--`. -/
  | endOfOptions
  | operand

/-- What a word is, if it can stand there. -/
def wordOf (names : OptionNames) (word : String) : Except UsageError Word :=
  match word.toList with
  | ['-', '-'] => .ok .endOfOptions
  | '-' :: '-' :: text =>
    let name := String.ofList (text.takeWhile (· ≠ '='))
    let value := match text.dropWhile (· ≠ '=') with
      | [] => none
      | _ :: value => some (String.ofList value)
    if names.valued.any fun entry => entry.2 == name then .ok (.option name value)
    else if names.flags.contains name ∧ value.isNone then .ok (.flag name)
    else .error (.unexpected word)
  | '-' :: letter :: text =>
    match names.valued.lookup letter with
    | none => .error (.unexpected word)
    | some name => .ok <| .option name <| match text with
      | [] => none
      | '=' :: value => some (String.ofList value)
      | value => some (String.ofList value)
  | _ => .ok .operand

/-- Reads the words behind the name of a command. -/
def readArguments (names : OptionNames) (given : Arguments) :
    List String → Except UsageError Arguments
  | [] => .ok given
  | word :: rest => do
    match ← wordOf names word with
    | .endOfOptions => return rest.foldl Arguments.addOperand given
    | .operand => readArguments names (given.addOperand word) rest
    | .flag name => readArguments names (← given.addFlag name) rest
    | .option name (some value) => readArguments names (← given.addOption name value) rest
    | .option name none =>
      match rest with
      | [] => .error (.missingValue name)
      | value :: rest =>
        match wordOf names value with
        | .ok .operand => readArguments names (← given.addOption name value) rest
        | _ => .error (.missingValue name)

/-! ## Commands -/

/-- The options of `compile`. -/
def compileOptions : OptionNames where
  valued := [('c', "config"), ('m', "model"), ('l', "locale"), ('d', "dialect"), ('o', "output")]
  flags := ["invert"]

/-- The options of `check`. -/
def checkOptions : OptionNames where
  valued := [('c', "config")]

/-- The path of the configuration, which is not empty. -/
def configuration (given : Arguments) : Except UsageError String :=
  match given.options.lookup "config" with
  | none => .ok "translayer.toml"
  | some "" => .error (.invalidValue "config" "")
  | some path => .ok path

/-- The value of an option that has a default and is one of some names. -/
def choice {α : Type} (given : Arguments) (name : String) (default : α)
    (ofName? : String → Option α) : Except UsageError α :=
  match given.options.lookup name with
  | none => .ok default
  | some value =>
    match ofName? value with
    | some chosen => .ok chosen
    | none => .error (.invalidValue name value)

/-- The command that a command line gives. -/
def ofArguments : List String → Except UsageError Command
  | [] => .error .noCommand
  | "compile" :: words => do
    let given ← readArguments compileOptions {} words
    let configuration ← configuration given
    let model ← given.get "model"
    let locale ← given.get "locale"
    let dialect ← choice given "dialect" .postgres Dialect.ofName?
    let output ← choice given "output" .sql OutputFormat.ofName?
    match given.operands with
    | [] => .error (.missing "the predicate")
    | [predicate] =>
      .ok (.compile configuration model locale (given.flags.contains "invert") dialect output
        predicate)
    | _ :: word :: _ => .error (.unexpected word)
  | "check" :: words => do
    let given ← readArguments checkOptions {} words
    match given.operands with
    | [] => return .check (← configuration given)
    | word :: _ => .error (.unexpected word)
  | word :: _ => .error (.unknownCommand word)

end Command

end LocalizedQuery
