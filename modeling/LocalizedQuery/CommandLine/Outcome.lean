import LocalizedQuery.CommandLine.Command
import LocalizedQuery.Configuration.Build
import LocalizedQuery.PlanReport

/-!
# Outcomes

What the program prints and the code with which it ends: 0 after success, 1 when the configuration
or the predicate is at fault, and 2 when the command line cannot be understood.
-/

namespace LocalizedQuery

/-- How a run of the program ends. -/
structure Outcome where
  exitCode : UInt32 := 0
  stdout : String := ""
  stderr : String := ""
deriving DecidableEq, Repr

namespace Outcome

/-- The end of a run in which something is at fault. -/
def failure (line : String) : Outcome := { exitCode := 1, stderr := line ++ "\n" }

/-- The end of a run without a command. -/
def ofUsageError (error : UsageError) : Outcome :=
  { exitCode := 2, stderr := s!"error: {error.message}\n" }

end Outcome

/-- The models that a configuration file declares. -/
def Registry.ofFile (path : String) (file : FileContent) : Except ConfigurationError Registry := do
  (← Settings.ofFile path file).registry

/-- The lines about a model. -/
def LocalizedModel.listing (t : LocalizedModel) : String :=
  let heading := s!"  {t.model.table} (type: {t.model.typeName}, key: {t.model.primaryKey}):\n"
  t.backends.foldl (fun lines b =>
    lines ++ "    - " ++ b.name ++ ": " ++ String.intercalate ", " b.attributeNames ++ "\n") heading

/-- The lines about a configuration file. -/
def Registry.listing (registry : Registry) (path : String) : String :=
  s!"File: {path}\n\n" ++
    if registry.size = 0 then "No models defined.\n"
    else "Models:\n" ++ String.join (registry.models.map LocalizedModel.listing)

namespace Command

/-- The configuration file that a command reads. -/
def file : Command → String
  | .compile configuration .. => configuration
  | .check configuration => configuration

/-- Compiles a predicate and prints what is asked for. -/
def compiled (registry : Registry) (model predicate : String) (options : CompileOptions)
    (output : OutputFormat) : Outcome :=
  match registry.get model with
  | .error error => .failure s!"Error: {error.message}"
  | .ok localized =>
    match localized.compile predicate options with
    | .error error => .failure s!"Compilation error: {error.message}"
    | .ok compilation =>
      match output with
      | .plan => { stdout := planReport compilation.joins ++ "\n" }
      | .sql =>
        match compilation.sql with
        | .error error => .failure s!"Compilation error: {error.message}"
        | .ok sql => { stdout := sql ++ "\n" }

/-- Carries out a command, given what is found at the path of its configuration file. -/
def run (command : Command) (content : FileContent) : Outcome :=
  match Registry.ofFile command.file content with
  | .error error => .failure s!"Configuration error in '{command.file}': {error.message}"
  | .ok registry =>
    match command with
    | .compile _ model locale invert dialect output predicate =>
      compiled registry model predicate
        { locale := ⟨locale⟩, dialect := dialect, invert := invert } output
    | .check path => { stdout := registry.listing path }

end Command

end LocalizedQuery
