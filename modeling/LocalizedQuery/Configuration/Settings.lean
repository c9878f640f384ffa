import LocalizedQuery.Backend.KeyValue
import LocalizedQuery.Configuration.Error
import LocalizedQuery.Toml.Reader

/-!
# Settings

Settings declare which attributes of which models are localized, and in which backends. They are
written in TOML, as a table `models` with a table for every model:

* `type_name` and `primary_key` of the model,
* `key_value`, an array of groups with `type`, `attributes`, `table` and `columns`,
* `table`, a group with `attributes`, `table` and `foreign_key`.

All may be left out except the `type` and `attributes` of a group. No other keys may stand beside
them, but the document may hold more than `models`. A record may also be written as an array, with
its fields in the order given here; elements beyond the last field are not looked at.
-/

namespace LocalizedQuery

/-- A group of attributes that are kept in a key-value table. -/
structure KeyValueSettings where
  typeName : String
  attributeNames : List String
  table : Option String := none
  columns : Option KeyValueColumns := none
deriving DecidableEq, Repr, Inhabited

/-- The attributes that are kept in a table of their own. -/
structure TableSettings where
  attributeNames : List String
  table : Option String := none
  foreignKey : Option String := none
deriving DecidableEq, Repr, Inhabited

/-- What is declared of a model. -/
structure ModelSettings where
  typeName : Option String := none
  primaryKey : Option String := none
  keyValue : List KeyValueSettings := []
  table : Option TableSettings := none
deriving DecidableEq, Repr, Inhabited

/-- What is declared of all models, by their tables. -/
structure Settings where
  models : NameMap ModelSettings := {}
deriving Repr, Inhabited

/-! ## Reading -/

namespace Toml

/-- A text. -/
def asText : Toml → Except String String
  | .string value => .ok value
  | _ => .error "a text was expected"

/-- The elements of an array. -/
def asArray : Toml → Except String (List Toml)
  | .array items | .tables items => .ok items
  | _ => .error "an array was expected"

/-- The entries of a table. -/
def asTable : Toml → Except String (List (String × Toml))
  | .table _ entries => .ok entries
  | _ => .error "a table was expected"

/-- An array of texts. -/
def asTexts (value : Toml) : Except String (List String) := do (← value.asArray).mapM asText

/-- The fields of a record, of which `names` are all. -/
def asRecord (names : List String) (value : Toml) : Except String (String → Option Toml) :=
  match value with
  | .table _ entries =>
    match entries.find? fun entry => !names.contains entry.1 with
    | some (name, _) => .error s!"the key '{name}' is not known"
    | none => .ok fun name => entries.lookup name
  | .array items | .tables items => .ok fun name => (names.zip items).lookup name
  | _ => .error "a table was expected"

/-- A field that may be left out. -/
def optional {α : Type} (read : Toml → Except String α) (value : Option Toml) :
    Except String (Option α) :=
  value.mapM read

/-- A field that may not be left out. -/
def required {α : Type} (read : Toml → Except String α) (value : Option Toml) : Except String α :=
  match value with
  | some value => read value
  | none => .error "a required key is missing"

end Toml

open Toml

/-- The column names that a record gives; the others keep their defaults. -/
def KeyValueColumns.ofToml (value : Toml) : Except String KeyValueColumns := do
  let field ← value.asRecord ["key", "value", "locale", "owner_id", "owner_type"]
  let name (key default : String) : Except String String := do
    return (← optional asText (field key)).getD default
  let standard : KeyValueColumns := {}
  return {
    key := ← name "key" standard.key
    value := ← name "value" standard.value
    locale := ← name "locale" standard.locale
    ownerId := ← name "owner_id" standard.ownerId
    ownerType := ← name "owner_type" standard.ownerType }

/-- The key-value group that a record describes. -/
def KeyValueSettings.ofToml (value : Toml) : Except String KeyValueSettings := do
  let field ← value.asRecord ["type", "attributes", "table", "columns"]
  return {
    typeName := ← required asText (field "type")
    attributeNames := ← required asTexts (field "attributes")
    table := ← optional asText (field "table")
    columns := ← optional KeyValueColumns.ofToml (field "columns") }

/-- The table that a record describes. -/
def TableSettings.ofToml (value : Toml) : Except String TableSettings := do
  let field ← value.asRecord ["attributes", "table", "foreign_key"]
  return {
    attributeNames := ← required asTexts (field "attributes")
    table := ← optional asText (field "table")
    foreignKey := ← optional asText (field "foreign_key") }

/-- What a record declares of a model. -/
def ModelSettings.ofToml (value : Toml) : Except String ModelSettings := do
  let field ← value.asRecord ["type_name", "primary_key", "key_value", "table"]
  let groups ← optional asArray (field "key_value")
  return {
    typeName := ← optional asText (field "type_name")
    primaryKey := ← optional asText (field "primary_key")
    keyValue := ← (groups.getD []).mapM KeyValueSettings.ofToml
    table := ← optional TableSettings.ofToml (field "table") }

/-- What a document declares of its models. -/
def Settings.ofToml (document : Toml) : Except String Settings := do
  let entries ← optional asTable ((← document.asTable).lookup "models")
  let models ← (entries.getD []).foldlM (fun models (name, value) => do
    return models.insert name (← ModelSettings.ofToml value)) {}
  return { models := models }

/-- The settings that a text describes. -/
def Settings.ofText (text : String) : Except ConfigurationError Settings :=
  match Toml.ofText? text with
  | some document => (Settings.ofToml document).mapError .malformed
  | none => .error (.malformed "this is not a TOML document")

/-! ## Files -/

/-- What is found at a path. -/
inductive FileContent where
  | missing
  /-- There is something, but it cannot be read. -/
  | unreadable (reason : String)
  | bytes (content : ByteArray)

/-- The settings in a file, which is found at a path and written in UTF-8. -/
def Settings.ofFile (path : String) : FileContent → Except ConfigurationError Settings
  | .missing => .error (.fileNotFound path)
  | .unreadable reason => .error (.unreadable reason)
  | .bytes content =>
    match String.fromUTF8? content with
    | some decoded => Settings.ofText decoded
    | none => .error (.unreadable "stream did not contain valid UTF-8")

end LocalizedQuery
