/-!
# Errors of a configuration

Why a configuration cannot be read, or why what it says cannot be built.
-/

namespace LocalizedQuery

/-- Why there is no usable configuration. -/
inductive ConfigurationError where
  | fileNotFound (path : String)
  /-- The file is there but gives no text. -/
  | unreadable (reason : String)
  /-- The text is not TOML, or not TOML that describes models. -/
  | malformed (reason : String)
  | unknownKeyValueType (model typeName : String)
  /-- Two backends keep the attribute, or one of them names it twice. -/
  | duplicateAttribute (model attributeName : String)
  | unknownModel (name : String)
  /-- The backend belongs to the model `bound` and was given to another. -/
  | foreignBackend (backend bound model : String)
  | noAttributes (backend model : String)
  | noBackends (model : String)
deriving DecidableEq, Repr

/-- The wording of an error. -/
def ConfigurationError.message : ConfigurationError → String
  | .fileNotFound path => s!"Config file not found: {path}"
  | .unreadable reason => s!"Failed to read config file: {reason}"
  | .malformed reason => s!"Failed to parse config file: {reason}"
  | .unknownKeyValueType model typeName =>
    s!"Unknown key-value type '{typeName}' on model '{model}' (expected string or text)"
  | .duplicateAttribute model attributeName =>
    s!"Attribute '{attributeName}' of model '{model}' is declared more than once"
  | .unknownModel name => s!"Model not found: {name}"
  | .foreignBackend backend bound model =>
    s!"Invalid configuration: {backend} backend is bound to '{bound}', not '{model}'"
  | .noAttributes backend model =>
    s!"Invalid configuration: {backend} backend of '{model}' translates no attributes"
  | .noBackends model =>
    s!"Invalid configuration: model '{model}' declares no translation backends"

end LocalizedQuery
