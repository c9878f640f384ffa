/-!
# Errors of inference

Why no joins can be found for a predicate, or no reference built for an attribute. Attributes of
other backends and plain columns are never errors: they need no join.
-/

namespace LocalizedQuery

/-- Why a predicate cannot be compiled. -/
inductive InferenceError where
  /-- A form that inference cannot see through holds a localized attribute that needs a join. -/
  | unsupportedNode (form attributeName : String)
  /-- No backend of the model keeps the attribute. -/
  | foreignAttribute (model attributeName : String)
  /-- The backend does not keep the attribute. -/
  | unknownAttribute (backend model attributeName : String)
deriving DecidableEq, Repr

/-- The wording of an error. -/
def InferenceError.message : InferenceError → String
  | .unsupportedNode form attributeName =>
    s!"Unsupported {form} expression around translated attribute '{attributeName}'"
  | .foreignAttribute model attributeName =>
    s!"Model '{model}' has no translated attribute '{attributeName}'"
  | .unknownAttribute backend model attributeName =>
    s!"Attribute '{attributeName}' is not translated by the {backend} backend of '{model}'"

end LocalizedQuery
