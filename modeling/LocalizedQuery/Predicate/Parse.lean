import LocalizedQuery.Predicate.Grammar.Expression
import LocalizedQuery.Predicate.Lowering

/-!
# Predicates as text

A predicate is written as an SQL condition. `parsePredicate` reads it: first by the grammar, without
regard to names, and then into an expression, with a resolver for bare names.
-/

namespace LocalizedQuery

/-- Why the text of a predicate has no expression. -/
inductive PredicateError where
  | syntaxError (reason : SyntaxError)
  | unsupported (form : UnsupportedForm)
deriving DecidableEq, Repr

/-- The wording of an error. -/
def PredicateError.message : PredicateError → String
  | .syntaxError reason => s!"Invalid predicate: {reason.message}"
  | .unsupported form => s!"Unsupported predicate construct: {form.spelling}"

/-- The expression that a text denotes, where `resolve` replaces the bare names that it claims. -/
def parsePredicate (resolve : String → Option Expr) (text : String) :
    Except PredicateError Expr := do
  let tree ← (Tree.ofText text).mapError .syntaxError
  (tree.lower resolve).mapError .unsupported

end LocalizedQuery
