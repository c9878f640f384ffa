import LocalizedQuery.Inference.Error
import LocalizedQuery.Inference.Node

/-!
# Visitors

A visitor computes something from the localized references that it owns, family by family. Each
family is by default treated like a more general one: an equality or a conjunction is a collection
of its operands, `OR` is a binary node, and a binary node is a collection of two. A visitor says
what a reference gives and how results combine, and replaces the treatment of the families it cares
about.

`Visitor.accept` is the result for an expression; `Visitor.accept_eq` says how it follows from the
results of the operands. A `CASE` is never looked into: it is an error if it hides a reference that
the visitor owns (`Visitor.unsupported`).

`rejectUnsupported` makes only that test, on a whole expression and without computing a result.
-/

namespace LocalizedQuery

/-- An operand together with the action that gives its result. -/
structure Visit (m : Type → Type) (ω : Type) where
  expr : Expr
  result : m ω

/-- A computation over expressions with results in `ω`, in the monad `m`. -/
structure Visitor (m : Type → Type) [Monad m] (ω : Type) where
  /-- Whether a reference is this visitor's. -/
  owns : Reference → Bool
  /-- The result for an owned reference. -/
  localized : Reference → ω
  /-- The result of two neighbours from theirs. -/
  combine : ω → ω → ω
  /-- The result for what holds no owned reference. -/
  empty : ω
  collection : List (Visit m ω) → m ω := fun children =>
    children.foldlM (fun acc child => do return combine acc (← child.result)) empty
  equality : List (Visit m ω) → (null : Bool) → m ω := fun operands _ => collection operands
  conjunction : List (Visit m ω) → m ω := collection
  binary : Visit m ω → Visit m ω → m ω := fun left right => collection [left, right]
  disjunction : Visit m ω → Visit m ω → m ω := binary
  unary : Visit m ω → m ω := Visit.result

/-- The error about a form that hides an owned reference, if it hides one. -/
def hiddenReference (owns : Reference → Bool) (form : String) (e : Expr) :
    Option InferenceError :=
  (e.findReference owns).map fun ref => .unsupportedNode form ref.attributeName

namespace Visitor

variable {m : Type → Type} [Monad m] [MonadExceptOf InferenceError m] {ω : Type}

/-- The result for a form that inference does not see through. -/
def unsupported (v : Visitor m ω) (form : String) (e : Expr) : m ω :=
  match hiddenReference v.owns form e with
  | some error => throw error
  | none => pure v.empty

/-- The result for an expression from the results of its operands. -/
def handle (v : Visitor m ω) (e : Expr) : Node (Visit m ω) → m ω
  | .localized ref => pure (if v.owns ref then v.localized ref else v.empty)
  | .leaf => pure v.empty
  | .equality operands null => v.equality operands null
  | .or left right => v.disjunction left right
  | .and conjuncts => v.conjunction conjuncts
  | .binary left right => v.binary left right
  | .unary inner => v.unary inner
  | .collection children => v.collection children
  | .unsupported form => v.unsupported form e

/-- The result for an expression. -/
def accept (v : Visitor m ω) (e : Expr) : m ω :=
  v.handle e ((Node.of e).attach.map fun operand => ⟨operand.1, accept v operand.1⟩)
termination_by e
decreasing_by exact Node.sizeOf_lt_of_mem_operands operand.2

/-- The result for an expression follows from its family and the results of its operands. -/
theorem accept_eq (v : Visitor m ω) (e : Expr) :
    v.accept e = v.handle e ((Node.of e).map fun operand => ⟨operand, v.accept operand⟩) := by
  rw [accept]
  exact congrArg (v.handle e)
    (Node.map_attach (Node.of e) fun operand => (⟨operand, v.accept operand⟩ : Visit m ω))

end Visitor

namespace Expr

mutual

/-- The `CASE` expressions below an expression that stand in no other `CASE`, in source order. -/
def outermostCases : Expr → List Expr
  | .caseOf operand branches otherwise => [.caseOf operand branches otherwise]
  | .binary _ left right => left.outermostCases ++ right.outermostCases
  | .unary _ e | .isNull e _ | .paren e => e.outermostCases
  | .call _ args => outermostCasesOfList args
  | .inList operand values _ => operand.outermostCases ++ outermostCasesOfList values
  | .between operand low high _ =>
    operand.outermostCases ++ low.outermostCases ++ high.outermostCases
  | .localized _ | .column .. | .literal _ | .star _ => []

/-- The outermost `CASE` expressions of a list. -/
def outermostCasesOfList : List Expr → List Expr
  | [] => []
  | e :: rest => e.outermostCases ++ outermostCasesOfList rest

end

end Expr

/-- Refuses an expression in which a `CASE` hides an owned reference. The first such `CASE`
decides. -/
def rejectUnsupported (owns : Reference → Bool) (e : Expr) : Except InferenceError Unit :=
  match e.outermostCases.findSome? (hiddenReference owns "CASE") with
  | some error => .error error
  | none => .ok ()

end LocalizedQuery
