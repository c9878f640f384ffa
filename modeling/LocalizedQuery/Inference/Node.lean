import LocalizedQuery.Sql.Expr

/-!
# Families of expressions

For join inference an expression belongs to one of a few families, each with the sub-expressions
that matter to it: its *operands*. `Node.of` finds the family. A comparison by `=`, a test for
`NULL` and membership in a list are equalities, whose operands leave `NULL` literals out; nested
conjunctions are one conjunction.

Operands are always smaller than the expression (`Node.sizeOf_lt_of_mem_operands`), which is why
functions may recurse on them.
-/

namespace LocalizedQuery

/-- The family of an expression, over whatever stands for its operands. -/
inductive Node (α : Type) where
  /-- A localized attribute. -/
  | localized (ref : Reference)
  /-- A comparison of the operands; `null` says whether `NULL` is compared with, too. -/
  | equality (operands : List α) (null : Bool)
  | or (left right : α)
  | and (conjuncts : List α)
  | binary (left right : α)
  | unary (inner : α)
  | collection (children : List α)
  /-- Nothing that could hold a localized attribute. -/
  | leaf
  /-- A form that inference does not see through. -/
  | unsupported (form : String)

namespace Node

variable {α β : Type}

/-- The operands, in source order. -/
def operands : Node α → List α
  | .equality operands _ => operands
  | .or left right | .binary left right => [left, right]
  | .and conjuncts => conjuncts
  | .unary inner => [inner]
  | .collection children => children
  | .localized _ | .leaf | .unsupported _ => []

/-- Replaces every operand. -/
def map (f : α → β) : Node α → Node β
  | .localized ref => .localized ref
  | .equality operands null => .equality (operands.map f) null
  | .or left right => .or (f left) (f right)
  | .and conjuncts => .and (conjuncts.map f)
  | .binary left right => .binary (f left) (f right)
  | .unary inner => .unary (f inner)
  | .collection children => .collection (children.map f)
  | .leaf => .leaf
  | .unsupported form => .unsupported form

/-- Every operand together with the fact that it is one. -/
def attach : (node : Node α) → Node { a // a ∈ node.operands }
  | .localized ref => .localized ref
  | .equality operands null => .equality operands.attach null
  | .or left right => .or ⟨left, by simp [operands]⟩ ⟨right, by simp [operands]⟩
  | .and conjuncts => .and conjuncts.attach
  | .binary left right => .binary ⟨left, by simp [operands]⟩ ⟨right, by simp [operands]⟩
  | .unary inner => .unary ⟨inner, by simp [operands]⟩
  | .collection children => .collection children.attach
  | .leaf => .leaf
  | .unsupported form => .unsupported form

theorem map_val_attach (l : List α) (f : α → β) : l.attach.map (fun a => f a.1) = l.map f := by
  rw [show (fun a : { a // a ∈ l } => f a.1) = f ∘ Subtype.val from rfl, ← List.map_map,
    List.attach_map_subtype_val]

@[simp] theorem map_attach (node : Node α) (f : α → β) :
    node.attach.map (fun a => f a.1) = node.map f := by
  cases node with
  | equality operands null => exact congrArg (Node.equality · null) (map_val_attach operands f)
  | and conjuncts => exact congrArg Node.and (map_val_attach conjuncts f)
  | collection children => exact congrArg Node.collection (map_val_attach children f)
  | _ => rfl

/-- The conjuncts of nested conjunctions, in source order. -/
def conjuncts : Expr → List Expr
  | .binary .and left right => conjuncts left ++ conjuncts right
  | e => [e]

/-- A comparison of operands for equality. -/
def comparison (operands : List Expr) : Node Expr :=
  .equality (operands.filter (fun e => !e.isNullLiteral)) (operands.any Expr.isNullLiteral)

/-- The family of an expression. -/
def of : Expr → Node Expr
  | .localized ref => .localized ref
  | .binary .eq left right => comparison [left, right]
  | .binary .or left right => .or left right
  | .binary .and left right => .and (conjuncts left ++ conjuncts right)
  | .binary _ left right => .binary left right
  | .isNull e false => .equality [e] true
  | .inList e values false => .equality (e :: values.filter (fun v => !v.isNullLiteral)) false
  | .isNull e true => .unary e
  | .unary _ e => .unary e
  | .paren e => .unary e
  | .inList e values true => .collection (e :: values)
  | .between e low high _ => .collection [e, low, high]
  | .call _ args => .collection args
  | .caseOf .. => .unsupported "CASE"
  | .column .. | .literal _ | .star _ => .leaf

/-! ## Operands are smaller -/

theorem sizeOf_le_of_mem_conjuncts {c : Expr} (e : Expr) (h : c ∈ conjuncts e) :
    sizeOf c ≤ sizeOf e := by
  fun_induction conjuncts e with
  | case1 left right ihl ihr =>
    rcases List.mem_append.mp h with h | h
    · have := ihl h
      simp
      omega
    · have := ihr h
      simp
      omega
  | case2 e => simp_all

theorem sizeOf_lt_of_mem_operands {c : Expr} {e : Expr} (h : c ∈ (of e).operands) :
    sizeOf c < sizeOf e := by
  fun_cases of e
  case case4 left right =>
    simp only [of, operands, List.mem_append] at h
    rcases h with h | h <;> have := sizeOf_le_of_mem_conjuncts _ h <;> simp <;> omega
  all_goals
    apply Expr.sizeOf_lt_of_mem_children
    simp_all [of, operands, Expr.children, comparison]
  all_goals first
    | exact h.1
    | exact h.imp_right And.left

end Node

end LocalizedQuery
