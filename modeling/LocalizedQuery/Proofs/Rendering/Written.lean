import LocalizedQuery.Sql.Rendering
import LocalizedQuery.Proofs.Evaluation.Fragment

/-!
# What is spelled out

Rendering leaves structure out and puts some in. `Expr.written` is the expression that the tokens of
an expression spell out, for a reader who groups what binds alike to the left:

* an operand that binds looser than its place allows is in parentheses (`Expr.placed`);
* a right operand on the level of its operator is not, so that it falls apart: its operators come
  after the one before it (`Expr.graft`). `a - (b - c)` is spelled out as `(a - b) - c`;
* a comparison with `NULL` by `=` or `<>` is a test for `NULL`, membership in the empty list is a
  truth value, and a localized attribute is a column.

Only formulas (`Expr.Formula`) are spelled out. They have neither functions nor `CASE`, and no
operator that some dialect writes as a function.

## Main results

* `Expr.precedence_graft`, `Expr.precedence_le_written` — how tightly binds what is spelled out
* `Expr.graft_graft` — an operator before a chain comes before the whole chain
-/

namespace LocalizedQuery

theorem BinaryOperator.precedence_le (op : BinaryOperator) : op.precedence ≤ 8 := by
  cases op <;> decide

namespace Expr

/-- An operand, for which `shape` is written, in a place that asks for at least the precedence
`least`. -/
def placed (least : Nat) (e shape : Expr) : Expr :=
  if e.precedence < least then .paren shape else shape

/-- `left op right` without parentheses around `right`: what stands at the left end of `right` on
the level of `op` becomes the right operand of `op`, and the links behind it continue the result. -/
def graft (op : BinaryOperator) (left : Expr) : (right : Expr) → Expr
  | .binary op' first second =>
    if op'.precedence = op.precedence then .binary op' (graft op left first) second
    else .binary op left (.binary op' first second)
  | .isNull e negated =>
    if op.precedence = 4 then .isNull (graft op left e) negated
    else .binary op left (.isNull e negated)
  | .inList e values negated =>
    if op.precedence = 4 then .inList (graft op left e) values negated
    else .binary op left (.inList e values negated)
  | .between e low high negated =>
    if op.precedence = 4 then .between (graft op left e) low high negated
    else .binary op left (.between e low high negated)
  | right => .binary op left right

mutual

/-- The expression that the tokens of a formula spell out. -/
def written : Expr → Expr
  | .localized ref => .column (some ref.table) ref.column
  | .paren e => .paren (written e)
  | .binary op left right =>
    match comparedWithNull op left right (placed 5 left (written left))
        (placed 5 right (written right)) with
    | some compared => .isNull compared (op == .ne)
    | none =>
      graft op (placed op.precedence left (written left))
        (placed op.precedence right (written right))
  | .unary .not e => .unary .not (placed 3 e (written e))
  | .inList _ [] negated => .literal (.bool negated)
  | .inList e (value :: values) negated =>
    .inList (placed 5 e (written e)) (written value :: writtenOfList values) negated
  | .between e low high negated =>
    .between (placed 5 e (written e)) (placed 5 low (written low)) (placed 5 high (written high))
      negated
  | .isNull e negated => .isNull (placed 5 e (written e)) negated
  | e => e

/-- What is spelled out for each of a list of formulas. -/
def writtenOfList : List Expr → List Expr
  | [] => []
  | e :: rest => written e :: writtenOfList rest

end

/-- Leaves under operators and tests, in any nesting. -/
inductive Formula : Expr → Prop
  | leaf {e : Expr} : e.IsLeaf → Formula e
  | binary {op : BinaryOperator} {left right : Expr} : op ≠ .concat → Formula left →
      Formula right → Formula (.binary op left right)
  | not {e : Expr} : Formula e → Formula (.unary .not e)
  | paren {e : Expr} : Formula e → Formula (.paren e)
  | isNull {e : Expr} (negated : Bool) : Formula e → Formula (.isNull e negated)
  | inList {e : Expr} {values : List Expr} (negated : Bool) : Formula e →
      (∀ value ∈ values, Formula value) → Formula (.inList e values negated)
  | between {e low high : Expr} (negated : Bool) : Formula e → Formula low → Formula high →
      Formula (.between e low high negated)

variable {op op' : BinaryOperator} {left right first second e : Expr}

/-- Conditions on leaves are formulas, however they are connected. -/
theorem Logical.formula (h : e.Logical) : e.Formula := by
  induction h with
  | atom h =>
    cases h with
    | leaf h => exact .leaf h
    | comparison hop hleft hright =>
      refine .binary ?_ (.leaf hleft) (.leaf hright)
      rintro rfl
      simp [BinaryOperator.Compares] at hop
    | isNull negated h => exact .isNull negated (.leaf h)
    | inList negated h hvalues =>
      exact .inList negated (.leaf h) fun value hvalue => .leaf (hvalues value hvalue)
    | between negated h hlow hhigh =>
      exact .between negated (.leaf h) (.leaf hlow) (.leaf hhigh)
  | and _ _ ihl ihr => exact .binary (by decide) ihl ihr
  | or _ _ ihl ihr => exact .binary (by decide) ihl ihr
  | not _ ih => exact .not ih
  | paren _ ih => exact .paren ih

/-! ## Precedences -/

/-- A place that asks for some precedence gets it. -/
theorem le_precedence_placed {least : Nat} {shape : Expr} (hleast : least ≤ 8)
    (hshape : e.precedence ≤ shape.precedence) : least ≤ (placed least e shape).precedence := by
  rw [placed]
  split
  · exact hleast
  · omega

theorem IsLeaf.precedence_eq (h : e.IsLeaf) : e.precedence = 8 := by
  cases h with
  | plain h => cases h <;> rfl
  | localized ref => rfl

/-! ## Chains -/

theorem graft_of_lt (h : op.precedence < right.precedence) :
    graft op left right = .binary op left right := by
  cases right with
  | binary op' first second =>
    exact if_neg (Nat.ne_of_gt h)
  | isNull | inList | between =>
    exact if_neg (Nat.ne_of_lt h)
  | column | literal | unary | call | caseOf | star | paren | localized => rfl

theorem graft_binary (h : op'.precedence = op.precedence) :
    graft op left (.binary op' first second) = .binary op' (graft op left first) second :=
  if_pos h

/-- What is put before a chain does not change how tightly it binds. -/
theorem precedence_graft (h : op.precedence ≤ right.precedence) :
    (graft op left right).precedence = op.precedence := by
  cases right with
  | binary op' first second =>
    rw [graft]
    split
    · assumption
    · rfl
  | isNull e negated | inList e values negated | between e low high negated =>
    rw [graft]
    split
    next h => exact h.symm
    next => rfl
  | column | literal | unary | call | caseOf | star | paren | localized => rfl

/-- An operator before a chain of its own level comes before the whole chain. -/
theorem graft_graft (h : op'.precedence = op.precedence) :
    graft op left (graft op' first second) = graft op' (graft op left first) second := by
  fun_induction graft op' first second with
  | case1 op₂ first last hlevel ih =>
    rw [graft_binary (hlevel.trans h), graft_binary hlevel, ih]
  | case2 op₂ first last hlevel =>
    rw [graft_binary h, graft, if_neg hlevel]
  | case3 e negated hlevel ih | case5 e values negated hlevel ih
  | case7 e low high negated hlevel ih =>
    rw [graft, graft, if_pos hlevel, if_pos (h ▸ hlevel), ih]
  | case4 e negated hlevel | case6 e values negated hlevel
  | case8 e low high negated hlevel =>
    rw [graft_binary h, graft, if_neg hlevel]
  | case9 second hbinary hnull hlist hrange =>
    cases second with
    | binary op₂ first last => exact (hbinary _ _ _ rfl).elim
    | isNull e negated => exact (hnull _ _ rfl).elim
    | inList e values negated => exact (hlist _ _ _ rfl).elim
    | between e low high negated => exact (hrange _ _ _ _ rfl).elim
    | column | literal | unary | call | caseOf | star | paren | localized => exact graft_binary h

/-! ## What is spelled out binds as tightly -/

theorem IsLeaf.precedence_written (h : e.IsLeaf) : e.written.precedence = 8 := by
  cases h with
  | plain h => cases h <;> rfl
  | localized ref => rfl

/-- Which side of an operator, if any, is compared with `NULL`. -/
theorem comparedWithNull_cases (op : BinaryOperator) (left right : Expr) :
    (∀ {α : Type} (onLeft onRight : α), comparedWithNull op left right onLeft onRight = none) ∨
    (op = .eq ∨ op = .ne) ∧ right = .literal .null ∧
      (∀ {α : Type} (onLeft onRight : α),
        comparedWithNull op left right onLeft onRight = some onLeft) ∨
    (op = .eq ∨ op = .ne) ∧ left = .literal .null ∧
      ∀ {α : Type} (onLeft onRight : α),
        comparedWithNull op left right onLeft onRight = some onRight := by
  by_cases hop : op = .eq ∨ op = .ne
  · cases hright : right.isNullLiteral with
    | true =>
      exact .inr (.inl ⟨hop, eq_null_of_isNullLiteral hright, fun _ _ => by
        simp [comparedWithNull, hop, hright]⟩)
    | false =>
      cases hleft : left.isNullLiteral with
      | true =>
        exact .inr (.inr ⟨hop, eq_null_of_isNullLiteral hleft, fun _ _ => by
          simp [comparedWithNull, hop, hright, hleft]⟩)
      | false => exact .inl fun _ _ => by simp [comparedWithNull, hright, hleft]
  · exact .inl fun _ _ => if_neg hop

/-- What is spelled out binds at least as tightly as the formula. -/
theorem precedence_le_written (h : e.Formula) : e.precedence ≤ e.written.precedence := by
  induction h with
  | leaf h => rw [h.precedence_eq, h.precedence_written]
  | @binary op left right _ _ _ _ ih =>
    rw [written]
    rcases comparedWithNull_cases op left right with
      hplain | ⟨rfl | rfl, -, hnull⟩ | ⟨rfl | rfl, -, hnull⟩
    case inl =>
      rw [hplain]
      exact (precedence_graft (le_precedence_placed op.precedence_le ih)).ge
    all_goals
      rw [hnull]
      exact le_rfl
  | not | paren | isNull | between => simp [written, precedence]
  | @inList e values negated _ _ _ _ => cases values <;> simp [written, precedence]

/-- An operand of a formula binds as tightly as its place asks for. -/
theorem Formula.le_precedence_placed {least : Nat} (h : e.Formula) (hleast : least ≤ 8) :
    least ≤ (e.placed least e.written).precedence :=
  Expr.le_precedence_placed hleast (precedence_le_written h)

theorem writtenOfList_eq_map (es : List Expr) : writtenOfList es = es.map written := by
  induction es with
  | nil => rfl
  | cons e es ih => rw [writtenOfList, ih, List.map_cons]

end Expr

end LocalizedQuery
