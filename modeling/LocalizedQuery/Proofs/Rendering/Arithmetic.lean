import LocalizedQuery.Proofs.Rendering.RoundTrip
import LocalizedQuery.Proofs.Rendering.Spelling

/-!
# Texts of arithmetic

Which arithmetic expressions have the same text. Where names stand in double quotes, a text tells
its tokens, and tokens tell what is spelled out: so expressions have the same text exactly if they
spell out the same (`Expr.toSql_eq_iff`).

What is spelled out is not the expression. It is left-grouped (`Expr.Explicit`): a right operand on
the level of its operator has parentheses there, which `Expr.tokens` does not write. An expression
without such operands (`Expr.LeftGrouped`) is found again by leaving out the parentheses, so these
expressions are told by their texts.

## Main results

* `Expr.Arithmetic.toSql_eq_ok` — arithmetic can be written
* `Expr.toSql_eq_iff` — the same text, the same spelled out
* `Expr.eq_of_toSql_eq` — left-grouped expressions are told by their texts
-/

namespace LocalizedQuery

theorem BinaryOperator.IsArithmetic.ne_concat {op : BinaryOperator} (h : op.IsArithmetic) :
    op ≠ .concat := by
  rintro rfl
  simp [BinaryOperator.IsArithmetic] at h

namespace Expr

/-- Columns and natural numbers under arithmetic operators and comparisons, without parentheses. -/
inductive Arithmetic : Expr → Prop
  | column (table : Option String) (name : String) : Arithmetic (.column table name)
  | number (n : Nat) : Arithmetic (.literal (.int n))
  | binary {op : BinaryOperator} {left right : Expr} : op.IsArithmetic → Arithmetic left →
      Arithmetic right → Arithmetic (.binary op left right)

/-- Arithmetic expressions that are spelled out as they are: operands bind as tightly as their
places ask for, and right operands tighter than their operators. -/
inductive Explicit : Expr → Prop
  | column (table : Option String) (name : String) : Explicit (.column table name)
  | number (n : Nat) : Explicit (.literal (.int n))
  | paren {e : Expr} : Explicit e → Explicit (.paren e)
  | binary {op : BinaryOperator} {left right : Expr} : op.IsArithmetic →
      op.precedence ≤ left.precedence → op.precedence < right.precedence → Explicit left →
      Explicit right → Explicit (.binary op left right)

/-- Expressions in which no right operand is on the level of its operator. -/
def LeftGrouped : Expr → Prop
  | .binary op left right => right.precedence ≠ op.precedence ∧ LeftGrouped left ∧ LeftGrouped right
  | _ => True

/-- An arithmetic expression without its parentheses. -/
def bare : Expr → Expr
  | .paren e => bare e
  | .binary op left right => .binary op (bare left) (bare right)
  | e => e

variable {d : Dialect} {op : BinaryOperator} {e e' left right : Expr}

/-! ## No operand is `NULL` -/

theorem Arithmetic.isNullLiteral_eq (h : e.Arithmetic) : e.isNullLiteral = false := by
  cases h <;> rfl

theorem Explicit.isNullLiteral_eq (h : e.Explicit) : e.isNullLiteral = false := by
  cases h <;> rfl

theorem comparedWithNull_eq_none (hleft : left.isNullLiteral = false)
    (hright : right.isNullLiteral = false) {α : Type} (onLeft onRight : α) :
    comparedWithNull op left right onLeft onRight = none := by
  simp [comparedWithNull, hleft, hright]

/-- The tokens of an operator between operands that are not the literal `NULL`. -/
theorem tokens_binary (hop : op.IsArithmetic) (hleft : left.isNullLiteral = false)
    (hright : right.isNullLiteral = false) :
    (binary op left right).tokens d
      = operandTokens op.precedence left (left.tokens d) ++ [.space, op.token, .space] ++
          operandTokens op.precedence right (right.tokens d) := by
  rw [tokens]
  simp only [comparedWithNull_eq_none hleft hright, hop.ne_concat, false_and, if_false]

theorem written_binary (hleft : left.Arithmetic) (hright : right.Arithmetic) :
    (binary op left right).written
      = graft op (placed op.precedence left left.written)
          (placed op.precedence right right.written) := by
  rw [written, comparedWithNull_eq_none hleft.isNullLiteral_eq hright.isNullLiteral_eq]

theorem Arithmetic.formula (h : e.Arithmetic) : e.Formula := by
  induction h with
  | column table name => exact .leaf (.plain (.column table name))
  | number n => exact .leaf (.plain (.literal (.int n)))
  | binary hop _ _ ihl ihr => exact .binary hop.ne_concat ihl ihr

/-! ## Spacing -/

open Spelling

theorem spaced_operandTokens {ts : List Token} (least : Nat) (e : Expr) (h : Spaced ts) :
    Spaced (e.operandTokens least ts) := by
  rw [operandTokens]
  split
  · exact Spaced.nil.append_delimiter rfl (h.append_delimiter rfl .nil)
  · exact h

theorem Arithmetic.spaced_tokens (h : e.Arithmetic) (d : Dialect) : Spaced (e.tokens d) := by
  induction h with
  | column table name =>
    cases table with
    | none => exact .singleton (.name name)
    | some table =>
      exact (Spaced.singleton (.name table)).append_delimiter rfl (.singleton (.name name))
  | number n => exact .singleton (.number n)
  | @binary op left right hop hleft hright ihl ihr =>
    rw [tokens_binary hop hleft.isNullLiteral_eq hright.isNullLiteral_eq, List.append_assoc]
    exact (spaced_operandTokens _ _ ihl).append_delimiter rfl
      ((Spaced.singleton (.operator hop)).append_delimiter rfl (spaced_operandTokens _ _ ihr))

/-- Arithmetic can be written in every dialect. -/
theorem Arithmetic.toSql_eq_ok (h : e.Arithmetic) (d : Dialect) : ∃ text, e.toSql d = .ok text :=
  ⟨_, writeAll_eq (h.spaced_tokens d).arithmetic⟩

/-! ## What is spelled out has the same text -/

theorem operandTokens_of_le {least : Nat} {ts : List Token} (h : least ≤ e.precedence) :
    operandTokens least e ts = ts :=
  if_neg (Nat.not_lt.mpr h)

theorem Explicit.placed {least : Nat} {shape : Expr} (h : shape.Explicit) (e : Expr) :
    (placed least e shape).Explicit := by
  rw [Expr.placed]
  split
  · exact .paren h
  · exact h

theorem tokens_placed (least : Nat) (e shape : Expr) :
    (placed least e shape).tokens d = operandTokens least e (shape.tokens d) := by
  rw [placed, operandTokens]
  split
  · rw [tokens]
  · rfl

/-- No parentheses are added where everything is explicit. -/
theorem Explicit.tokens_eq (hop : op.IsArithmetic) (hleft : left.Explicit) (hright : right.Explicit)
    (hlel : op.precedence ≤ left.precedence) (hler : op.precedence ≤ right.precedence) :
    (Expr.binary op left right).tokens d
      = left.tokens d ++ [.space, op.token, .space] ++ right.tokens d := by
  rw [tokens_binary hop hleft.isNullLiteral_eq hright.isNullLiteral_eq,
    operandTokens_of_le hlel, operandTokens_of_le hler]

/-- An explicit right operand is a chain on the level of its operator: what binds tighter, or a link
behind a shorter chain. -/
theorem Explicit.chain_induction {motive : Expr → Prop} (h : right.Explicit)
    (hle : op.precedence ≤ right.precedence)
    (plain : ∀ e, e.Explicit → op.precedence < e.precedence → motive e)
    (link : ∀ (op' : BinaryOperator) (first last : Expr), op'.IsArithmetic →
      op'.precedence = op.precedence → op.precedence ≤ first.precedence →
      op.precedence < last.precedence → first.Explicit → last.Explicit → motive first →
      motive (.binary op' first last)) :
    motive right := by
  have htight : ∀ {e : Expr}, e.precedence = 8 → op.precedence < e.precedence := fun he =>
    he ▸ lt_of_le_of_ne op.precedence_le (Reading.precedence_ne_eight op)
  induction h with
  | column table name => exact plain _ (.column table name) (htight rfl)
  | number n => exact plain _ (.number n) (htight rfl)
  | paren h => exact plain _ (.paren h) (htight rfl)
  | @binary op' first last hop' hfirst hlast hefirst helast ih _ =>
    by_cases hlevel : op'.precedence = op.precedence
    · have hle : op.precedence ≤ first.precedence := hlevel ▸ hfirst
      exact link op' first last hop' hlevel hle (hlevel ▸ hlast) hefirst helast (ih hle)
    · exact plain _ (.binary hop' hfirst hlast hefirst helast)
        (lt_of_le_of_ne hle (Ne.symm hlevel))

/-- A chain that something comes before is explicit. -/
theorem explicit_graft (hop : op.IsArithmetic) (hleft : left.Explicit) (hright : right.Explicit)
    (hlel : op.precedence ≤ left.precedence) (hler : op.precedence ≤ right.precedence) :
    (graft op left right).Explicit := by
  refine hright.chain_induction (motive := fun right => (graft op left right).Explicit) hler
    (fun e he hlt => ?_) fun op' first last hop' hlevel hfirst hlast _ helast ih => ?_
  · rw [graft_of_lt hlt]
    exact .binary hop hlel hlt hleft he
  · rw [graft_binary hlevel]
    refine .binary hop' ?_ (hlevel ▸ hlast) ih helast
    rw [precedence_graft hfirst, hlevel]

/-- That it came before does not show in the tokens. -/
theorem tokens_graft (hop : op.IsArithmetic) (hleft : left.Explicit) (hright : right.Explicit)
    (hlel : op.precedence ≤ left.precedence) (hler : op.precedence ≤ right.precedence) :
    (graft op left right).tokens d
      = left.tokens d ++ [.space, op.token, .space] ++ right.tokens d := by
  refine hright.chain_induction
    (motive := fun right => (graft op left right).tokens d
      = left.tokens d ++ [.space, op.token, .space] ++ right.tokens d)
    hler (fun e he hlt => ?_) fun op' first last hop' hlevel hfirst hlast hefirst helast ih => ?_
  · rw [graft_of_lt hlt]
    exact hleft.tokens_eq hop he hlel hlt.le
  · have hgraft : op'.precedence ≤ (graft op left first).precedence := by
      rw [precedence_graft hfirst, hlevel]
    rw [← hlevel] at hfirst hlast
    rw [graft_binary hlevel,
      (explicit_graft hop hleft hefirst hlel (hlevel ▸ hfirst)).tokens_eq hop' helast hgraft
        hlast.le, ih, hefirst.tokens_eq hop' helast hfirst hlast.le]
    simp only [List.append_assoc]

/-- What is spelled out is explicit. -/
theorem Arithmetic.explicit_written (h : e.Arithmetic) : e.written.Explicit := by
  induction h with
  | column table name => exact .column table name
  | number n => exact .number n
  | @binary op left right hop hleft hright ihl ihr =>
    rw [written_binary hleft hright]
    exact explicit_graft hop (ihl.placed left) (ihr.placed right)
      (hleft.formula.le_precedence_placed op.precedence_le)
      (hright.formula.le_precedence_placed op.precedence_le)

/-- What is spelled out has the tokens of the expression. -/
theorem Arithmetic.tokens_written (h : e.Arithmetic) (d : Dialect) :
    e.written.tokens d = e.tokens d := by
  induction h with
  | column | number => rfl
  | @binary op left right hop hleft hright ihl ihr =>
    rw [written_binary hleft hright,
      tokens_graft hop (hleft.explicit_written.placed left) (hright.explicit_written.placed right)
        (hleft.formula.le_precedence_placed op.precedence_le)
        (hright.formula.le_precedence_placed op.precedence_le),
      tokens_placed, tokens_placed, ihl, ihr,
      tokens_binary hop hleft.isNullLiteral_eq hright.isNullLiteral_eq]

/-- **The same text, the same spelled out.** -/
theorem toSql_eq_iff (hd : d.QuotesDouble) (h : e.Arithmetic) (h' : e'.Arithmetic) :
    e.toSql d = e'.toSql d ↔ e.written = e'.written := by
  constructor
  · intro htext
    have htokens : e.tokens d = e'.tokens d :=
      eq_of_writeAll_eq hd (h.spaced_tokens d) (h'.spaced_tokens d) htext
    have hread := Reading.ofTokens_tokens d h.formula
    rw [htokens, Reading.ofTokens_tokens d h'.formula] at hread
    exact (Option.some.inj hread).symm
  · intro hwritten
    rw [toSql, toSql, ← h.tokens_written d, ← h'.tokens_written d, hwritten]

/-! ## Left-grouped expressions -/

theorem bare_placed (least : Nat) (e shape : Expr) : (placed least e shape).bare = shape.bare := by
  rw [placed]
  split
  · rw [bare]
  · rfl

/-- A left-grouped expression is what is spelled out, without parentheses. -/
theorem Arithmetic.bare_written (h : e.Arithmetic) (hgrouped : e.LeftGrouped) :
    e.written.bare = e := by
  induction h with
  | column | number => rfl
  | @binary op left right hop hleft hright ihl ihr =>
    obtain ⟨hlevel, hgleft, hgright⟩ := hgrouped
    -- the right operand binds tighter, or else looser and is in parentheses
    have hlt : op.precedence < (placed op.precedence right right.written).precedence := by
      rw [placed]
      split
      · exact lt_of_le_of_ne op.precedence_le (Reading.precedence_ne_eight op)
      · have := precedence_le_written hright.formula
        omega
    rw [written_binary hleft hright, graft_of_lt hlt, bare,
      bare_placed, bare_placed, ihl hgleft, ihr hgright]

/-- **Left-grouped expressions are told by their texts.** -/
theorem eq_of_toSql_eq (hd : d.QuotesDouble) (h : e.Arithmetic) (h' : e'.Arithmetic)
    (hgrouped : e.LeftGrouped) (hgrouped' : e'.LeftGrouped) (htext : e.toSql d = e'.toSql d) :
    e = e' := by
  rw [← h.bare_written hgrouped, ← h'.bare_written hgrouped', (toSql_eq_iff hd h h').mp htext]

end Expr

end LocalizedQuery
