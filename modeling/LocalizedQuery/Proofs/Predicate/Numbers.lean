import LocalizedQuery.Proofs.Predicate.Lowering
import LocalizedQuery.Proofs.Rendering.Search
import Mathlib.Data.List.Forall2

/-!
# Numbers from text to query

The numbers of a tree come out in the order in which they were spelled: each becomes one literal of
the expression (`Tree.forall₂_numbers`), and each literal becomes one token of the query
(`Expr.filter_isNumber_tokens`). None is made up or moved on the way, so that what happens to a
number is what happens to it as a literal.

## What is not counted

The numbers of a tree are leaves of it. What a call has besides its name and its arguments is not
made of trees but kept as it was spelled: the parameters, and the clauses behind the arguments and
behind the parentheses (`CallForm`). Lowering passes over them and over the numbers in them, so that
the `2` of `quantile(2)(a)` is in no expression. Such numbers are out of account here, and
`Tree.lower_withoutClauses` says that they make no difference.

The leaves before an `IN ()` do not count either, as that test is written as a truth value. A text
has no such test, since its lists are not empty, but the definitions need not know that.

## Main results

* `Tree.forall₂_numbers` — the numbers of an expression are those of its tree
* `Expr.filter_isNumber_tokens` — and those of what is rendered
-/

namespace LocalizedQuery

/-- Whether a literal is a number. -/
def Literal.isNumber : Literal → Bool
  | .int _ | .float _ => true
  | _ => false

/-- Whether a token is the literal of a number. -/
def Token.isNumber : Token → Bool
  | .int _ | .float _ => true
  | _ => false

/-! ## Of expressions -/

namespace Expr

mutual

/-- The numbers that are written for an expression, in source order. -/
def numbers : Expr → List Literal
  | .literal value => if value.isNumber then [value] else []
  | .binary _ left right => left.numbers ++ right.numbers
  | .unary _ e | .isNull e _ | .paren e => e.numbers
  | .call _ args => numbersOfList args
  | .caseOf operand branches otherwise =>
    numbersOfOption operand ++ numbersOfBranches branches ++ numbersOfOption otherwise
  | .inList _ [] _ => []
  | .inList operand (value :: values) _ => operand.numbers ++ value.numbers ++ numbersOfList values
  | .between operand low high _ => operand.numbers ++ low.numbers ++ high.numbers
  | .column .. | .star _ | .localized _ => []

/-- The numbers of a list of expressions. -/
def numbersOfList : List Expr → List Literal
  | [] => []
  | e :: rest => e.numbers ++ numbersOfList rest

/-- The numbers of an expression that may be missing. -/
def numbersOfOption : Option Expr → List Literal
  | none => []
  | some e => e.numbers

/-- The numbers of the branches of a `CASE`. -/
def numbersOfBranches : List (Expr × Expr) → List Literal
  | [] => []
  | (condition, result) :: rest =>
    condition.numbers ++ result.numbers ++ numbersOfBranches rest

end

theorem filter_nameTokens (table : Option String) {last : Token} (hlast : last.isNumber = false) :
    (nameTokens table last).filter Token.isNumber = [] := by
  have hend : [last].filter Token.isNumber = [] := by simp [hlast]
  cases table with
  | none => exact hend
  | some table =>
    have hgap : [Token.name table, .dot].filter Token.isNumber = [] := rfl
    have happend := List.filter_append (p := Token.isNumber) [.name table, .dot] [last]
    rwa [hgap, hend] at happend

theorem filter_operandTokens (least : Nat) (e : Expr) (ts : List Token) :
    (operandTokens least e ts).filter Token.isNumber = ts.filter Token.isNumber := by
  rw [operandTokens]
  split_ifs <;> simp [Token.isNumber]

theorem filter_negation (negated : Bool) : (negation negated).filter Token.isNumber = [] := by
  cases negated <;> rfl

theorem filter_operator (op : BinaryOperator) :
    [Token.space, op.token, .space].filter Token.isNumber = [] := by
  cases op <;> rfl

mutual

/-- **The numbers of an expression** are those of its tokens, in the same order. -/
theorem filter_isNumber_tokens (d : Dialect) (e : Expr) :
    (e.tokens d).filter Token.isNumber = e.numbers.map Literal.token := by
  match e with
  | .column table name => exact filter_nameTokens table rfl
  | .localized ref => exact filter_nameTokens (some ref.table) rfl
  | .star table => exact filter_nameTokens table rfl
  | .literal value =>
    rw [tokens, numbers]
    cases value <;> rfl
  | .paren inner =>
    have hinner := filter_isNumber_tokens d inner
    simp [tokens, numbers, Token.isNumber, hinner]
  | .unary .not e =>
    have he := filter_isNumber_tokens d e
    simp [tokens, numbers, Token.isNumber, filter_operandTokens, he]
  | .unary .minus e =>
    have he := filter_isNumber_tokens d e
    simp [tokens, numbers, Token.isNumber, filter_operandTokens, he]
  | .isNull e negated =>
    have he := filter_isNumber_tokens d e
    simp [tokens, numbers, Token.isNumber, filter_operandTokens, he]
  | .binary op left right =>
    have hleft := filter_isNumber_tokens d left
    have hright := filter_isNumber_tokens d right
    have hnull : ∀ e : Expr, (e.operandTokens 5 (e.tokens d) ++
        [Token.space, .keyword (nullTest (op == .ne))]).filter Token.isNumber
          = (e.tokens d).filter Token.isNumber := by
      intro e
      simp [filter_operandTokens, Token.isNumber]
    rw [tokens, numbers, List.map_append, ← hleft, ← hright]
    rcases comparedWithNull_cases op left right with hplain | ⟨-, rfl, hcompared⟩ |
      ⟨-, rfl, hcompared⟩
    · rw [hplain]
      dsimp only
      split_ifs
      · simp [Token.isNumber]
      · rw [List.filter_append, List.filter_append, filter_operandTokens, filter_operandTokens,
          filter_operator, List.append_nil]
    · rw [hcompared]
      exact (hnull left).trans (List.append_nil _).symm
    · rw [hcompared]
      exact hnull right
  | .between operand low high negated =>
    have hoperand := filter_isNumber_tokens d operand
    have hlow := filter_isNumber_tokens d low
    have hhigh := filter_isNumber_tokens d high
    simp [tokens, numbers, Token.isNumber, filter_operandTokens, filter_negation, hoperand, hlow,
      hhigh]
  | .inList _ [] negated =>
    cases negated <;> rfl
  | .inList operand (value :: values) negated =>
    have hoperand := filter_isNumber_tokens d operand
    have hvalue := filter_isNumber_tokens d value
    have hvalues := filter_isNumber_followingTokens d values
    simp [tokens, numbers, Token.isNumber, filter_operandTokens, filter_negation, hoperand, hvalue,
      hvalues]
  | .call function args =>
    have hargs := filter_isNumber_listTokens d args
    simp [tokens, numbers, Token.isNumber, hargs]
  | .caseOf operand branches otherwise =>
    have hoperand := filter_isNumber_optionTokens d [.space] rfl operand
    have hbranches := filter_isNumber_branchTokens d branches
    have hotherwise :=
      filter_isNumber_optionTokens d [.space, .keyword .otherwise, .space] rfl otherwise
    simp [tokens, numbers, Token.isNumber, hoperand, hbranches, hotherwise]

/-- The numbers of a list. -/
theorem filter_isNumber_listTokens (d : Dialect) (es : List Expr) :
    (listTokens d es).filter Token.isNumber = (numbersOfList es).map Literal.token := by
  match es with
  | [] => rfl
  | e :: rest =>
    have he := filter_isNumber_tokens d e
    have hrest := filter_isNumber_followingTokens d rest
    simp [listTokens, numbersOfList, he, hrest]

/-- The numbers of the expressions after the first of a list. -/
theorem filter_isNumber_followingTokens (d : Dialect) (es : List Expr) :
    (followingTokens d es).filter Token.isNumber = (numbersOfList es).map Literal.token := by
  match es with
  | [] => rfl
  | e :: rest =>
    have he := filter_isNumber_tokens d e
    have hrest := filter_isNumber_followingTokens d rest
    simp [followingTokens, numbersOfList, Token.isNumber, he, hrest]

/-- The numbers of an expression that may be missing. -/
theorem filter_isNumber_optionTokens (d : Dialect) (lead : List Token)
    (hlead : lead.filter Token.isNumber = []) (e : Option Expr) :
    (optionTokens d lead e).filter Token.isNumber = (numbersOfOption e).map Literal.token := by
  match e with
  | none => rfl
  | some e =>
    have he := filter_isNumber_tokens d e
    rw [optionTokens, numbersOfOption, List.filter_append, hlead, List.nil_append, he]

/-- The numbers of the branches of a `CASE`. -/
theorem filter_isNumber_branchTokens (d : Dialect) (branches : List (Expr × Expr)) :
    (branchTokens d branches).filter Token.isNumber
      = (numbersOfBranches branches).map Literal.token := by
  match branches with
  | [] => rfl
  | (condition, result) :: rest =>
    have hcondition := filter_isNumber_tokens d condition
    have hresult := filter_isNumber_tokens d result
    have hrest := filter_isNumber_branchTokens d rest
    simp [branchTokens, numbersOfBranches, Token.isNumber, hcondition, hresult, hrest]

end

end Expr

/-! ## Of texts -/

namespace Tree

mutual

/-- The numbers of a tree that are written, as they are spelled, in source order. Those inside the
clauses of a call are not: they are no leaves. -/
def numerals : Tree → List String
  | .number digits _ => [digits]
  | .binary left _ right => left.numerals ++ right.numerals
  | .nested inner | .signed _ inner | .isNull inner _ => inner.numerals
  | .call _ args => numeralsOfArguments args
  | .inList _ [] _ => []
  | .inList operand (value :: values) _ =>
    operand.numerals ++ value.numerals ++ numeralsOfList values
  | .between operand low high _ => operand.numerals ++ low.numerals ++ high.numerals
  | .like operand pattern _ _ _ => operand.numerals ++ pattern.numerals
  | .name _ | .path _ | .text _ | .bool _ | .null | .subquery _ | .foreign _ => []

/-- The numbers of a list of trees. -/
def numeralsOfList : List Tree → List String
  | [] => []
  | tree :: rest => tree.numerals ++ numeralsOfList rest

/-- The numbers of arguments. -/
def numeralsOfArguments : List Argument → List String
  | [] => []
  | .positional value :: rest => value.numerals ++ numeralsOfArguments rest
  | .special _ :: rest => numeralsOfArguments rest

end

/-- A spelling and the literal that it becomes. -/
def Becomes (digits : String) (value : Literal) : Prop :=
  lowerNumber digits = .ok (.literal value)

variable {resolve : String → Option Expr}

theorem forall₂_lowerNumber {digits : String} {e : Expr} (h : lowerNumber digits = .ok e) :
    List.Forall₂ Becomes [digits] e.numbers := by
  have hliteral : ∀ value : Literal, value.isNumber = true →
      lowerNumber digits = .ok (.literal value) →
      List.Forall₂ Becomes [digits] (Expr.literal value).numbers := by
    intro value hvalue hlower
    rw [Expr.numbers, if_pos hvalue]
    exact .cons hlower .nil
  fun_cases lowerNumber digits with
  | case1 value hvalue =>
    rw [lowerNumber, hvalue, Except.ok.injEq] at h
    subst h
    exact hliteral _ rfl (by rw [lowerNumber, hvalue])
  | case2 hvalue x hx =>
    rw [lowerNumber, hvalue, hx, Except.ok.injEq] at h
    subst h
    exact hliteral _ rfl (by rw [lowerNumber, hvalue, hx])
  | case3 hvalue hnone =>
    rw [lowerNumber, hvalue, hnone] at h
    cases h

mutual

/-- **The numbers of an expression** are those of its tree, in the same order. -/
theorem forall₂_numbers (hresolve : ∀ name e, resolve name = some e → e.numbers = [])
    (tree : Tree) {e : Expr} (h : tree.lower resolve = .ok e) :
    List.Forall₂ Becomes tree.numerals e.numbers := by
  match tree with
  | .name ident =>
    rw [lower, Except.ok.injEq] at h
    cases hname : resolve ident.text with
    | none =>
      rw [hname, Option.getD_none] at h
      exact h ▸ .nil
    | some resolved =>
      rw [hname, Option.getD_some] at h
      rw [← h, hresolve _ _ hname]
      exact .nil
  | .path parts =>
    match parts with
    | [table, column] =>
      rw [lower, Except.ok.injEq] at h
      exact h ▸ .nil
    | [] | [_] | _ :: _ :: _ :: _ => simp [lower] at h
  | .number digits _ =>
    rw [lower] at h
    exact forall₂_lowerNumber h
  | .text _ | .bool _ | .null =>
    rw [lower, Except.ok.injEq] at h
    exact h ▸ .nil
  | .subquery _ | .foreign _ => simp [lower] at h
  | .signed .plus operand =>
    rw [lower] at h
    exact forall₂_numbers hresolve operand h
  | .nested inner | .signed .minus inner | .signed .not inner | .isNull inner _ =>
    rw [lower] at h
    obtain ⟨inner', hinner, h⟩ := bind_eq_ok.mp h
    rw [pure_eq_ok] at h
    subst h
    have hnumbers := forall₂_numbers hresolve inner hinner
    exact hnumbers
  | .binary left op right =>
    rw [lower] at h
    obtain ⟨left', hleft, h⟩ := bind_eq_ok.mp h
    cases op with
    | foreign spelling => simp [throw, throwThe, MonadExceptOf.throw] at h
    | known op =>
      obtain ⟨right', hright, h⟩ := bind_eq_ok.mp h
      rw [pure_eq_ok] at h
      exact h ▸ List.rel_append (forall₂_numbers hresolve left hleft)
        (forall₂_numbers hresolve right hright)
  | .like operand pattern negated _ _ =>
    rw [lower] at h
    obtain ⟨operand', hoperand, h⟩ := bind_eq_ok.mp h
    obtain ⟨pattern', hpattern, h⟩ := bind_eq_ok.mp h
    rw [pure_eq_ok] at h
    have hlike := List.rel_append (forall₂_numbers hresolve operand hoperand)
      (forall₂_numbers hresolve pattern hpattern)
    cases negated <;> exact h ▸ hlike
  | .inList operand values _ =>
    rw [lower] at h
    obtain ⟨operand', hoperand, h⟩ := bind_eq_ok.mp h
    obtain ⟨values', hvalues, h⟩ := bind_eq_ok.mp h
    rw [pure_eq_ok] at h
    subst h
    match values with
    | [] =>
      rw [lowerList, Except.ok.injEq] at hvalues
      exact hvalues ▸ .nil
    | value :: rest =>
      rw [lowerList] at hvalues
      obtain ⟨value', hvalue, hvalues⟩ := bind_eq_ok.mp hvalues
      obtain ⟨rest', hrest, hvalues⟩ := bind_eq_ok.mp hvalues
      rw [pure_eq_ok] at hvalues
      subst hvalues
      exact List.rel_append (List.rel_append (forall₂_numbers hresolve operand hoperand)
        (forall₂_numbers hresolve value hvalue)) (forall₂_numbersOfList hresolve rest hrest)
  | .between operand low high _ =>
    rw [lower] at h
    obtain ⟨operand', hoperand, h⟩ := bind_eq_ok.mp h
    obtain ⟨low', hlow, h⟩ := bind_eq_ok.mp h
    obtain ⟨high', hhigh, h⟩ := bind_eq_ok.mp h
    rw [pure_eq_ok] at h
    exact h ▸ List.rel_append (List.rel_append (forall₂_numbers hresolve operand hoperand)
      (forall₂_numbers hresolve low hlow)) (forall₂_numbers hresolve high hhigh)
  | .call form args =>
    rw [lower] at h
    obtain ⟨args', hargs, h⟩ := bind_eq_ok.mp h
    rw [pure_eq_ok] at h
    exact h ▸ forall₂_numbersOfArguments hresolve args hargs

/-- The numbers of lists. -/
theorem forall₂_numbersOfList (hresolve : ∀ name e, resolve name = some e → e.numbers = [])
    (trees : List Tree) {es : List Expr} (h : lowerList resolve trees = .ok es) :
    List.Forall₂ Becomes (numeralsOfList trees) (Expr.numbersOfList es) := by
  match trees with
  | [] =>
    rw [lowerList, Except.ok.injEq] at h
    exact h ▸ .nil
  | tree :: rest =>
    rw [lowerList] at h
    obtain ⟨first, hfirst, h⟩ := bind_eq_ok.mp h
    obtain ⟨others, hothers, h⟩ := bind_eq_ok.mp h
    rw [pure_eq_ok] at h
    exact h ▸ List.rel_append (forall₂_numbers hresolve tree hfirst)
      (forall₂_numbersOfList hresolve rest hothers)

/-- The numbers of arguments. -/
theorem forall₂_numbersOfArguments (hresolve : ∀ name e, resolve name = some e → e.numbers = [])
    {call : UnsupportedForm} (args : List Argument) {es : List Expr}
    (h : lowerArguments resolve call args = .ok es) :
    List.Forall₂ Becomes (numeralsOfArguments args) (Expr.numbersOfList es) := by
  match args with
  | [] =>
    rw [lowerArguments, Except.ok.injEq] at h
    exact h ▸ .nil
  | .special _ :: _ => simp [lowerArguments] at h
  | .positional value :: rest =>
    rw [lowerArguments] at h
    obtain ⟨first, hfirst, h⟩ := bind_eq_ok.mp h
    obtain ⟨others, hothers, h⟩ := bind_eq_ok.mp h
    rw [pure_eq_ok] at h
    exact h ▸ List.rel_append (forall₂_numbers hresolve value hfirst)
      (forall₂_numbersOfArguments hresolve rest hothers)

end

end Tree

end LocalizedQuery
