import LocalizedQuery.Proofs.Rendering.RoundTrip
import LocalizedQuery.Sql.Query

/-!
# Boolean structure

A condition in which `AND`, `OR` and `NOT` connect conditions on leaves comes back from its tokens
with the structure it had. What may change is how it is written down, and `Expr.Alike` lists the
ways: parentheses, the grouping of a chain of `AND` or of `OR`, a comparison with `NULL` as a test,
and membership in the empty list as a truth value. None of them changes a value.

A localized attribute comes back as the column it is written as (`Expr.named`).

## Main results

* `Expr.Alike.value_eq` — conditions that are alike have the same value in every row
* `Expr.value_named` — and so have a localized attribute and its column
* `Expr.Logical.written_alike` — what is spelled out for a condition is alike to it
* `Expr.Logical.truth_of_read` — what is read holds where the condition does
* `Query.rendered_structure` — reading what is rendered gives back the structure, of conditions
  and of all the filters of a query
-/

namespace LocalizedQuery

variable {α : Type}

namespace Expr

/-! ## Columns in place of localized attributes -/

mutual

/-- An expression with every localized attribute replaced by the column it is written as. -/
def named : Expr → Expr
  | .localized ref => .column (some ref.table) ref.column
  | .binary op left right => .binary op (named left) (named right)
  | .unary op e => .unary op (named e)
  | .call function args => .call function (namedOfList args)
  | .caseOf operand branches otherwise =>
    .caseOf (namedOfOption operand) (namedOfBranches branches) (namedOfOption otherwise)
  | .inList e values negated => .inList (named e) (namedOfList values) negated
  | .between e low high negated => .between (named e) (named low) (named high) negated
  | .isNull e negated => .isNull (named e) negated
  | .paren e => .paren (named e)
  | .column table name => .column table name
  | .literal l => .literal l
  | .star table => .star table

/-- A list of expressions with columns in place of localized attributes. -/
def namedOfList : List Expr → List Expr
  | [] => []
  | e :: rest => named e :: namedOfList rest

/-- The same for an expression that may be left out. -/
def namedOfOption : Option Expr → Option Expr
  | none => none
  | some e => some (named e)

/-- The same for the branches of a `CASE`. -/
def namedOfBranches : List (Expr × Expr) → List (Expr × Expr)
  | [] => []
  | (condition, result) :: rest => (named condition, named result) :: namedOfBranches rest

end

theorem isNullLiteral_named (e : Expr) : e.named.isNullLiteral = e.isNullLiteral := by
  cases e <;> rfl

section

variable (I : Interpretation α) (row : Row α)

mutual

/-- A localized attribute has the value of the column it is written as, wherever it stands. -/
theorem value_named : (e : Expr) → e.named.value I row = e.value I row
  | .column .. | .literal _ | .star _ | .localized _ => rfl
  | .paren e => by rw [named, value, value, value_named e]
  | .unary .not e | .unary .minus e | .isNull e _ => by
    rw [named, value, value, value_named e]
  | .binary op left right => by
    rw [named, value, value, isNullLiteral_named, isNullLiteral_named, value_named left,
      value_named right]
  | .between e low high _ => by
    rw [named, value, value, value_named e, value_named low, value_named high]
  | .inList e values _ => by
    rw [named, value, value, value_named e, valueOfList_named values]
  | .call _ args => by rw [named, value, value, valueOfList_named args]
  | .caseOf operand branches otherwise => by
    rw [named, value, value, valueOfOption_named operand, valueOfOption_named otherwise,
      valueOfBranches_named branches]

theorem valueOfList_named : (es : List Expr) →
    valueOfList I row (namedOfList es) = valueOfList I row es
  | [] => rfl
  | e :: rest => by
    rw [namedOfList, valueOfList, valueOfList, value_named e, valueOfList_named rest]

theorem valueOfOption_named : (e : Option Expr) →
    valueOfOption I row (namedOfOption e) = valueOfOption I row e
  | none => rfl
  | some e => by rw [namedOfOption, valueOfOption, valueOfOption, value_named e]

theorem valueOfBranches_named {scrutinee : Option (Option α)} {otherwise : Option α} :
    (branches : List (Expr × Expr)) →
      valueOfBranches I row scrutinee otherwise (namedOfBranches branches)
        = valueOfBranches I row scrutinee otherwise branches
  | [] => rfl
  | (condition, result) :: rest => by
    rw [namedOfBranches, valueOfBranches, valueOfBranches, value_named condition,
      value_named result, valueOfBranches_named rest]

end

end

/-! ## Alike conditions -/

/-- Conditions that differ in parentheses, in the grouping of chains of `AND` and of `OR`, and in
the forms that rendering replaces: comparisons with the literal `NULL` and empty lists. The parts of
conditions on leaves are the same. -/
inductive Alike : Expr → Expr → Prop
  | refl (e : Expr) : Alike e e
  | symm {e e' : Expr} : Alike e e' → Alike e' e
  | trans {e e' e'' : Expr} : Alike e e' → Alike e' e'' → Alike e e''
  | not {e e' : Expr} : Alike e e' → Alike (.unary .not e) (.unary .not e')
  | connective {op : BinaryOperator} {left right left' right' : Expr} : op = .and ∨ op = .or →
      Alike left left' → Alike right right' →
      Alike (.binary op left right) (.binary op left' right')
  | paren (e : Expr) : Alike (.paren e) e
  | regroup {op : BinaryOperator} (a b c : Expr) : op = .and ∨ op = .or →
      Alike (.binary op (.binary op a b) c) (.binary op a (.binary op b c))
  | nullRight {op : BinaryOperator} (e : Expr) : op = .eq ∨ op = .ne →
      Alike (.binary op e (.literal .null)) (.isNull e (op == .ne))
  | nullLeft {op : BinaryOperator} (e : Expr) : op = .eq ∨ op = .ne →
      Alike (.binary op (.literal .null) e) (.isNull e (op == .ne))
  | emptyList (e : Expr) (negated : Bool) : Alike (.inList e [] negated) (.literal (.bool negated))

/-- Conditions that are alike have the same value in every row. -/
theorem Alike.value_eq {e e' : Expr} (h : e.Alike e') (I : Interpretation α) (row : Row α) :
    e.value I row = e'.value I row := by
  induction h with
  | refl e => rfl
  | symm _ ih => exact ih.symm
  | trans _ _ ih ih' => exact ih.trans ih'
  | not _ ih => rw [value, value, ih]
  | connective hop _ _ ihl ihr =>
    rw [value, value, ihl, ihr]
    rcases hop with rfl | rfl <;> rfl
  | paren e => rw [value]
  | regroup a b c hop =>
    rcases hop with rfl | rfl
    · simp [value, Interpretation.operate, Truth.conj_assoc]
    · simp [value, Interpretation.operate, Truth.disj_assoc]
  | nullRight e hop =>
    rcases hop with rfl | rfl <;> rfl
  | nullLeft e hop =>
    -- both sides may be the literal
    cases hnull : e.isNullLiteral with
    | true =>
      rw [eq_null_of_isNullLiteral hnull]
      rcases hop with rfl | rfl <;> rfl
    | false =>
      have hleft : (Expr.literal .null).isNullLiteral = true := rfl
      rcases hop with rfl | rfl <;> simp [value, Interpretation.operate, hnull, hleft]
  | emptyList e negated =>
    cases negated <;> rfl

/-! ## What is spelled out -/

section

variable {e left right : Expr} {op : BinaryOperator}

theorem alike_placed (least : Nat) (e shape : Expr) : (placed least e shape).Alike shape := by
  rw [placed]
  split
  · exact .paren shape
  · exact .refl shape

/-- To come before a chain is to regroup it. -/
theorem alike_graft (hop : op = .and ∨ op = .or) :
    (graft op left right).Alike (.binary op left right) := by
  fun_induction graft op left right with
  | case1 op' first second hlevel ih =>
    -- `AND` and `OR` are alone on their levels
    obtain rfl : op' = op := by
      rcases hop with rfl | rfl <;> cases op' <;> simp [BinaryOperator.precedence] at hlevel ⊢
    exact (Alike.connective hop ih (.refl second)).trans (.regroup left first second hop)
  | case3 e negated hlevel ih | case5 e values negated hlevel ih
  | case7 e low high negated hlevel ih =>
    rcases hop with rfl | rfl <;> cases hlevel
  | case2 | case4 | case6 | case8 | case9 => exact .refl _

theorem IsLeaf.written_eq (h : e.IsLeaf) : e.written = e.named := by
  cases h with
  | plain h => cases h <;> rfl
  | localized ref => rfl

theorem IsLeaf.placed_eq {least : Nat} (h : e.IsLeaf) (hleast : least ≤ 8) :
    placed least e e.written = e.named := by
  rw [placed, h.precedence_eq, if_neg (Nat.not_lt.mpr hleast), h.written_eq]

theorem writtenOfList_leaves {es : List Expr} (h : ∀ e ∈ es, e.IsLeaf) :
    writtenOfList es = namedOfList es := by
  induction es with
  | nil => rfl
  | cons e es ih =>
    rw [writtenOfList, namedOfList, (h e List.mem_cons_self).written_eq,
      ih fun e he => h e (List.mem_cons_of_mem _ he)]

/-- A condition on leaves is spelled out as it is, or as one of the forms that replace it. -/
theorem IsAtom.written_alike (h : e.IsAtom (fun values => ∀ e ∈ values, e.IsLeaf) IsLeaf) :
    e.written.Alike e.named := by
  cases h with
  | leaf h => exact h.written_eq ▸ .refl _
  | @comparison op left right hop hleft hright =>
    have hlevel : op.precedence < right.named.precedence := by
      rw [← hright.written_eq, hright.precedence_written]
      cases op <;> decide
    rw [written, named, hleft.placed_eq (by decide), hright.placed_eq (by decide),
      hleft.placed_eq op.precedence_le, hright.placed_eq op.precedence_le, graft_of_lt hlevel]
    rcases comparedWithNull_cases op left right with
      hplain | ⟨hop, rfl, hnull⟩ | ⟨hop, rfl, hnull⟩
    · rw [hplain]
      exact .refl _
    · rw [hnull]
      exact (Alike.nullRight left.named hop).symm
    · rw [hnull]
      exact (Alike.nullLeft right.named hop).symm
  | isNull negated h =>
    rw [written, named, h.placed_eq (by decide)]
    exact .refl _
  | @inList e values negated h hvalues =>
    cases values with
    | nil => exact (Alike.emptyList e.named negated).symm
    | cons value values =>
      have hlist := writtenOfList_leaves hvalues
      rw [writtenOfList] at hlist
      rw [written, named, h.placed_eq (by decide), hlist]
      exact .refl _
  | between negated h hlow hhigh =>
    rw [written, named, h.placed_eq (by decide), hlow.placed_eq (by decide),
      hhigh.placed_eq (by decide)]
    exact .refl _

/-- A connective of parts that are spelled out alike. -/
theorem written_connective (hop : op = .and ∨ op = .or) (hleft : left.written.Alike left.named)
    (hright : right.written.Alike right.named) :
    (Expr.binary op left right).written.Alike (Expr.binary op left right).named := by
  have hwritten : (Expr.binary op left right).written
      = graft op (placed op.precedence left left.written)
          (placed op.precedence right right.written) := by
    rcases hop with rfl | rfl <;> rfl
  rw [hwritten]
  exact (alike_graft hop).trans (.connective hop ((alike_placed _ _ _).trans hleft)
    ((alike_placed _ _ _).trans hright))

/-- **What is spelled out has the same structure.** -/
theorem Logical.written_alike (h : e.Logical) : e.written.Alike e.named := by
  induction h with
  | atom h => exact h.written_alike
  | and _ _ ihl ihr => exact written_connective (.inl rfl) ihl ihr
  | or _ _ ihl ihr => exact written_connective (.inr rfl) ihl ihr
  | not _ ih => exact .not ((alike_placed _ _ _).trans ih)
  | paren _ ih => exact (Alike.paren _).trans (ih.trans (Alike.paren _).symm)

/-- What is read from the tokens of a condition holds where the condition does. -/
theorem Logical.truth_of_read {d : Dialect} {r : Expr} (h : e.Logical)
    (hread : Reading.ofTokens (e.tokens d) = some r) (I : Interpretation α) (row : Row α) :
    r.truth I row = e.truth I row := by
  rw [Reading.ofTokens_tokens d h.formula] at hread
  obtain rfl := Option.some.inj hread
  rw [truth, truth, h.written_alike.value_eq I row, value_named]

/-- Conditions that must hold together, grouped to the left. -/
def conjunction? : List Expr → Option Expr
  | [] => none
  | e :: rest => some (rest.foldl both e)

theorem Logical.foldl_both {es : List Expr} (he : e.Logical) (hes : ∀ e ∈ es, e.Logical) :
    (es.foldl both e).Logical := by
  induction es generalizing e with
  | nil => exact he
  | cons next es ih =>
    exact ih (.and he (hes next List.mem_cons_self)) fun e he => hes e (List.mem_cons_of_mem _ he)

theorem Logical.conjunction {es : List Expr} {whole : Expr} (h : ∀ e ∈ es, e.Logical)
    (hwhole : conjunction? es = some whole) : whole.Logical := by
  cases es with
  | nil => cases hwhole
  | cons e es =>
    cases hwhole
    exact (h e List.mem_cons_self).foldl_both fun e he => h e (List.mem_cons_of_mem _ he)

end

end Expr

namespace Query

theorem condition_foldl_filter (q : Query) (conditions : List Expr) :
    (conditions.foldl filter q).condition
      = Expr.conjunction? (q.condition.toList ++ conditions) := by
  induction conditions generalizing q with
  | nil => cases h : q.condition <;> simp [Expr.conjunction?, h]
  | cons next conditions ih =>
    rw [List.foldl_cons, ih]
    cases h : q.condition <;> simp [filter, Expr.conjunction?, h]

/-- **Reading what is rendered gives back the structure**, in every dialect: of a condition, and of
the conjunction that the filters of a query add up to. Reading takes all tokens, and what is read is
alike to what was rendered. -/
theorem rendered_structure (d : Dialect) :
    (∀ e : Expr, e.Logical → ∃ r, Reading.ofTokens (e.tokens d) = some r ∧ r.Alike e.named) ∧
    ∀ (q : Query) (conditions : List Expr), (∀ e ∈ q.condition.toList ++ conditions, e.Logical) →
      (conditions.foldl filter q).condition
          = Expr.conjunction? (q.condition.toList ++ conditions) ∧
      ∀ e, (conditions.foldl filter q).condition = some e →
        ∃ r, Reading.ofTokens (e.tokens d) = some r ∧ r.Alike e.named := by
  have hread : ∀ e : Expr, e.Logical →
      ∃ r, Reading.ofTokens (e.tokens d) = some r ∧ r.Alike e.named := fun e he =>
    ⟨e.written, Reading.ofTokens_tokens d he.formula, he.written_alike⟩
  refine ⟨hread, fun q conditions h => ⟨q.condition_foldl_filter conditions, fun e he => ?_⟩⟩
  rw [condition_foldl_filter] at he
  exact hread e (Expr.Logical.conjunction h he)

/-- `NOT (title IN () OR a = NULL) AND (b NOT BETWEEN 1 AND 2 AND c)`, where `title` is localized
and the chain is grouped to the right. -/
def nestedCondition : Expr :=
  .binary .and
    (.unary .not
      (.binary .or (.inList (.localized ⟨⟨0⟩, "title", ⟨"en"⟩, "titles", "value"⟩) [] false)
        (.binary .eq (.column none "a") (.literal .null))))
    (.binary .and (.between (.column none "b") (.literal (.int 1)) (.literal (.int 2)) true)
      (.column none "c"))

/-- The nested condition is read back alike, by itself and as a filter next to another one. The
chain is grouped to the left, and the list and the comparison are replaced. -/
theorem rendered_structure_nested :
    Reading.ofTokens (nestedCondition.tokens .mysql)
        = some (.binary .and
            (.binary .and
              (.unary .not (.paren
                (.binary .or (.literal (.bool false)) (.isNull (.column none "a") false))))
              (.between (.column none "b") (.literal (.int 1)) (.literal (.int 2)) true))
            (.column none "c")) ∧
    (∃ r, Reading.ofTokens (nestedCondition.tokens .mysql) = some r ∧
      r.Alike nestedCondition.named) ∧
    ∃ r, Reading.ofTokens ((nestedCondition.both (.column none "c")).tokens .mysql) = some r ∧
      r.Alike (nestedCondition.both (.column none "c")).named := by
  have hcolumn : ∀ name, (Expr.column none name).IsLeaf := fun name => .plain (.column none name)
  have hint : ∀ n, (Expr.literal (.int n)).IsLeaf := fun n => .plain (.literal (.int n))
  have hc : (Expr.column none "c").Logical := .atom (.leaf (hcolumn "c"))
  have hnested : nestedCondition.Logical :=
    .and
      (.not (.or (.atom (.inList false (.localized _) (by simp)))
        (.atom (.comparison (by simp [BinaryOperator.Compares]) (hcolumn "a")
          (.plain (.literal .null))))))
      (.and (.atom (.between true (hcolumn "b") (hint 1) (hint 2))) hc)
  obtain ⟨hread, hfilter⟩ := rendered_structure .mysql
  refine ⟨rfl, hread nestedCondition hnested, ?_⟩
  refine (hfilter {} [nestedCondition, .column none "c"] ?_).2
    (nestedCondition.both (.column none "c")) rfl
  intro e he
  simp only [Option.toList_none, List.nil_append, List.mem_cons, List.not_mem_nil, or_false] at he
  rcases he with rfl | rfl
  · exact hnested
  · exact hc

end Query

end LocalizedQuery
