import LocalizedQuery.Proofs.Rendering.Arithmetic
import LocalizedQuery.Proofs.Evaluation.Value

/-!
# What regrouping does to values

A right operand on the level of its operator is written without parentheses, and so `a - (b - c)`
has the text of `(a - b) - c`. Whether that matters depends on the two operators
(`Interpretation.Regroups`). For integers it does not matter for `+` before `+` or `-` and for `*`
before `*`; for every other pair of operators of one level there are operands for which the text
says something else than the expression (`regroups_integers_iff`).

For an expression as a whole it does not matter if none of its pairs does (`Expr.regroupings`): the
pairs of an operator with one of the chain that is its right operand.

## Main results

* `Expr.Arithmetic.value_written` — what is spelled out has the value of the expression, where
  regrouping is harmless
* `regroups_integers_iff` — where it is, for integers
* `Expr.same_text` — what expressions with the same text have in common
-/

namespace LocalizedQuery

variable {α : Type}

/-- Whether two operators in a row may be grouped either way. -/
def Interpretation.Regroups (I : Interpretation α) (op op' : BinaryOperator) : Prop :=
  ∀ a b c : Option α,
    I.operate op' false false (I.operate op false false a b) c
      = I.operate op false false a (I.operate op' false false b c)

namespace Expr

/-- The operators of the chain on some level that an expression is, without regard to how it is
grouped. -/
def chain (level : Nat) : Expr → List BinaryOperator
  | .binary op left right =>
    if op.precedence = level then chain level left ++ op :: chain level right else []
  | _ => []

/-- The pairs of operators that are regrouped when an expression is written: an operator before each
of the chain that is its right operand. -/
def regroupings : Expr → List (BinaryOperator × BinaryOperator)
  | .binary op left right =>
    regroupings left ++ regroupings right ++ (chain op.precedence right).map fun op' => (op, op')
  | _ => []

variable {op : BinaryOperator} {e e' left right : Expr} {level : Nat}

/-! ## Chains -/

theorem chain_eq_nil (h : e.precedence ≠ level) : e.chain level = [] := by
  cases e with
  | binary op left right => exact if_neg h
  | _ => rfl

theorem chain_placed {shape : Expr} (h : shape.chain level = e.chain level) :
    (placed level e shape).chain level = e.chain level := by
  rw [placed]
  split
  next hlt => exact (chain_eq_nil hlt.ne).symm
  next => exact h

theorem chain_graft (hright : right.Explicit) (hle : op.precedence ≤ right.precedence) :
    (graft op left right).chain op.precedence
      = left.chain op.precedence ++ op :: right.chain op.precedence := by
  refine hright.chain_induction
    (motive := fun right => (graft op left right).chain op.precedence
      = left.chain op.precedence ++ op :: right.chain op.precedence)
    hle (fun e _ hlt => ?_) fun op' first last _ hlevel _ _ _ _ ih => ?_
  · rw [graft_of_lt hlt, chain, if_pos rfl]
  · rw [graft_binary hlevel, chain, chain, if_pos hlevel, if_pos hlevel, ih, List.append_assoc,
      List.cons_append]

/-- What is spelled out has the chains of the expression. -/
theorem Arithmetic.chain_written (h : e.Arithmetic) (level : Nat) :
    e.written.chain level = e.chain level := by
  induction h generalizing level with
  | column | number => rfl
  | @binary op left right hop hleft hright ihl ihr =>
    have hle := hright.formula.le_precedence_placed op.precedence_le
    rw [written_binary hleft hright]
    by_cases hlevel : op.precedence = level
    · subst hlevel
      rw [chain_graft (hright.explicit_written.placed right) hle, chain_placed (ihl _),
        chain_placed (ihr _), chain, if_pos rfl]
    · rw [chain_eq_nil ((precedence_graft hle).trans_ne hlevel), chain, if_neg hlevel]

/-! ## Values -/

section

variable (I : Interpretation α) (row : Row α)

theorem value_binary (hleft : left.isNullLiteral = false) (hright : right.isNullLiteral = false) :
    (Expr.binary op left right).value I row
      = I.operate op false false (left.value I row) (right.value I row) := by
  rw [value, hleft, hright]

theorem value_placed (least : Nat) (e shape : Expr) :
    (placed least e shape).value I row = shape.value I row := by
  rw [placed]
  split
  · rw [value]
  · rfl

/-- To come before a chain is harmless if it is harmless before every operator of the chain. -/
theorem value_graft (hop : op.IsArithmetic) (hleft : left.Explicit) (hright : right.Explicit)
    (hlel : op.precedence ≤ left.precedence) (hler : op.precedence ≤ right.precedence)
    (h : ∀ op' ∈ right.chain op.precedence, I.Regroups op op') :
    (graft op left right).value I row
      = I.operate op false false (left.value I row) (right.value I row) := by
  revert h
  refine hright.chain_induction
    (motive := fun right => (∀ op' ∈ right.chain op.precedence, I.Regroups op op') →
      (graft op left right).value I row
        = I.operate op false false (left.value I row) (right.value I row))
    hler (fun e he hlt _ => ?_) fun op' first last _ hlevel hfirst _ hefirst helast ih h => ?_
  · rw [graft_of_lt hlt, value_binary I row hleft.isNullLiteral_eq he.isNullLiteral_eq]
  · rw [chain, if_pos hlevel] at h
    have hgraft := explicit_graft hop hleft hefirst hlel hfirst
    have hregroups : I.Regroups op op' := h op' (List.mem_append_right _ List.mem_cons_self)
    rw [graft_binary hlevel,
      value_binary I row hgraft.isNullLiteral_eq helast.isNullLiteral_eq,
      value_binary I row hefirst.isNullLiteral_eq helast.isNullLiteral_eq,
      ih fun op'' hop'' => h op'' (List.mem_append_left _ hop'')]
    exact hregroups _ _ _

/-- **What is spelled out has the value of the expression**, where regrouping is harmless. -/
theorem Arithmetic.value_written (h : e.Arithmetic)
    (hregroups : ∀ p ∈ e.regroupings, I.Regroups p.1 p.2) :
    e.written.value I row = e.value I row := by
  induction h with
  | column | number => rfl
  | @binary op left right hop hleft hright ihl ihr =>
    simp only [regroupings, List.mem_append, List.mem_map] at hregroups
    rw [written_binary hleft hright,
      value_graft I row hop (hleft.explicit_written.placed left)
        (hright.explicit_written.placed right)
        (hleft.formula.le_precedence_placed op.precedence_le)
        (hright.formula.le_precedence_placed op.precedence_le) ?_,
      value_placed, value_placed, ihl fun p hp => hregroups p (.inl (.inl hp)),
      ihr fun p hp => hregroups p (.inl (.inr hp)),
      value_binary I row hleft.isNullLiteral_eq hright.isNullLiteral_eq]
    intro op' hop'
    rw [chain_placed (hright.chain_written _)] at hop'
    exact hregroups (op, op') (.inr ⟨op', hop', rfl⟩)

end

end Expr

/-! ## Integers -/

/-- Integers, with truth values as `1` and `0`. Division cuts off and has no value at `0`. Columns
without a qualifier belong to the tables that `home` gives. -/
def integers (home : String → String) : Interpretation Int where
  ofBool b := if b then 1 else 0
  isTrue n := n ≠ 0
  isTrue_ofBool := by decide
  datum
    | .int n => n
    | _ => 0
  compare
    | .eq, a, b => a = b
    | .ne, a, b => a ≠ b
    | .lt, a, b => a < b
    | .gt, a, b => b < a
    | .le, a, b => a ≤ b
    | .ge, a, b => b ≤ a
    | _, _, _ => false
  compare_ne a b := by simp
  calculate
    | .plus, a, b => some (a + b)
    | .minus, a, b => some (a - b)
    | .times, a, b => some (a * b)
    | .divide, a, b => if b = 0 then none else some (a.tdiv b)
    | .modulo, a, b => if b = 0 then none else some (a.tmod b)
    | _, _, _ => none
  negate n := some (-n)
  call _ _ := none
  home := home

/-- The pairs of operators that may be grouped either way over the integers. -/
def harmless : List (BinaryOperator × BinaryOperator) :=
  [(.plus, .plus), (.plus, .minus), (.times, .times)]

/-- Operands that tell the two groupings apart wherever there is a difference. -/
def separating : List (Int × Int × Int) := [(0, 2, 2), (2, 1, 2), (2, 3, 0)]

theorem separated (op : BinaryOperator) (hop : op.IsArithmetic) (op' : BinaryOperator)
    (hop' : op'.IsArithmetic) (hlevel : op.precedence = op'.precedence) :
    (op, op') ∈ harmless ∨ ∃ p ∈ separating,
      (integers id).operate op' false false
          ((integers id).operate op false false (some p.1) (some p.2.1)) (some p.2.2)
        ≠ (integers id).operate op false false (some p.1)
          ((integers id).operate op' false false (some p.2.1) (some p.2.2)) := by
  revert op op'
  unfold BinaryOperator.IsArithmetic
  decide

theorem regroups_of_harmless (home : String → String) {op op' : BinaryOperator}
    (h : (op, op') ∈ harmless) : (integers home).Regroups op op' := by
  intro a b c
  simp only [harmless, List.mem_cons, Prod.mk.injEq, List.not_mem_nil, or_false] at h
  rcases h with ⟨rfl, rfl⟩ | ⟨rfl, rfl⟩ | ⟨rfl, rfl⟩ <;> cases a <;> cases b <;> cases c <;>
    first
    | rfl
    | exact congrArg some (Int.add_assoc _ _ _)
    | exact congrArg some (Int.add_sub_assoc _ _ _)
    | exact congrArg some (Int.mul_assoc _ _ _)

/-- **Where regrouping is harmless, for integers.** -/
theorem regroups_integers_iff (home : String → String) {op op' : BinaryOperator}
    (hop : op.IsArithmetic) (hop' : op'.IsArithmetic) (hlevel : op.precedence = op'.precedence) :
    (integers home).Regroups op op' ↔ (op, op') ∈ harmless := by
  refine ⟨fun h => (separated op hop op' hop' hlevel).resolve_right ?_, regroups_of_harmless home⟩
  rintro ⟨p, -, hp⟩
  exact hp (h (some p.1) (some p.2.1) (some p.2.2))

namespace Expr

variable {d : Dialect} {op op' : BinaryOperator} {e e' first second third : Expr}

/-- Operators of one level are written alike however they are grouped. -/
theorem written_regroup (hop : op.IsArithmetic) (hop' : op'.IsArithmetic)
    (hfirst : first.Arithmetic) (hsecond : second.Arithmetic) (hthird : third.Arithmetic)
    (hlevel : op'.precedence = op.precedence) :
    (Expr.binary op first (.binary op' second third)).written
      = (Expr.binary op' (.binary op first second) third).written := by
  have hplaced : ∀ (shape : Expr), placed op.precedence (.binary op' second third) shape = shape :=
    fun shape => if_neg (Nat.not_lt.mpr hlevel.ge)
  have hplaced' : ∀ (shape : Expr), placed op'.precedence (.binary op first second) shape = shape :=
    fun shape => if_neg (Nat.not_lt.mpr hlevel.le)
  rw [written_binary hfirst (.binary hop' hsecond hthird),
    written_binary (.binary hop hfirst hsecond) hthird, written_binary hsecond hthird,
    written_binary hfirst hsecond, hplaced, hplaced', graft_graft hlevel, hlevel]

/-- Two operators in a row over three columns, grouped to the right. -/
def rightNested (op op' : BinaryOperator) : Expr :=
  .binary op (.column none "a") (.binary op' (.column none "b") (.column none "c"))

/-- The same, grouped to the left. -/
def leftNested (op op' : BinaryOperator) : Expr :=
  .binary op' (.binary op (.column none "a") (.column none "b")) (.column none "c")

theorem arithmetic_rightNested (hop : op.IsArithmetic) (hop' : op'.IsArithmetic) :
    (rightNested op op').Arithmetic :=
  .binary hop (.column none "a") (.binary hop' (.column none "b") (.column none "c"))

theorem arithmetic_leftNested (hop : op.IsArithmetic) (hop' : op'.IsArithmetic) :
    (leftNested op op').Arithmetic :=
  .binary hop' (.binary hop (.column none "a") (.column none "b")) (.column none "c")

/-- **Expressions with the same text.** They spell out the same; they are the same if both are
left-grouped; and over the integers they have the same value if nothing is regrouped but `+` before
`+` or `-` and `*` before `*`. It matters for every other pair of operators of one level: over three
columns the two groupings have one text and different values. -/
theorem same_text (hd : d.QuotesDouble) (home : String → String) (h : e.Arithmetic)
    (h' : e'.Arithmetic) :
    (∃ text, e.toSql d = .ok text) ∧
    (e.toSql d = e'.toSql d ↔ e.written = e'.written) ∧
    (e.toSql d = e'.toSql d → e.LeftGrouped → e'.LeftGrouped → e = e') ∧
    (e.toSql d = e'.toSql d → (∀ p ∈ e.regroupings ++ e'.regroupings, p ∈ harmless) →
      ∀ row, e.value (integers home) row = e'.value (integers home) row) ∧
    ∀ op op' : BinaryOperator, op.IsArithmetic → op'.IsArithmetic →
      op.precedence = op'.precedence → (op, op') ∉ harmless →
      (rightNested op op').toSql d = (leftNested op op').toSql d ∧
      ∃ row, (rightNested op op').value (integers home) row
        ≠ (leftNested op op').value (integers home) row := by
  refine ⟨h.toSql_eq_ok d, toSql_eq_iff hd h h', fun htext hgrouped hgrouped' =>
    eq_of_toSql_eq hd h h' hgrouped hgrouped' htext, fun htext hharmless row => ?_,
    fun op op' hop hop' hlevel hharmful => ⟨?_, ?_⟩⟩
  · have hwritten := (toSql_eq_iff hd h h').mp htext
    calc e.value (integers home) row
        = e.written.value (integers home) row :=
          (h.value_written _ row fun p hp =>
            regroups_of_harmless home (hharmless p (List.mem_append_left _ hp))).symm
      _ = e'.written.value (integers home) row := by rw [hwritten]
      _ = e'.value (integers home) row :=
          h'.value_written _ row fun p hp =>
            regroups_of_harmless home (hharmless p (List.mem_append_right _ hp))
  · exact (toSql_eq_iff hd (arithmetic_rightNested hop hop') (arithmetic_leftNested hop hop')).mpr
      (written_regroup hop hop' (.column none "a") (.column none "b") (.column none "c")
        hlevel.symm)
  · -- the operands that tell the groupings apart are put into the columns
    obtain ⟨a, b, c, hdiffer⟩ : ∃ a b c : Option Int,
        (integers home).operate op' false false ((integers home).operate op false false a b) c
          ≠ (integers home).operate op false false a
            ((integers home).operate op' false false b c) := by
      have hdiffer := mt (regroups_integers_iff home hop hop' hlevel).mp hharmful
      simpa only [Interpretation.Regroups, not_forall] using hdiffer
    exact ⟨fun _ name => if name = "a" then a else if name = "b" then b else c, hdiffer.symm⟩

/-- `a + (b - c)` and `(a + b) - c` have the same text, and the same value. -/
theorem same_text_plus_minus :
    (rightNested .plus .minus).toSql .postgres = (leftNested .plus .minus).toSql .postgres ∧
    ∀ row, (rightNested .plus .minus).value (integers id) row
      = (leftNested .plus .minus).value (integers id) row := by
  have hright : (rightNested .plus .minus).Arithmetic :=
    arithmetic_rightNested (by decide) (by decide)
  have hleft : (leftNested .plus .minus).Arithmetic :=
    arithmetic_leftNested (by decide) (by decide)
  obtain ⟨-, hiff, -, hvalue, -⟩ := same_text (d := .postgres) (.inl rfl) id hright hleft
  have htext := hiff.mpr rfl
  exact ⟨htext, hvalue htext (by decide)⟩

/-- `a - (b - c)` and `(a - b) - c` have the same text, but not the same value. -/
theorem minus_minus_ambiguous :
    (rightNested .minus .minus).Arithmetic ∧ (leftNested .minus .minus).Arithmetic ∧
    (rightNested .minus .minus).toSql .postgres = .ok "\"a\" - \"b\" - \"c\"" ∧
    (leftNested .minus .minus).toSql .postgres = .ok "\"a\" - \"b\" - \"c\"" ∧
    (rightNested .minus .minus).value (integers id) (fun _ _ => some 1) = some 1 ∧
    (leftNested .minus .minus).value (integers id) (fun _ _ => some 1) = some (-1) :=
  ⟨arithmetic_rightNested (by decide) (by decide), arithmetic_leftNested (by decide) (by decide),
    rfl, rfl, rfl, rfl⟩

end Expr

end LocalizedQuery
