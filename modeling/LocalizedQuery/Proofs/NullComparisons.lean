import LocalizedQuery.Proofs.Inference.Tolerance
import LocalizedQuery.Inversion
import LocalizedQuery.Sql.Rendering

/-!
# Comparisons with `NULL` are tests for it

`x = NULL` and `x IS NULL` are different expressions, and rendering, inference and inversion each
have a rule for either. `Expr.withNullTests` writes every comparison with `NULL` as the test that it
is meant to be, at every depth. Nothing that is done with an expression tells the two apart.

Each of the three statements has a local part, about one comparison (`Expr.nullTested`), and goes on
from the children to the whole. The renderer also looks at the precedence of a child and whether it
is `NULL`, so these have to stay, too.

## Main results

* `Expr.everywhere_withNullTests` — no comparison with `NULL` is left
* `Expr.withNullTests_indistinct` — the same tokens, the same inference, the same inversion
-/

namespace LocalizedQuery

namespace Expr

/-- A comparison with `NULL` as the test that it is. -/
def nullTested : Expr → Expr
  | .binary .eq x (.literal .null) | .binary .eq (.literal .null) x => .isNull x false
  | .binary .ne x (.literal .null) | .binary .ne (.literal .null) x => .isNull x true
  | e => e

mutual

/-- An expression with every comparison with `NULL` as the test that it is. -/
def withNullTests : Expr → Expr
  | .binary op left right => nullTested (.binary op left.withNullTests right.withNullTests)
  | .unary op e => .unary op e.withNullTests
  | .isNull e negated => .isNull e.withNullTests negated
  | .paren e => .paren e.withNullTests
  | .call function args => .call function (withNullTestsOfList args)
  | .caseOf operand branches otherwise =>
    .caseOf (withNullTestsOfOption operand) (withNullTestsOfBranches branches)
      (withNullTestsOfOption otherwise)
  | .inList operand values negated =>
    .inList operand.withNullTests (withNullTestsOfList values) negated
  | .between operand low high negated =>
    .between operand.withNullTests low.withNullTests high.withNullTests negated
  | .column table name => .column table name
  | .literal value => .literal value
  | .star table => .star table
  | .localized ref => .localized ref

/-- `withNullTests` for each of a list. -/
def withNullTestsOfList : List Expr → List Expr
  | [] => []
  | e :: rest => e.withNullTests :: withNullTestsOfList rest

/-- `withNullTests` for what may be missing. -/
def withNullTestsOfOption : Option Expr → Option Expr
  | none => none
  | some e => some e.withNullTests

/-- `withNullTests` for the branches of a `CASE`. -/
def withNullTestsOfBranches : List (Expr × Expr) → List (Expr × Expr)
  | [] => []
  | (condition, result) :: rest =>
    (condition.withNullTests, result.withNullTests) :: withNullTestsOfBranches rest

end

variable {owns : Reference → Bool} {e : Expr}

theorem withNullTestsOfList_eq_map (es : List Expr) :
    withNullTestsOfList es = es.map withNullTests := by
  induction es with
  | nil => rfl
  | cons e rest ih => rw [withNullTestsOfList, ih, List.map_cons]

theorem withNullTestsOfOption_eq_map (e : Option Expr) :
    withNullTestsOfOption e = e.map withNullTests := by
  cases e <;> rfl

theorem withNullTestsOfBranches_eq_map (branches : List (Expr × Expr)) :
    withNullTestsOfBranches branches
      = branches.map fun branch => (branch.1.withNullTests, branch.2.withNullTests) := by
  induction branches with
  | nil => rfl
  | cons branch rest ih => rw [withNullTestsOfBranches, ih, List.map_cons]

/-- The children come first, then the expression itself. -/
theorem withNullTests_eq (e : Expr) :
    e.withNullTests = (e.mapChildren withNullTests).nullTested := by
  cases e <;>
    simp [withNullTests, mapChildren, mapChildrenIdx, nullTested, mapIdx_const,
      withNullTestsOfList_eq_map, withNullTestsOfOption_eq_map, withNullTestsOfBranches_eq_map]

/-! ## One comparison -/

/-- A comparison with `NULL` is no `NULL`, and neither is the test. -/
theorem isNullLiteral_nullTested (e : Expr) : e.nullTested.isNullLiteral = e.isNullLiteral := by
  fun_cases nullTested e <;> rfl

theorem precedence_nullTested (e : Expr) : e.nullTested.precedence = e.precedence := by
  fun_cases nullTested e <;> rfl

/-- A comparison with `NULL` is written as the test. -/
theorem tokens_nullTested (d : Dialect) (e : Expr) : e.nullTested.tokens d = e.tokens d := by
  fun_cases nullTested e with
  | case5 => rfl
  | _ => simp_all [tokens, comparedWithNull, isNullLiteral, nullTest]

/-- What is collected from the sides of a comparison is collected from what is tested, since `NULL`
gives nothing. -/
theorem references_nullTested (e : Expr) : e.nullTested.references = e.references := by
  fun_cases nullTested e <;> simp [references]

theorem outermostCases_nullTested (e : Expr) : e.nullTested.outermostCases = e.outermostCases := by
  fun_cases nullTested e <;> simp [outermostCases]

theorem optionalReferences_nullTested (bare : Bool) (e : Expr) :
    e.nullTested.optionalReferences bare = e.optionalReferences bare := by
  fun_cases nullTested e <;> simp [optionalReferences, references, isNullLiteral]

/-- A comparison with `NULL` needs the rows that the test needs. -/
theorem equallyTolerant_nullTested (e : Expr) : e.nullTested.EquallyTolerant owns e := by
  have hrefused : rejectUnsupported owns e.nullTested = rejectUnsupported owns e := by
    rw [rejectUnsupported_eq, rejectUnsupported_eq, outermostCases_nullTested]
  constructor
  · exact ⟨by rw [references_nullTested],
      fun bare ref _ href => by rwa [optionalReferences_nullTested] at href, hrefused⟩
  · exact ⟨by rw [references_nullTested],
      fun bare ref _ href => by rwa [optionalReferences_nullTested], hrefused.symm⟩

/-- The tests that `=` and `<>` are, are opposites as these are. -/
theorem nullTested_inverted (left right : Expr) :
    (binary .ne left right).nullTested = (binary .eq left right).nullTested.inverted ∧
      (binary .eq left right).nullTested = (binary .ne left right).nullTested.inverted := by
  by_cases hright : right = .literal .null
  · simp [hright, nullTested, inverted]
  · by_cases hleft : left = .literal .null
    · simp [hleft, nullTested, inverted]
    · simp [hleft, hright, nullTested, inverted]

/-! ## Rendering -/

section

variable {f : Expr → Expr} {d : Dialect}

theorem precedence_mapChildren (f : Expr → Expr) (e : Expr) :
    (e.mapChildren f).precedence = e.precedence := by
  cases e with
  | unary op => cases op <;> rfl
  | _ => rfl

theorem followingTokens_map {es : List Expr} (h : ∀ e ∈ es, (f e).tokens d = e.tokens d) :
    followingTokens d (es.map f) = followingTokens d es := by
  induction es with
  | nil => rfl
  | cons e rest ih =>
    obtain ⟨hfirst, hrest⟩ := List.forall_mem_cons.mp h
    rw [List.map_cons, followingTokens, followingTokens, hfirst, ih hrest]

theorem listTokens_map {es : List Expr} (h : ∀ e ∈ es, (f e).tokens d = e.tokens d) :
    listTokens d (es.map f) = listTokens d es := by
  cases es with
  | nil => rfl
  | cons e rest =>
    obtain ⟨hfirst, hrest⟩ := List.forall_mem_cons.mp h
    rw [List.map_cons, listTokens, listTokens, hfirst, followingTokens_map hrest]

theorem optionTokens_map {lead : List Token} {e : Option Expr}
    (h : ∀ inner ∈ e, (f inner).tokens d = inner.tokens d) :
    optionTokens d lead (e.map f) = optionTokens d lead e := by
  cases e with
  | none => rfl
  | some e => rw [Option.map_some, optionTokens, optionTokens, h e rfl]

theorem branchTokens_map {branches : List (Expr × Expr)}
    (h : ∀ branch ∈ branches, (f branch.1).tokens d = branch.1.tokens d ∧
      (f branch.2).tokens d = branch.2.tokens d) :
    branchTokens d (branches.map fun branch => (f branch.1, f branch.2))
      = branchTokens d branches := by
  induction branches with
  | nil => rfl
  | cons branch rest ih =>
    obtain ⟨hfirst, hrest⟩ := List.forall_mem_cons.mp h
    rw [List.map_cons, branchTokens, branchTokens, hfirst.1, hfirst.2, ih hrest]

/-- **Children that are written alike** may stand for each other, if they bind alike and none of
them becomes `NULL`. -/
theorem tokens_mapChildren (hprecedence : ∀ e, (f e).precedence = e.precedence)
    (hnull : ∀ e, (f e).isNullLiteral = e.isNullLiteral)
    (h : ∀ child ∈ e.children, (f child).tokens d = child.tokens d) :
    (e.mapChildren f).tokens d = e.tokens d := by
  cases e with
  | caseOf operand branches otherwise =>
    have hplaces : (∀ e ∈ operand, (f e).tokens d = e.tokens d) ∧
        (∀ branch ∈ branches, (f branch.1).tokens d = branch.1.tokens d ∧
          (f branch.2).tokens d = branch.2.tokens d) ∧
        ∀ e ∈ otherwise, (f e).tokens d = e.tokens d := by
      simp only [children, List.mem_append, Option.mem_toList, List.mem_flatMap] at h
      refine ⟨fun e he => h e (.inl (.inl he)), fun branch hbranch => ?_, fun e he => h e (.inr he)⟩
      exact ⟨h _ (.inl (.inr ⟨branch, hbranch, List.mem_cons_self⟩)),
        h _ (.inl (.inr ⟨branch, hbranch, List.mem_cons_of_mem _ List.mem_cons_self⟩))⟩
    obtain ⟨hoperand, hbranches, hotherwise⟩ := hplaces
    simp only [mapChildren, mapChildrenIdx, mapIdx_const, tokens, optionTokens_map hoperand,
      branchTokens_map hbranches, optionTokens_map hotherwise]
  | call function args =>
    have hargs : listTokens d (args.map f) = listTokens d args := listTokens_map h
    simp [mapChildren, mapChildrenIdx, tokens, mapIdx_const, hargs]
  | inList operand values negated =>
    obtain ⟨hoperand, hvalues⟩ := List.forall_mem_cons.mp h
    cases values with
    | nil => rfl
    | cons value values =>
      obtain ⟨hvalue, hvalues⟩ := List.forall_mem_cons.mp hvalues
      simp [mapChildren, mapChildrenIdx, tokens, mapIdx_const, operandTokens, hprecedence, hoperand,
        hvalue, followingTokens_map hvalues]
  | unary op e =>
    cases op <;>
      simp_all [mapChildren, mapChildrenIdx, tokens, operandTokens, children]
  | _ =>
    simp_all [mapChildren, mapChildrenIdx, tokens, operandTokens, comparedWithNull, children]

end

/-! ## All comparisons -/

theorem isNullLiteral_withNullTests (e : Expr) :
    e.withNullTests.isNullLiteral = e.isNullLiteral := by
  rw [withNullTests_eq, isNullLiteral_nullTested,
    isNullLiteral_of_outline (outline_mapChildren withNullTests e)]

theorem precedence_withNullTests (e : Expr) : e.withNullTests.precedence = e.precedence := by
  rw [withNullTests_eq, precedence_nullTested, precedence_mapChildren]

theorem children_nullTested_subset (e : Expr) : e.nullTested.children ⊆ e.children := by
  fun_cases nullTested e <;> simp [children]

/-- No comparison with `NULL` is left, at any depth. -/
theorem everywhere_withNullTests (e : Expr) :
    e.withNullTests.Everywhere fun part => part.nullTested = part := by
  induction e using induction_on_children with
  | h e ih =>
    rw [withNullTests_eq, everywhere_iff]
    constructor
    · generalize e.mapChildren withNullTests = whole
      fun_cases nullTested whole <;> simp_all [nullTested]
    · intro child hchild
      have hmem := children_nullTested_subset _ hchild
      rw [children_mapChildren] at hmem
      obtain ⟨source, hsource, rfl⟩ := List.mem_map.mp hmem
      exact ih source hsource

/-- The tests are written as the comparisons are. -/
theorem tokens_withNullTests (d : Dialect) (e : Expr) : e.withNullTests.tokens d = e.tokens d := by
  induction e using induction_on_children with
  | h e ih =>
    rw [withNullTests_eq, tokens_nullTested]
    exact tokens_mapChildren precedence_withNullTests isNullLiteral_withNullTests ih

/-- The tests need the rows that the comparisons need. -/
theorem equallyTolerant_withNullTests (e : Expr) : e.withNullTests.EquallyTolerant owns e := by
  induction e using induction_on_children with
  | h e ih =>
    rw [withNullTests_eq]
    refine (equallyTolerant_nullTested _).trans (.of_children (outline_mapChildren _ e) ?_ ?_)
    · intro _
      rw [children_mapChildren, List.map_map]
      exact List.map_congr_left fun child _ => isNullLiteral_withNullTests child
    · rw [children_mapChildren, List.forall₂_map_left_iff]
      exact List.forall₂_same.mpr ih

/-- The tests are inverted as the comparisons are. -/
theorem inverted_withNullTests (e : Expr) :
    e.inverted.withNullTests = e.withNullTests.inverted := by
  cases e with
  | binary op left right =>
    have hopposite := nullTested_inverted left.withNullTests right.withNullTests
    cases op with
    | eq => exact hopposite.1
    | ne => exact hopposite.2
    | _ => rfl
  | unary op e => cases op <;> rfl
  | _ => rfl

/-- **Comparisons with `NULL` and tests for it are not told apart**: neither by what is written in
any dialect, nor by what any backend infers for any locale, nor by inversion. -/
theorem withNullTests_indistinct (e : Expr) :
    (∀ d : Dialect, e.withNullTests.tokens d = e.tokens d) ∧
      (∀ (b : KeyValueBackend) (locale : Locale),
        b.infer e.withNullTests locale = b.infer e locale) ∧
      (∀ (b : TableBackend) (locale : Locale),
        b.infer e.withNullTests locale = b.infer e locale) ∧
      e.inverted.withNullTests = e.withNullTests.inverted := by
  have hinfer : ∀ (b : Backend) (locale : Locale), b.InfersAlike locale e.withNullTests e :=
    fun b locale => Backend.infersAlike_of_equallyTolerant (equallyTolerant_withNullTests e)
  exact ⟨fun d => tokens_withNullTests d e, fun b => hinfer (.keyValue b),
    fun b => hinfer (.table b), inverted_withNullTests e⟩

end Expr

end LocalizedQuery
