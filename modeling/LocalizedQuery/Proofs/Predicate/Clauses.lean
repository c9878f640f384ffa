import LocalizedQuery.Proofs.LocalizedModel
import LocalizedQuery.Proofs.Predicate.Reading
import LocalizedQuery.Proofs.Results

/-!
# What lowering drops

Some components of a syntax tree have no place in an expression: the escape character and the `ANY`
of a `LIKE`, and of a call its quantifier, the clauses behind its arguments and behind its
parentheses, and its parameters. Lowering passes over them. They neither make a text unsupported nor
change what it denotes (`Tree.lower_withoutClauses`), so `count(DISTINCT a)` denotes the same as
`count(a)`.

Nothing else is lost but spelling: how names are quoted and numbers written, signs that say nothing,
and the two ways to write a negated `LIKE` (`Tree.respelled`). For there is a way back from an
expression to the tree, as it is without clauses and in a uniform spelling (`Expr.tree`).

## Main results

* `Tree.lower_withoutClauses` — clauses make no difference
* `Tree.lower_respelled` — nor does spelling
* `Tree.tree_of_lower` — the way back
* `parsePredicate_loses_clauses` — which texts denote the same
-/

namespace LocalizedQuery

/-! ## Clauses -/

/-- A call without the components that have no place in an expression. -/
def CallForm.withoutClauses (form : CallForm) : CallForm :=
  { form with quantifier := none, clauses := [], parameters := none, trailing := [] }

namespace Tree

mutual

/-- The tree without the components that have no place in an expression. -/
def withoutClauses : Tree → Tree
  | .name ident => .name ident
  | .path parts => .path parts
  | .number digits long => .number digits long
  | .text value => .text value
  | .bool value => .bool value
  | .null => .null
  | .nested inner => .nested inner.withoutClauses
  | .binary left op right => .binary left.withoutClauses op right.withoutClauses
  | .signed sign operand => .signed sign operand.withoutClauses
  | .isNull operand negated => .isNull operand.withoutClauses negated
  | .inList operand values negated =>
    .inList operand.withoutClauses (withoutClausesList values) negated
  | .between operand low high negated =>
    .between operand.withoutClauses low.withoutClauses high.withoutClauses negated
  | .like operand pattern negated _ _ =>
    .like operand.withoutClauses pattern.withoutClauses negated false none
  | .call form args => .call form.withoutClauses (withoutClausesArguments args)
  | .subquery spelling => .subquery spelling
  | .foreign spelling => .foreign spelling

/-- Trees without such components. -/
def withoutClausesList : List Tree → List Tree
  | [] => []
  | tree :: rest => tree.withoutClauses :: withoutClausesList rest

/-- Arguments without such components. -/
def withoutClausesArguments : List Argument → List Argument
  | [] => []
  | .positional value :: rest => .positional value.withoutClauses :: withoutClausesArguments rest
  | .special spelling :: rest => .special spelling :: withoutClausesArguments rest

end

variable {resolve : String → Option Expr}

mutual

/-- **Clauses make no difference.** A tree has an expression if it has one without them, and it has
the same. -/
theorem lower_withoutClauses (tree : Tree) {e : Expr} :
    tree.withoutClauses.lower resolve = .ok e ↔ tree.lower resolve = .ok e := by
  match tree with
  | .name _ | .path _ | .number .. | .text _ | .bool _ | .null | .subquery _ | .foreign _ => rfl
  | .nested inner | .signed .minus inner | .signed .not inner | .isNull inner _ =>
    simp only [withoutClauses, lower, bind_eq_ok, lower_withoutClauses inner]
  | .signed .plus operand =>
    simp only [withoutClauses, lower, lower_withoutClauses operand]
  | .binary left op right =>
    cases op with
    | known op =>
      simp only [withoutClauses, lower, bind_eq_ok, lower_withoutClauses left,
        lower_withoutClauses right]
    | foreign spelling =>
      simp [withoutClauses, lower, bind_eq_ok, throw, throwThe, MonadExceptOf.throw]
  | .like operand pattern negated _ _ =>
    simp only [withoutClauses, lower, bind_eq_ok, lower_withoutClauses operand,
      lower_withoutClauses pattern]
  | .inList operand values _ =>
    simp only [withoutClauses, lower, bind_eq_ok, lower_withoutClauses operand,
      lower_withoutClausesList values]
  | .between operand low high _ =>
    simp only [withoutClauses, lower, bind_eq_ok, lower_withoutClauses operand,
      lower_withoutClauses low, lower_withoutClauses high]
  | .call form args =>
    simp only [withoutClauses, lower, bind_eq_ok, CallForm.withoutClauses]
    exact exists_congr fun args' =>
      and_congr_left fun _ => lower_withoutClausesArguments _ ⟨(Tree.call form args).written⟩ args

/-- Clauses make no difference in lists. -/
theorem lower_withoutClausesList (trees : List Tree) {es : List Expr} :
    lowerList resolve (withoutClausesList trees) = .ok es ↔ lowerList resolve trees = .ok es := by
  match trees with
  | [] => rfl
  | tree :: rest =>
    simp only [withoutClausesList, lowerList, bind_eq_ok, lower_withoutClauses tree,
      lower_withoutClausesList rest]

/-- Clauses make no difference in arguments, whatever the errors would say. -/
theorem lower_withoutClausesArguments (call call' : UnsupportedForm) (args : List Argument)
    {es : List Expr} :
    lowerArguments resolve call (withoutClausesArguments args) = .ok es ↔
      lowerArguments resolve call' args = .ok es := by
  match args with
  | [] => rfl
  | .special _ :: _ => simp [withoutClausesArguments, lowerArguments]
  | .positional value :: rest =>
    simp only [withoutClausesArguments, lowerArguments, bind_eq_ok, lower_withoutClauses value,
      lower_withoutClausesArguments call call' rest]

end

/-! ## Spelling -/

/-- One of the spellings of a number, the same for all of them. -/
noncomputable def numeral (number : Except UnsupportedForm Expr) : String :=
  Classical.epsilon fun digits => lowerNumber digits = number

theorem lowerNumber_numeral (digits : String) :
    lowerNumber (numeral (lowerNumber digits)) = lowerNumber digits :=
  Classical.epsilon_spec (p := fun spelling => lowerNumber spelling = lowerNumber digits)
    ⟨digits, rfl⟩

/-- A name without its quotes. -/
def plainName (name : Name) : Name := ⟨name.text, none⟩

mutual

/-- The tree in a uniform spelling. Columns are not quoted and the name of a function is one word,
as it is spelled. Of several numerals that are read as the same number one is chosen. There is no
`+` before an operand, `NOT` stands before a `LIKE`, and there are parentheses around the arguments
of a call and no braces around the call. -/
noncomputable def respelled : Tree → Tree
  | .name ident => .name (plainName ident)
  | .path parts => .path (parts.map plainName)
  | .number digits _ => .number (numeral (lowerNumber digits)) false
  | .text value => .text value
  | .bool value => .bool value
  | .null => .null
  | .nested inner => .nested inner.respelled
  | .binary left (.known .like) right => .like left.respelled right.respelled false false none
  | .binary left op right => .binary left.respelled op right.respelled
  | .signed .plus operand => operand.respelled
  | .signed sign operand => .signed sign operand.respelled
  | .isNull operand negated => .isNull operand.respelled negated
  | .inList operand values negated => .inList operand.respelled (respelledList values) negated
  | .between operand low high negated =>
    .between operand.respelled low.respelled high.respelled negated
  | .like operand pattern negated anyOf escape =>
    let like := Tree.like operand.respelled pattern.respelled false anyOf escape
    if negated then .signed .not like else like
  | .call form args =>
    .call { form with name := [⟨Name.writtenPath form.name, none⟩], parentheses := true,
                      braces := false } (respelledArguments args)
  | .subquery spelling => .subquery spelling
  | .foreign spelling => .foreign spelling

/-- Trees in a uniform spelling. -/
noncomputable def respelledList : List Tree → List Tree
  | [] => []
  | tree :: rest => tree.respelled :: respelledList rest

/-- Arguments in a uniform spelling. -/
noncomputable def respelledArguments : List Argument → List Argument
  | [] => []
  | .positional value :: rest => .positional value.respelled :: respelledArguments rest
  | .special spelling :: rest => .special spelling :: respelledArguments rest

end

theorem respelled_binary (left right : Tree) {op : BinaryOperator} (hop : op ≠ .like) :
    (binary left (.known op) right).respelled
      = .binary left.respelled (.known op) right.respelled := by
  cases op <;> first | rfl | exact absurd rfl hop

mutual

/-- **Spelling makes no difference.** -/
theorem lower_respelled (tree : Tree) {e : Expr} :
    tree.respelled.lower resolve = .ok e ↔ tree.lower resolve = .ok e := by
  match tree with
  | .name _ | .text _ | .bool _ | .null | .subquery _ | .foreign _ => rfl
  | .path parts =>
    match parts with
    | [_, _] => rfl
    | [] | [_] | _ :: _ :: _ :: _ => simp [respelled, lower]
  | .number digits _ => simp only [respelled, lower, lowerNumber_numeral]
  | .nested inner | .signed .minus inner | .signed .not inner | .isNull inner _ =>
    simp only [respelled, lower, bind_eq_ok, lower_respelled inner]
  | .signed .plus operand =>
    simp only [respelled, lower, lower_respelled operand]
  | .binary left op right =>
    cases op with
    | foreign spelling =>
      simp [respelled, lower, bind_eq_ok, throw, throwThe, MonadExceptOf.throw]
    | known op =>
      by_cases hlike : op = .like
      · subst hlike
        simp only [respelled, lower, bind_eq_ok, lower_respelled left, lower_respelled right,
          Bool.false_eq_true, if_false]
      · rw [respelled_binary left right hlike]
        simp only [lower, bind_eq_ok, lower_respelled left, lower_respelled right]
  | .like operand pattern negated _ _ =>
    cases negated with
    | false =>
      simp only [respelled, lower, bind_eq_ok, lower_respelled operand, lower_respelled pattern,
        Bool.false_eq_true, if_false]
    | true =>
      simp only [respelled, lower, bind_eq_ok, pure_eq_ok, lower_respelled operand,
        lower_respelled pattern, Bool.false_eq_true, if_false, if_true]
      constructor
      · rintro ⟨like, ⟨operand', hoperand, pattern', hpattern, rfl⟩, h⟩
        exact ⟨operand', hoperand, pattern', hpattern, h⟩
      · rintro ⟨operand', hoperand, pattern', hpattern, h⟩
        exact ⟨_, ⟨operand', hoperand, pattern', hpattern, rfl⟩, h⟩
  | .inList operand values _ =>
    simp only [respelled, lower, bind_eq_ok, lower_respelled operand,
      lower_respelledList values]
  | .between operand low high _ =>
    simp only [respelled, lower, bind_eq_ok, lower_respelled operand,
      lower_respelled low, lower_respelled high]
  | .call form args =>
    have hname : Name.writtenPath [⟨Name.writtenPath form.name, none⟩]
        = Name.writtenPath form.name := rfl
    simp only [respelled, lower, bind_eq_ok, hname]
    exact exists_congr fun args' =>
      and_congr_left fun _ => lower_respelledArguments _ ⟨(Tree.call form args).written⟩ args

/-- Spelling makes no difference in lists. -/
theorem lower_respelledList (trees : List Tree) {es : List Expr} :
    lowerList resolve (respelledList trees) = .ok es ↔ lowerList resolve trees = .ok es := by
  match trees with
  | [] => rfl
  | tree :: rest =>
    simp only [respelledList, lowerList, bind_eq_ok, lower_respelled tree,
      lower_respelledList rest]

/-- Spelling makes no difference in arguments. -/
theorem lower_respelledArguments (call call' : UnsupportedForm) (args : List Argument)
    {es : List Expr} :
    lowerArguments resolve call (respelledArguments args) = .ok es ↔
      lowerArguments resolve call' args = .ok es := by
  match args with
  | [] => rfl
  | .special _ :: _ => simp [respelledArguments, lowerArguments]
  | .positional value :: rest =>
    simp only [respelledArguments, lowerArguments, bind_eq_ok, lower_respelled value,
      lower_respelledArguments call call' rest]

end

end Tree

/-! ## The way back -/

namespace Expr

mutual

/-- The tree that an expression comes from, without clauses and in a uniform spelling. What lowering
never makes has none, and `NULL` stands in for it. -/
noncomputable def tree : Expr → Tree
  | .column none name => .name ⟨name, none⟩
  | .column (some table) name => .path [⟨table, none⟩, ⟨name, none⟩]
  | .localized ref => .name ⟨ref.attributeName, none⟩
  | .literal (.string value) => .text value
  | .literal (.bool value) => .bool value
  | .literal .null => .null
  | .literal number => .number (Tree.numeral (.ok (.literal number))) false
  | .paren e => .nested e.tree
  | .binary .like left right => .like left.tree right.tree false false none
  | .binary op left right => .binary left.tree (.known op) right.tree
  | .unary .not e => .signed .not e.tree
  | .unary .minus e => .signed .minus e.tree
  | .isNull e negated => .isNull e.tree negated
  | .inList e values negated => .inList e.tree (trees values) negated
  | .between e low high negated => .between e.tree low.tree high.tree negated
  | .call function args => .call { name := [⟨function, none⟩] } (argumentTrees args)
  | .caseOf .. | .star _ => .null

/-- The trees that expressions come from. -/
noncomputable def trees : List Expr → List Tree
  | [] => []
  | e :: rest => e.tree :: trees rest

/-- The arguments that expressions come from. -/
noncomputable def argumentTrees : List Expr → List Argument
  | [] => []
  | e :: rest => .positional e.tree :: argumentTrees rest

end

theorem tree_binary (left right : Expr) {op : BinaryOperator} (hop : op ≠ .like) :
    (binary op left right).tree = .binary left.tree (.known op) right.tree := by
  cases op <;> first | rfl | exact absurd rfl hop

end Expr

/-- The names that a resolver claims become references to attributes of those names. -/
def ResolvesNames (resolve : String → Option Expr) : Prop :=
  ∀ name e, resolve name = some e → ∃ ref, e = .localized ref ∧ ref.attributeName = name

/-- Models resolve names so. -/
theorem LocalizedModel.resolvesNames (t : LocalizedModel) (locale : Locale) :
    ResolvesNames (t.resolve locale) := by
  intro name e hname
  obtain ⟨b, -, -, rfl⟩ := eq_localized_of_attributeNode (resolve_eq_some.mp hname)
  exact ⟨b.reference name locale, rfl, by cases b <;> rfl⟩

namespace Tree

variable {resolve : String → Option Expr}

/-- A numeral is an integer or a double. -/
theorem tree_of_lowerNumber {digits : String} {e : Expr} (h : lowerNumber digits = .ok e) :
    e.tree = .number (numeral (lowerNumber digits)) false := by
  rw [h]
  fun_cases lowerNumber digits with
  | case1 value hvalue =>
    rw [lowerNumber, hvalue, Except.ok.injEq] at h
    rw [← h, Expr.tree]
    all_goals simp
  | case2 hvalue x hx =>
    rw [lowerNumber, hvalue, hx, Except.ok.injEq] at h
    rw [← h, Expr.tree]
    all_goals simp
  | case3 hvalue hnone =>
    rw [lowerNumber, hvalue, hnone] at h
    cases h

mutual

/-- **The way back** from an expression leads to the tree that it was lowered from. -/
theorem tree_of_lower (hresolve : ResolvesNames resolve) (tree : Tree) {e : Expr}
    (h : tree.lower resolve = .ok e) : e.tree = tree.withoutClauses.respelled := by
  match tree with
  | .name ident =>
    rw [lower, Except.ok.injEq] at h
    cases hname : resolve ident.text with
    | none =>
      rw [hname, Option.getD_none] at h
      rw [← h]
      rfl
    | some resolved =>
      obtain ⟨ref, rfl, href⟩ := hresolve _ _ hname
      rw [hname, Option.getD_some] at h
      rw [← h, Expr.tree, href]
      rfl
  | .path parts =>
    match parts with
    | [table, column] =>
      rw [lower, Except.ok.injEq] at h
      rw [← h]
      rfl
    | [] | [_] | _ :: _ :: _ :: _ => simp [lower] at h
  | .number digits _ =>
    rw [lower] at h
    exact tree_of_lowerNumber h
  | .text _ | .bool _ | .null =>
    rw [lower, Except.ok.injEq] at h
    rw [← h]
    rfl
  | .subquery _ | .foreign _ => simp [lower] at h
  | .signed .plus operand =>
    rw [lower] at h
    exact tree_of_lower hresolve operand h
  | .nested inner | .signed .minus inner | .signed .not inner | .isNull inner _ =>
    rw [lower] at h
    obtain ⟨inner', hinner, h⟩ := bind_eq_ok.mp h
    rw [pure_eq_ok] at h
    rw [← h, Expr.tree, tree_of_lower hresolve inner hinner]
    rfl
  | .binary left op right =>
    rw [lower] at h
    obtain ⟨left', hleft, h⟩ := bind_eq_ok.mp h
    cases op with
    | foreign spelling => simp [throw, throwThe, MonadExceptOf.throw] at h
    | known op =>
      obtain ⟨right', hright, h⟩ := bind_eq_ok.mp h
      rw [pure_eq_ok] at h
      have hleft' := tree_of_lower hresolve left hleft
      have hright' := tree_of_lower hresolve right hright
      rw [← h]
      by_cases hlike : op = .like
      · rw [hlike, Expr.tree, hleft', hright']
        rfl
      · rw [Expr.tree_binary left' right' hlike, hleft', hright', withoutClauses,
          respelled_binary _ _ hlike]
  | .like operand pattern negated _ _ =>
    rw [lower] at h
    obtain ⟨operand', hoperand, h⟩ := bind_eq_ok.mp h
    obtain ⟨pattern', hpattern, h⟩ := bind_eq_ok.mp h
    rw [pure_eq_ok] at h
    have hlike : (Expr.binary .like operand' pattern').tree
        = .like operand.withoutClauses.respelled pattern.withoutClauses.respelled false false
            none := by
      rw [Expr.tree, tree_of_lower hresolve operand hoperand,
        tree_of_lower hresolve pattern hpattern]
    cases negated with
    | false => exact h ▸ hlike
    | true =>
      rw [← h]
      exact congrArg (Tree.signed .not) hlike
  | .inList operand values _ =>
    rw [lower] at h
    obtain ⟨operand', hoperand, h⟩ := bind_eq_ok.mp h
    obtain ⟨values', hvalues, h⟩ := bind_eq_ok.mp h
    rw [pure_eq_ok] at h
    rw [← h, Expr.tree, tree_of_lower hresolve operand hoperand,
      trees_of_lowerList hresolve values hvalues]
    rfl
  | .between operand low high _ =>
    rw [lower] at h
    obtain ⟨operand', hoperand, h⟩ := bind_eq_ok.mp h
    obtain ⟨low', hlow, h⟩ := bind_eq_ok.mp h
    obtain ⟨high', hhigh, h⟩ := bind_eq_ok.mp h
    rw [pure_eq_ok] at h
    rw [← h, Expr.tree, tree_of_lower hresolve operand hoperand, tree_of_lower hresolve low hlow,
      tree_of_lower hresolve high hhigh]
    rfl
  | .call form args =>
    rw [lower] at h
    obtain ⟨args', hargs, h⟩ := bind_eq_ok.mp h
    rw [pure_eq_ok] at h
    rw [← h, Expr.tree, argumentTrees_of_lowerArguments hresolve args hargs]
    rfl

/-- The way back from lists. -/
theorem trees_of_lowerList (hresolve : ResolvesNames resolve) (trees : List Tree)
    {es : List Expr} (h : lowerList resolve trees = .ok es) :
    Expr.trees es = respelledList (withoutClausesList trees) := by
  match trees with
  | [] =>
    rw [lowerList, Except.ok.injEq] at h
    rw [← h]
    rfl
  | tree :: rest =>
    rw [lowerList] at h
    obtain ⟨first, hfirst, h⟩ := bind_eq_ok.mp h
    obtain ⟨others, hothers, h⟩ := bind_eq_ok.mp h
    rw [pure_eq_ok] at h
    rw [← h, Expr.trees, tree_of_lower hresolve tree hfirst,
      trees_of_lowerList hresolve rest hothers]
    rfl

/-- The way back from arguments. -/
theorem argumentTrees_of_lowerArguments (hresolve : ResolvesNames resolve)
    {call : UnsupportedForm} (args : List Argument) {es : List Expr}
    (h : lowerArguments resolve call args = .ok es) :
    Expr.argumentTrees es = respelledArguments (withoutClausesArguments args) := by
  match args with
  | [] =>
    rw [lowerArguments, Except.ok.injEq] at h
    rw [← h]
    rfl
  | .special _ :: _ => simp [lowerArguments] at h
  | .positional value :: rest =>
    rw [lowerArguments] at h
    obtain ⟨first, hfirst, h⟩ := bind_eq_ok.mp h
    obtain ⟨others, hothers, h⟩ := bind_eq_ok.mp h
    rw [pure_eq_ok] at h
    rw [← h, Expr.argumentTrees, tree_of_lower hresolve value hfirst,
      argumentTrees_of_lowerArguments hresolve rest hothers]
    rfl

end

/-- Which trees have the same expression. -/
theorem lower_eq_iff (hresolve : ResolvesNames resolve) {tree tree' : Tree} {e e' : Expr}
    (h : tree.lower resolve = .ok e) (h' : tree'.lower resolve = .ok e') :
    e = e' ↔ tree.withoutClauses.respelled = tree'.withoutClauses.respelled := by
  constructor
  · rintro rfl
    rw [← tree_of_lower hresolve tree h, ← tree_of_lower hresolve tree' h']
  · intro hsame
    have huniform := (lower_respelled _).mpr ((lower_withoutClauses tree).mpr h)
    have huniform' := (lower_respelled _).mpr ((lower_withoutClauses tree').mpr h')
    rw [hsame] at huniform
    exact Except.ok.inj (huniform.symm.trans huniform')

end Tree

/-! ## Texts -/

theorem Tree.exists_error_withoutClauses {resolve : String → Option Expr} (tree : Tree) :
    (∃ form, tree.lower resolve = .error form) ↔
      ∃ form, tree.withoutClauses.lower resolve = .error form := by
  cases h : tree.lower resolve with
  | ok e => simp [lower_withoutClauses tree |>.mpr h]
  | error form =>
    cases h' : tree.withoutClauses.lower resolve with
    | ok e => simp [lower_withoutClauses tree |>.mp h'] at h
    | error form' => simp

/-- **What texts lose.** Where the names that are claimed become references to attributes of those
names:

* A text is unsupported, or has an expression, as it would without its clauses.
* Two texts have the same expression exactly if they are the same but for clauses and spelling.
* So where there are no clauses, nothing is lost but spelling. -/
theorem parsePredicate_loses_clauses {resolve : String → Option Expr}
    (hresolve : ResolvesNames resolve) :
    (∀ text tree, Tree.ofText text = .ok tree →
      ((∃ form, parsePredicate resolve text = .error (.unsupported form)) ↔
        ∃ form, tree.withoutClauses.lower resolve = .error form) ∧
      ∀ e, parsePredicate resolve text = .ok e ↔ tree.withoutClauses.lower resolve = .ok e) ∧
    (∀ text text' tree tree' e e',
      Tree.ofText text = .ok tree → Tree.ofText text' = .ok tree' →
      parsePredicate resolve text = .ok e → parsePredicate resolve text' = .ok e' →
      (e = e' ↔ tree.withoutClauses.respelled = tree'.withoutClauses.respelled)) ∧
    (∀ text text' tree tree' e e',
      Tree.ofText text = .ok tree → Tree.ofText text' = .ok tree' →
      parsePredicate resolve text = .ok e → parsePredicate resolve text' = .ok e' →
      tree.withoutClauses = tree → tree'.withoutClauses = tree' →
      (e = e' ↔ tree.respelled = tree'.respelled)) := by
  have hsame : ∀ text text' tree tree' e e',
      Tree.ofText text = .ok tree → Tree.ofText text' = .ok tree' →
      parsePredicate resolve text = .ok e → parsePredicate resolve text' = .ok e' →
      (e = e' ↔ tree.withoutClauses.respelled = tree'.withoutClauses.respelled) := by
    intro text text' tree tree' e e' htree htree' h h'
    rw [parsePredicate_of_tree htree] at h
    rw [parsePredicate_of_tree htree'] at h'
    exact Tree.lower_eq_iff hresolve (mapError_eq_ok.mp h) (mapError_eq_ok.mp h')
  refine ⟨fun text tree htree => ⟨?_, fun e => ?_⟩, hsame, ?_⟩
  · rw [parsePredicate_of_tree htree, ← Tree.exists_error_withoutClauses]
    cases tree.lower resolve <;> simp [Except.mapError]
  · rw [parsePredicate_of_tree htree, mapError_eq_ok, Tree.lower_withoutClauses]
  · intro text text' tree tree' e e' htree htree' h h' hfree hfree'
    have hiff := hsame text text' tree tree' e e' htree htree' h h'
    rwa [hfree, hfree'] at hiff

/-- Both ways to negate a `LIKE` are the same to a model of posts. -/
theorem negated_like_alike :
    ∃ e, parsePredicate (LocalizedModel.posts.resolve ⟨"en"⟩) "NOT title LIKE 'x%'" = .ok e ∧
      parsePredicate (LocalizedModel.posts.resolve ⟨"en"⟩) "title NOT LIKE 'x%'" = .ok e := by
  have htree : Tree.ofText "NOT title LIKE 'x%'" = .ok (.signed .not
      (.like (.name ⟨"title", none⟩) (.text "x%") false false none)) := by
    decide +kernel
  have htree' : Tree.ofText "title NOT LIKE 'x%'" = .ok
      (.like (.name ⟨"title", none⟩) (.text "x%") true false none) := by
    decide +kernel
  obtain ⟨e, he⟩ : ∃ e,
      parsePredicate (LocalizedModel.posts.resolve ⟨"en"⟩) "NOT title LIKE 'x%'" = .ok e :=
    ⟨_, parsePredicate_of_tree htree⟩
  obtain ⟨e', he'⟩ : ∃ e,
      parsePredicate (LocalizedModel.posts.resolve ⟨"en"⟩) "title NOT LIKE 'x%'" = .ok e :=
    ⟨_, parsePredicate_of_tree htree'⟩
  have hsame : e = e' :=
    ((parsePredicate_loses_clauses (LocalizedModel.posts.resolvesNames ⟨"en"⟩)).2.2 _ _ _ _ _ _
      htree htree' he he' rfl rfl).mpr rfl
  exact ⟨e, he, hsame ▸ he'⟩

/-- An escape character and a quantifier are dropped without an error. -/
theorem escape_and_quantifier_dropped :
    parsePredicate (fun _ => none) "a LIKE 'x!%' ESCAPE '!'"
        = parsePredicate (fun _ => none) "a LIKE 'x!%'" ∧
      parsePredicate (fun _ => none) "a LIKE 'x!%' ESCAPE '!'"
        = .ok (.binary .like (.column none "a") (.text "x!%")) ∧
      parsePredicate (fun _ => none) "count(DISTINCT a)"
        = parsePredicate (fun _ => none) "count(a)" ∧
      parsePredicate (fun _ => none) "count(DISTINCT a)"
        = .ok (.call "count" [.column none "a"]) := by
  have hescape : Tree.ofText "a LIKE 'x!%' ESCAPE '!'" = .ok
      (.like (.name ⟨"a", none⟩) (.text "x!%") false false (some "!")) := by
    decide +kernel
  have hplain : Tree.ofText "a LIKE 'x!%'" = .ok
      (.like (.name ⟨"a", none⟩) (.text "x!%") false false none) := by
    decide +kernel
  have hdistinct : Tree.ofText "count(DISTINCT a)" = .ok
      (.call { name := [⟨"count", none⟩], quantifier := some "DISTINCT" }
        [.positional (.name ⟨"a", none⟩)]) := by
    decide +kernel
  have hcount : Tree.ofText "count(a)" = .ok
      (.call { name := [⟨"count", none⟩] } [.positional (.name ⟨"a", none⟩)]) := by
    decide +kernel
  rw [parsePredicate_of_tree hescape, parsePredicate_of_tree hplain,
    parsePredicate_of_tree hdistinct, parsePredicate_of_tree hcount]
  exact ⟨rfl, rfl, rfl, rfl⟩

end LocalizedQuery
