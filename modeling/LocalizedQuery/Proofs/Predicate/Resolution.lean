import LocalizedQuery.Compile
import LocalizedQuery.Proofs.LocalizedModel
import LocalizedQuery.Proofs.Outline
import LocalizedQuery.Proofs.Predicate.Lowering
import LocalizedQuery.Proofs.Predicate.Reading

/-!
# Names can be resolved afterwards

A text is read without regard to names, and a resolver is asked for each bare name on the way down.
It could as well be asked at the end: reading a text with no resolver leaves every bare name a
column without a qualifier, nothing else becomes one, and `Expr.resolved` replaces those. Whether
the text can be read, and the error if not, has nothing to do with the resolver.

A model puts a single reference in place of a name. So what it reads has the same places as what is
read without it, and the two can be compared place by place.

## Main results

* `Tree.lower_resolved`, `parsePredicate_resolved` — resolving afterwards is the same
* `Expr.partAt?_resolved` — what stands at each place
* `LocalizedModel.parse_resolves` — what a model makes of the names of a text
-/

namespace LocalizedQuery

namespace Expr

variable (resolve : String → Option Expr)

mutual

/-- An expression in which the columns without a qualifier that `resolve` claims are replaced. -/
def resolved : Expr → Expr
  | .column none name => (resolve name).getD (.column none name)
  | .column (some table) name => .column (some table) name
  | .binary op left right => .binary op left.resolved right.resolved
  | .unary op e => .unary op e.resolved
  | .isNull e negated => .isNull e.resolved negated
  | .paren e => .paren e.resolved
  | .call function args => .call function (resolvedList args)
  | .caseOf operand branches otherwise =>
    .caseOf (resolvedOption operand) (resolvedBranches branches) (resolvedOption otherwise)
  | .inList operand values negated => .inList operand.resolved (resolvedList values) negated
  | .between operand low high negated =>
    .between operand.resolved low.resolved high.resolved negated
  | .literal value => .literal value
  | .star table => .star table
  | .localized ref => .localized ref

/-- `resolved` for each of a list. -/
def resolvedList : List Expr → List Expr
  | [] => []
  | e :: rest => e.resolved :: resolvedList rest

/-- `resolved` for what may be missing. -/
def resolvedOption : Option Expr → Option Expr
  | none => none
  | some e => some e.resolved

/-- `resolved` for the branches of a `CASE`. -/
def resolvedBranches : List (Expr × Expr) → List (Expr × Expr)
  | [] => []
  | (condition, result) :: rest =>
    (condition.resolved, result.resolved) :: resolvedBranches rest

end

variable {resolve}

theorem resolvedList_eq_map (es : List Expr) :
    resolvedList resolve es = es.map (resolved resolve) := by
  induction es with
  | nil => rfl
  | cons e rest ih => rw [resolvedList, ih, List.map_cons]

theorem resolvedOption_eq_map (e : Option Expr) :
    resolvedOption resolve e = e.map (resolved resolve) := by
  cases e <;> rfl

theorem resolvedBranches_eq_map (branches : List (Expr × Expr)) :
    resolvedBranches resolve branches
      = branches.map fun branch => (branch.1.resolved resolve, branch.2.resolved resolve) := by
  induction branches with
  | nil => rfl
  | cons branch rest ih => rw [resolvedBranches, ih, List.map_cons]

/-- What is no name is resolved in its children. -/
theorem resolved_eq_mapChildren {e : Expr} (h : ∀ name, e ≠ .column none name) :
    e.resolved resolve = e.mapChildren (resolved resolve) := by
  cases e with
  | column table name =>
    cases table with
    | none => exact absurd rfl (h name)
    | some table => rfl
  | _ =>
    simp [resolved, mapChildren, mapChildrenIdx, mapIdx_const, resolvedList_eq_map,
      resolvedOption_eq_map, resolvedBranches_eq_map]

/-- **The children of a resolved expression,** if names have none. -/
theorem children_resolved (hleaf : ∀ name e, resolve name = some e → e.children = []) (e : Expr) :
    (e.resolved resolve).children = e.children.map (resolved resolve) := by
  by_cases hname : ∃ name, e = .column none name
  · obtain ⟨name, rfl⟩ := hname
    rw [resolved]
    cases hresolve : resolve name with
    | none => rfl
    | some e => exact hleaf name e hresolve
  · rw [resolved_eq_mapChildren fun name heq => hname ⟨name, heq⟩, children_mapChildren]

/-- **What stands at each place** of a resolved expression, if names are resolved to leaves. -/
theorem partAt?_resolved (hleaf : ∀ name e, resolve name = some e → e.children = [])
    (path : List Nat) (e : Expr) :
    (e.resolved resolve).partAt? path = (e.partAt? path).map (resolved resolve) := by
  induction path generalizing e with
  | nil => rfl
  | cons i path ih =>
    rw [partAt?, partAt?, children_resolved hleaf, List.getElem?_map]
    cases e.children[i]? with
    | none => rfl
    | some child => exact ih child

/-- Where a reference comes from. -/
theorem resolved_eq_localized_iff {e : Expr} {ref : Reference} :
    e.resolved resolve = .localized ref ↔
      e = .localized ref ∨
        ∃ name, e = .column none name ∧ resolve name = some (.localized ref) := by
  cases e with
  | column table name => cases table <;> cases h : resolve name <;> simp [resolved, h]
  | _ => simp [resolved]

/-- Where a column comes from, if names are resolved to references. -/
theorem resolved_eq_column_iff
    (hlocalized : ∀ name e, resolve name = some e → ∃ ref, e = .localized ref)
    {e : Expr} {table : Option String} {name : String} :
    e.resolved resolve = .column table name ↔
      e = .column table name ∧ (table = none → resolve name = none) := by
  cases e with
  | column table' name' =>
    cases table' with
    | some _ => cases table <;> simp [resolved]
    | none =>
      have hsame : Expr.column none name' = .column table name → table = none ∧ name = name' := by
        rintro ⟨⟩
        exact ⟨rfl, rfl⟩
      cases h : resolve name' with
      | none =>
        rw [resolved, h, Option.getD_none]
        exact ⟨fun heq => ⟨heq, fun _ => (hsame heq).2 ▸ h⟩, fun heq => heq.1⟩
      | some e =>
        obtain ⟨ref, rfl⟩ := hlocalized name' e h
        rw [resolved, h, Option.getD_some]
        refine iff_of_false nofun fun ⟨heq, hnone⟩ => ?_
        obtain ⟨htable, rfl⟩ := hsame heq
        exact Option.some_ne_none _ (h.symm.trans (hnone htable))
  | _ => simp [resolved]

end Expr

namespace Tree

variable (resolve : String → Option Expr)

/-- A number has no names. -/
theorem lowerNumber_resolved (digits : String) :
    lowerNumber digits = (lowerNumber digits).map (Expr.resolved resolve) := by
  rw [lowerNumber]
  cases smallInteger? digits with
  | some value => rfl
  | none => cases (Double.ofText? digits).filter Double.isFinite <;> rfl

mutual

/-- **Names of a tree can be resolved afterwards.** -/
theorem lower_resolved (tree : Tree) :
    tree.lower resolve = (tree.lower fun _ => none).map (Expr.resolved resolve) := by
  match tree with
  | .name ident => rfl
  | .path parts =>
    match parts with
    | [table, column] => rfl
    | [] | [_] | _ :: _ :: _ :: _ => rfl
  | .number digits _ =>
    rw [lower, lower]
    exact lowerNumber_resolved resolve digits
  | .text _ | .bool _ | .null | .subquery _ | .foreign _ => rfl
  | .signed .plus operand =>
    rw [lower, lower]
    exact lower_resolved operand
  | .nested inner | .signed .minus inner | .signed .not inner | .isNull inner _ =>
    rw [lower, lower, lower_resolved inner]
    cases inner.lower fun _ => none <;> rfl
  | .binary left op right =>
    rw [lower, lower, lower_resolved left, lower_resolved right]
    cases left.lower fun _ => none with
    | error form => rfl
    | ok left' =>
      cases op with
      | foreign spelling => rfl
      | known op => cases right.lower fun _ => none <;> rfl
  | .like operand pattern negated _ _ =>
    rw [lower, lower, lower_resolved operand, lower_resolved pattern]
    cases operand.lower fun _ => none with
    | error form => rfl
    | ok operand' => cases pattern.lower fun _ => none <;> cases negated <;> rfl
  | .inList operand values _ =>
    rw [lower, lower, lower_resolved operand, lowerList_resolved values]
    cases operand.lower fun _ => none with
    | error form => rfl
    | ok operand' => cases lowerList (fun _ => none) values <;> rfl
  | .between operand low high _ =>
    rw [lower, lower, lower_resolved operand, lower_resolved low, lower_resolved high]
    cases operand.lower fun _ => none with
    | error form => rfl
    | ok operand' =>
      cases low.lower fun _ => none with
      | error form => rfl
      | ok low' => cases high.lower fun _ => none <;> rfl
  | .call form args =>
    rw [lower, lower, lowerArguments_resolved args]
    cases lowerArguments (fun _ => none) _ args <;> rfl

/-- Names of a list of trees can be resolved afterwards. -/
theorem lowerList_resolved (trees : List Tree) :
    lowerList resolve trees
      = (lowerList (fun _ => none) trees).map (Expr.resolvedList resolve) := by
  match trees with
  | [] => rfl
  | tree :: rest =>
    rw [lowerList, lowerList, lower_resolved tree, lowerList_resolved rest]
    cases tree.lower fun _ => none with
    | error form => rfl
    | ok first => cases lowerList (fun _ => none) rest <;> rfl

/-- Names of arguments can be resolved afterwards. -/
theorem lowerArguments_resolved {call : UnsupportedForm} (args : List Argument) :
    lowerArguments resolve call args
      = (lowerArguments (fun _ => none) call args).map (Expr.resolvedList resolve) := by
  match args with
  | [] => rfl
  | .special _ :: _ => rfl
  | .positional value :: rest =>
    rw [lowerArguments, lowerArguments, lower_resolved value, lowerArguments_resolved rest]
    cases value.lower fun _ => none with
    | error form => rfl
    | ok first => cases lowerArguments (fun _ => none) call rest <;> rfl

end

end Tree

/-- **Names of a text can be resolved afterwards.** In particular the resolver has no part in
whether a text can be read, and in the error if not. -/
theorem parsePredicate_resolved (resolve : String → Option Expr) (text : String) :
    parsePredicate resolve text
      = (parsePredicate (fun _ => none) text).map (Expr.resolved resolve) := by
  cases htree : Tree.ofText text with
  | error reason =>
    rw [parsePredicate, parsePredicate, htree]
    rfl
  | ok tree =>
    rw [parsePredicate_of_tree htree, parsePredicate_of_tree htree, tree.lower_resolved resolve]
    cases tree.lower fun _ => none <;> rfl

/-- Without a resolver there are no references. -/
theorem not_isPart_of_unresolved {text : String} {plain : Expr}
    (h : parsePredicate (fun _ => none) text = .ok plain) (ref : Reference) :
    ¬ (Expr.localized ref).IsPart plain := by
  intro hpart
  have hnone : ∀ (name : String) (e : Expr), none = some e → ∀ ref ∈ e.references, False := by
    rintro _ _ ⟨⟩
  exact references_parsePredicate hnone h ref (Expr.mem_references_iff.mpr hpart)

namespace LocalizedModel

variable {t : LocalizedModel} {locale : Locale}

/-- Names are resolved to references. -/
theorem localized_of_resolve (name : String) (e : Expr) (h : t.resolve locale name = some e) :
    ∃ ref, e = .localized ref := by
  obtain ⟨b, -, -, rfl⟩ := eq_localized_of_attributeNode (resolve_eq_some.mp h)
  exact ⟨_, rfl⟩

/-- What a model reads has the places of what is read without it. -/
theorem partAt?_parse (t : LocalizedModel) (locale : Locale) (path : List Nat) (plain : Expr) :
    (plain.resolved (t.resolve locale)).partAt? path
      = (plain.partAt? path).map (Expr.resolved (t.resolve locale)) := by
  refine Expr.partAt?_resolved (fun name e hname => ?_) path plain
  obtain ⟨ref, rfl⟩ := localized_of_resolve name e hname
  rfl

/-- **What a model makes of the names of a text.** Whatever the resolver, a text has the error that
it has without one, or else the names that are claimed are replaced in what is read without one. So
if a model reads a text, then at each place

* there is a reference exactly if without a resolver there is a bare name that a backend of the
  model keeps, and then the reference is that backend's, in the locale that was asked for;
* there is a column exactly if without a resolver there is the same one, with a qualifier or with a
  name that no backend keeps. -/
theorem parse_resolves (ht : t.Attached) (locale : Locale) (text : String) :
    (∀ resolve : String → Option Expr,
      (∀ error, parsePredicate resolve text = .error error ↔
        parsePredicate (fun _ => none) text = .error error) ∧
      ∀ plain, parsePredicate (fun _ => none) text = .ok plain →
        parsePredicate resolve text = .ok (plain.resolved resolve)) ∧
    ∀ plain, parsePredicate (fun _ => none) text = .ok plain →
      ∃ e, t.parse text locale = .ok e ∧
        (∀ path ref, e.partAt? path = some (.localized ref) ↔
          ∃ name, plain.partAt? path = some (.column none name) ∧ ∃ b ∈ t.backends,
            b.keeps name = true ∧ ref = b.reference name locale ∧
            ref.belongsTo b.id locale = true) ∧
        ∀ path table name, e.partAt? path = some (.column table name) ↔
          plain.partAt? path = some (.column table name) ∧
            (table = none → ∀ b ∈ t.backends, b.keeps name = false) := by
  have hok : ∀ (resolve : String → Option Expr) (plain : Expr),
      parsePredicate (fun _ => none) text = .ok plain →
      parsePredicate resolve text = .ok (plain.resolved resolve) := by
    intro resolve plain hplain
    rw [parsePredicate_resolved, hplain]
    rfl
  refine ⟨fun resolve => ⟨fun error => ?_, hok resolve⟩, fun plain hplain =>
    ⟨plain.resolved (t.resolve locale), hok _ plain hplain, fun path ref => ?_,
      fun path table name => ?_⟩⟩
  · rw [parsePredicate_resolved]
    cases parsePredicate (fun _ => none) text <;> simp [Except.map]
  · rw [partAt?_parse t locale, Option.map_eq_some_iff]
    constructor
    · rintro ⟨part, hpart, hresolved⟩
      rcases Expr.resolved_eq_localized_iff.mp hresolved with rfl | ⟨name, rfl, hname⟩
      · exact absurd (Expr.isPart_iff_partAt?.mpr ⟨path, hpart⟩)
          (not_isPart_of_unresolved hplain ref)
      · obtain ⟨b, hb, hkeeps, heq⟩ := ht.resolve_eq_some_iff.mp hname
        rw [Expr.localized.injEq] at heq
        refine ⟨name, hpart, b, hb, hkeeps, heq, ?_⟩
        rw [heq]
        exact Backend.belongsTo_of_shares (b.shares_reference name locale)
    · rintro ⟨name, hpart, b, hb, hkeeps, rfl, -⟩
      exact ⟨_, hpart, Expr.resolved_eq_localized_iff.mpr
        (.inr ⟨name, rfl, ht.resolve_eq_some_iff.mpr ⟨b, hb, hkeeps, rfl⟩⟩)⟩
  · rw [partAt?_parse t locale, Option.map_eq_some_iff]
    simp only [Expr.resolved_eq_column_iff localized_of_resolve, resolve_eq_none_iff]
    constructor
    · rintro ⟨_, hpart, rfl, hfree⟩
      exact ⟨hpart, hfree⟩
    · rintro ⟨hpart, hfree⟩
      exact ⟨_, hpart, rfl, hfree⟩

/-- A name is resolved, and the same name with a qualifier is not. -/
theorem parse_resolves_title :
    posts.Attached ∧ ∃ e, posts.parse "title = 'x' AND posts.title = views" ⟨"en"⟩ = .ok e ∧
      e.partAt? [0, 0] = some postTitle ∧
      e.partAt? [1, 0] = some (.column (some "posts") "title") ∧
      e.partAt? [1, 1] = some (.column none "views") := by
  have htree : Tree.ofText "title = 'x' AND posts.title = views" = .ok
      (.binary (.binary (.name ⟨"title", none⟩) (.known .eq) (.text "x")) (.known .and)
        (.binary (.path [⟨"posts", none⟩, ⟨"title", none⟩]) (.known .eq)
          (.name ⟨"views", none⟩))) := by
    decide +kernel
  have hplain : parsePredicate (fun _ => none) "title = 'x' AND posts.title = views" = .ok
      (.binary .and (.binary .eq (.column none "title") (.text "x"))
        (.binary .eq (.column (some "posts") "title") (.column none "views"))) := by
    rw [parsePredicate_of_tree htree]
    rfl
  obtain ⟨e, he, href, hcolumn⟩ := (parse_resolves attached_posts ⟨"en"⟩ _).2 _ hplain
  refine ⟨attached_posts, e, he, (href _ _).mpr ?_, (hcolumn _ _ _).mpr ⟨rfl, nofun⟩,
    (hcolumn _ _ _).mpr ⟨rfl, fun _ => by decide⟩⟩
  exact ⟨"title", rfl, .keyValue postTitles, by simp [posts], by decide, rfl, by decide⟩

end LocalizedModel

end LocalizedQuery
