import LocalizedQuery.Proofs.Closure
import LocalizedQuery.Proofs.Predicate.Reading
import LocalizedQuery.Proofs.Rendering.Writable

/-!
# Compiled texts can be written

The only thing that cannot be written in SQL is a double that is no real number, and a query that
comes from a text has none. Lowering refuses numbers out of range and the resolver puts references
in place of names, so there is none in what a text denotes (`LocalizedModel.real_parse`). Negating
adds no number (`Expr.Real.inverted`), and the conditions of joins compare columns and strings
(`Backend.real_target`).

## Main results

* `LocalizedModel.real_compile` — every double of the query of a text is a real number
* `LocalizedModel.compiled_text_written` — what is read and planned is compiled and written
-/

namespace LocalizedQuery

/-- Every double that stands in the expression is a real number. -/
def Expr.Real (e : Expr) : Prop :=
  e.Everywhere fun part => ∀ x, part = .literal (.float x) → x.isFinite = true

namespace Expr

/-- Around expressions with real numbers only, other forms than literals stay so. -/
theorem real_of_children {e : Expr} (he : ∀ x, e ≠ .literal (.float x))
    (hchildren : ∀ child ∈ e.children, child.Real) : e.Real :=
  everywhere_iff.mpr ⟨fun x hx => absurd hx (he x), hchildren⟩

theorem Real.of_mem_children {e child : Expr} (h : e.Real) (hchild : child ∈ e.children) :
    child.Real :=
  (everywhere_iff.mp h).2 child hchild

/-- Negation adds no number. -/
theorem Real.inverted {e : Expr} (h : e.Real) : e.inverted.Real := by
  fun_cases Expr.inverted e with
  | case1 left right | case2 left right | case3 e values negated | case4 e negated =>
    exact real_of_children (by simp) fun child hchild => h.of_mem_children hchild
  | case5 e => exact h.of_mem_children (List.mem_singleton_self e)
  | case6 e =>
    exact real_of_children (by simp) (List.forall_mem_singleton.mpr h)

theorem real_qualified (table column : String) : (qualified table column).Real :=
  real_of_children (by simp [qualified]) (by simp [qualified, children])

theorem real_text (value : String) : (text value).Real :=
  real_of_children (by simp [text]) (by simp [text, children])

theorem real_localized (ref : Reference) : (localized ref).Real :=
  real_of_children (by simp) (by simp [children])

theorem Real.binary {left right : Expr} (hleft : left.Real) (hright : right.Real)
    (op : BinaryOperator) : (binary op left right).Real :=
  real_of_children (by simp)
    (List.forall_mem_cons.mpr ⟨hleft, List.forall_mem_singleton.mpr hright⟩)

end Expr

/-- The conditions of joins compare columns and strings. -/
theorem Backend.real_target (b : Backend) (name : String) (locale : Locale) :
    (b.target name locale).on.Real := by
  cases b with
  | keyValue b =>
    have howner := (Expr.real_qualified (b.aliasName name locale) b.columns.ownerId).binary
      (Expr.real_qualified b.model.table b.model.primaryKey) .eq
    have hlocale := (Expr.real_qualified (b.aliasName name locale) b.columns.locale).binary
      (Expr.real_text locale.tag) .eq
    have hkey := (Expr.real_qualified (b.aliasName name locale) b.columns.key).binary
      (Expr.real_text name) .eq
    have htype := (Expr.real_qualified (b.aliasName name locale) b.columns.ownerType).binary
      (Expr.real_text b.model.typeName) .eq
    exact ((howner.binary hlocale .and).binary hkey .and).binary htype .and
  | table b =>
    have howner := (Expr.real_qualified (b.aliasName locale) b.foreignKey).binary
      (Expr.real_qualified b.model.table b.model.primaryKey) .eq
    have hlocale := (Expr.real_qualified (b.aliasName locale) b.localeColumn).binary
      (Expr.real_text locale.tag) .eq
    exact howner.binary hlocale .and

namespace LocalizedModel

variable {t : LocalizedModel} {locale : Locale} {predicate : Expr} {text : String}
  {options : CompileOptions}

/-- Every double in what a text denotes is a real number. -/
theorem real_parse (h : t.parse text locale = .ok predicate) : predicate.Real := by
  have hresolved : ∀ name e, t.resolve locale name = some e → e.Real := by
    intro name e hname
    obtain ⟨b, -, -, rfl⟩ := eq_localized_of_attributeNode (resolve_eq_some.mp hname)
    exact Expr.real_localized _
  have hlowered : ∀ e : Expr, e.Lowered → ∀ x, e = .literal (.float x) → x.isFinite = true := by
    rintro e he x rfl
    exact he
  exact everywhere_parsePredicate hresolved hlowered h

/-- The expressions of a restricted query, by where they come from. -/
theorem mem_expressions_whereClause {invert : Bool} {q : Query} {e : Expr}
    (h : t.whereClause t.model.baseQuery predicate locale invert = .ok q)
    (he : e ∈ q.expressions) :
    e = .star (some t.model.table) ∨ (∃ b ∈ t.backends, ∃ name, e = (b.target name locale).on) ∨
      e = if invert then predicate.inverted else predicate := by
  obtain ⟨plan, hplan, rfl⟩ := whereClause_eq_ok.mp h
  simp only [Query.expressions, List.mem_append, List.mem_map, Option.mem_toList] at he
  rcases he with (hselect | ⟨join, hjoin, rfl⟩) | hcondition
  · refine .inl ?_
    simpa [Query.filterBy, Query.filter, Model.baseQuery] using hselect
  · refine .inr (.inl ?_)
    rcases Query.mem_joins_applyPlan hjoin with hbase | ⟨requirement, hrequirement, rfl⟩
    · simp [Model.baseQuery] at hbase
    · obtain ⟨b, hb, name, kind, -, rfl⟩ := (mem_plan hplan).mp hrequirement
      exact ⟨b, hb, name, rfl⟩
  · refine .inr (.inr ?_)
    simpa [Query.filterBy, Query.filter, Model.baseQuery, eq_comm] using hcondition

/-- **Every double of the query of a text is a real number.** -/
theorem real_compile {c : Compilation} (h : t.compile text options = .ok c) :
    ∀ e ∈ c.query.expressions, e.Real := by
  intro e he
  obtain ⟨predicate, hparse, hquery⟩ := whereClause_of_compile h
  rcases mem_expressions_whereClause hquery he with rfl | ⟨b, -, name, rfl⟩ | rfl
  · exact Expr.real_of_children (by simp) (by simp [Expr.children])
  · exact b.real_target name options.locale
  · cases options.invert with
    | false => exact real_parse hparse
    | true => exact (real_parse hparse).inverted

/-- **What is read and planned is compiled and written,** whatever the model, the text, the locale,
the dialect and the sign: the doubles anywhere in the selected columns, the conditions of the joins
and the condition are real numbers, and so there is a text of the query. -/
theorem compiled_text_written {plan : List JoinRequirement}
    (hparse : t.parse text options.locale = .ok predicate)
    (hplan : t.plan predicate options.locale options.invert = .ok plan) :
    ∃ c, t.compile text options = .ok c ∧
      (∀ e ∈ c.query.expressions, ∀ x, (Expr.literal (.float x)).IsPart e → x.isFinite = true) ∧
      ∃ sql, c.sql = .ok sql := by
  obtain ⟨c, hc⟩ := compile_of_plan hparse hplan
  have hreal : ∀ e ∈ c.query.expressions, ∀ x, (Expr.literal (.float x)).IsPart e →
      x.isFinite = true :=
    fun e he x hx => real_compile hc e he _ hx x rfl
  refine ⟨c, hc, hreal, Query.toSql_ok_iff.mpr fun e he x hx => ?_⟩
  exact hreal e he x hx.isPart

/-- A text with a number that is a double. -/
theorem parse_large_title : posts.parse "title < 1e308" ⟨"en"⟩
    = .ok (.binary .lt postTitle (.literal (.float (.finite false 5010420900022432 971)))) := by
  have htree : Tree.ofText "title < 1e308"
      = .ok (.binary (.name ⟨"title", none⟩) (.known .lt) (.number "1e308" false)) := by
    decide +kernel
  have hsmall : Tree.smallInteger? "1e308" = none := by
    rw [Tree.smallInteger?, String.all_bool_eq]
    rfl
  have hdouble : (Double.ofText? "1e308").filter Double.isFinite
      = some (.finite false 5010420900022432 971) := by
    decide +kernel
  have htitle : posts.resolve ⟨"en"⟩ "title" = some postTitle := rfl
  have hlower : Tree.lower (posts.resolve ⟨"en"⟩)
      (.binary (.name ⟨"title", none⟩) (.known .lt) (.number "1e308" false))
        = .ok (.binary .lt postTitle (.literal (.float (.finite false 5010420900022432 971)))) := by
    simp [Tree.lower, Tree.lowerNumber, htitle, hsmall, hdouble, bind_eq_ok]
  rw [parse, parsePredicate_of_tree htree, hlower]
  rfl

/-- A text with a number that is close to the greatest double, in a query for the records for which
it fails. -/
theorem compiled_large_title :
    ∃ c, posts.compile "title < 1e308" { locale := ⟨"en"⟩, dialect := .mysql, invert := true }
        = .ok c ∧
      (∀ e ∈ c.query.expressions, ∀ x, (Expr.literal (.float x)).IsPart e → x.isFinite = true) ∧
      ∃ sql, c.sql = .ok sql := by
  have hexposes : ∀ b ∈ posts.backends,
      (Expr.binary .lt postTitle (.literal (.float (.finite false 5010420900022432 971)))).Exposes
        (Reference.belongsTo b.id ⟨"en"⟩) := by
    intro b _
    simp [Expr.Exposes, Expr.outermostCases, postTitle]
  obtain ⟨plan, hplan⟩ := plan_ok hexposes true
  exact compiled_text_written parse_large_title hplan

end LocalizedModel

end LocalizedQuery
