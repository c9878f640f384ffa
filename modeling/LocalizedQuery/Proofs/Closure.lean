import LocalizedQuery.Compile
import LocalizedQuery.Proofs.Inversion
import LocalizedQuery.Proofs.JoinPlan
import LocalizedQuery.Proofs.LocalizedModel
import LocalizedQuery.Proofs.Predicate.Lowering

/-!
# Compiled queries are closed

In a compiled query every reference of the condition has its join, and every join serves a
reference. Three things have to agree for this: the alias that a backend writes into a reference,
the alias that it joins, and the references that inference reaches.

## Main results

* `LocalizedModel.localizes_parse` — what a text refers to is built by the model
* `LocalizedModel.whereClause_of_compile` — to compile a text is to restrict by its predicate
* `LocalizedModel.compiled_queries_closed` — restricted and compiled queries are closed
-/

namespace LocalizedQuery

/-- The localized references of the condition. -/
def Query.references (q : Query) : List Reference := q.condition.elim [] Expr.references

/-- Every reference of the condition has its join, and every join serves a reference. -/
def Query.Closed (q : Query) : Prop :=
  ∀ name, name ∈ q.joins.map Join.target ↔ ∃ ref ∈ q.references, ref.table = name

namespace LocalizedModel

variable {t : LocalizedModel} {locale : Locale} {predicate : Expr} {invert : Bool}

/-- What a text refers to is built by the model in the locale. -/
theorem localizes_parse {text : String} (h : t.parse text locale = .ok predicate) :
    t.Localizes locale predicate := by
  refine references_parsePredicate (fun name e hname => ?_) h
  exact localizes_attributeNode (resolve_eq_some.mp hname)

/-- To compile a text is to restrict all records by the predicate that it denotes. -/
theorem whereClause_of_compile {text : String} {options : CompileOptions} {c : Compilation}
    (h : t.compile text options = .ok c) :
    ∃ predicate, t.parse text options.locale = .ok predicate ∧
      t.whereClause t.model.baseQuery predicate options.locale options.invert = .ok c.query := by
  obtain ⟨predicate, hparse, h⟩ := bind_eq_ok.mp h
  obtain ⟨plans, hplans, h⟩ := bind_eq_ok.mp h
  rw [pure_eq_ok] at h
  have hplan : t.plan predicate options.locale options.invert = .ok (plans.flatMap Prod.snd) :=
    map_eq_ok.mpr ⟨plans, mapError_eq_ok.mp hplans, rfl⟩
  exact ⟨predicate, mapError_eq_ok.mp hparse,
    whereClause_eq_ok.mpr ⟨_, hplan, congrArg Compilation.query h⟩⟩

/-- What is read and planned is compiled. -/
theorem compile_of_plan {text : String} {options : CompileOptions} {plan : List JoinRequirement}
    (hparse : t.parse text options.locale = .ok predicate)
    (hplan : t.plan predicate options.locale options.invert = .ok plan) :
    ∃ c, t.compile text options = .ok c := by
  obtain ⟨parts, hparts, -⟩ := map_eq_ok.mp hplan
  exact ⟨_, bind_eq_ok.mpr ⟨predicate, mapError_eq_ok.mpr hparse,
    bind_eq_ok.mpr ⟨parts, mapError_eq_ok.mpr hparts, rfl⟩⟩⟩

theorem references_filterBy_baseQuery (plan : List JoinRequirement) :
    ((t.model.baseQuery.applyPlan plan).filterBy predicate invert).references
      = predicate.references := by
  cases invert <;>
    simp [Query.references, Query.filterBy, Query.filter, Model.baseQuery]

theorem closed_whereClause {q : Query} (ht : t.Attached) (hpredicate : t.Localizes locale predicate)
    (h : t.whereClause t.model.baseQuery predicate locale invert = .ok q) : q.Closed := by
  obtain ⟨plan, hplan, rfl⟩ := whereClause_eq_ok.mp h
  intro name
  rw [references_filterBy_baseQuery, ← aliases_plan ht hpredicate hplan]
  refine Query.target_mem_applyPlan.trans ?_
  simp [Model.baseQuery]

/-- **Restricted and compiled queries are closed.** The predicate may be put together by hand from
references of the model or come from a text. -/
theorem compiled_queries_closed (ht : t.Attached) :
    (∀ locale predicate invert q, t.Localizes locale predicate →
      t.whereClause t.model.baseQuery predicate locale invert = .ok q → q.Closed) ∧
    (∀ text locale predicate, t.parse text locale = .ok predicate →
      t.Localizes locale predicate) ∧
    ∀ text options c, t.compile text options = .ok c → c.query.Closed := by
  refine ⟨fun locale predicate invert q => closed_whereClause ht,
    fun text locale predicate => localizes_parse, fun text options c h => ?_⟩
  obtain ⟨predicate, hparse, hquery⟩ := whereClause_of_compile h
  exact closed_whereClause ht (localizes_parse hparse) hquery

theorem compiled_title_query_closed :
    ∃ q, posts.whereClause posts.model.baseQuery (postTitle.equals (.text "x")) ⟨"en"⟩ true
        = .ok q ∧
      q.Closed ∧ "post_title_en_string_translations" ∈ q.joins.map Join.target := by
  have hexposes : ∀ b ∈ posts.backends, (postTitle.equals (.text "x")).Exposes
      (Reference.belongsTo b.id ⟨"en"⟩) := by
    intro b _
    simp [Expr.Exposes, Expr.equals, Expr.outermostCases, postTitle, Expr.text]
  have hlocalizes : posts.Localizes ⟨"en"⟩ (postTitle.equals (.text "x")) := by
    intro ref href
    refine localizes_postTitle ref ?_
    simpa [Expr.equals, Expr.references, Expr.text] using href
  obtain ⟨q, hq⟩ := whereClause_ok hexposes posts.model.baseQuery true
  have hclosed := (compiled_queries_closed attached_posts).1 _ _ _ q hlocalizes hq
  refine ⟨q, hq, hclosed, (hclosed _).mpr ?_⟩
  obtain ⟨plan, -, rfl⟩ := whereClause_eq_ok.mp hq
  rw [references_filterBy_baseQuery]
  exact ⟨postTitles.reference "title" ⟨"en"⟩, List.mem_singleton_self _, by decide +kernel⟩

end LocalizedModel

end LocalizedQuery
