import LocalizedQuery.Proofs.Evaluation.Rows
import LocalizedQuery.Proofs.Evaluation.Terms
import LocalizedQuery.Proofs.Inference.Instances
import LocalizedQuery.Proofs.JoinPlan
import LocalizedQuery.Proofs.LocalizedModel

/-!
# When an inner join drops records

Inference takes `NOT`, functions, lists and ranges to be as strict as their operands, which they are
not: `NOT (title = 'x' AND subtitle = 'y')` holds for a record that has another subtitle and no
title, and `COALESCE(title, '') = ''` for one without a title. Both get inner joins, and these drop
such records.

A plan is justified (`Expr.Justifies`) if the outlook of the predicate excludes `holds` for every
inner join. Then nothing is dropped, whatever the predicate. For the two kinds of predicates above
this is also necessary, up to the data that stand in them.

## Main results

* `LocalizedModel.rows_of_justifies` — a justified plan drops nothing
* `LocalizedModel.justifies_logical_iff` — logical predicates, among them negated conjunctions
* `LocalizedModel.justifies_test_iff` — comparisons, `IN` and `BETWEEN`
-/

namespace LocalizedQuery

variable {α : Type} {t : LocalizedModel} {locale : Locale} {predicate : Expr}
  {plan : List JoinRequirement} {requirement : JoinRequirement}

/-! ## Justified plans -/

/-- Every inner join of a plan is for a row without which the predicate cannot hold, as far as its
outlook tells. -/
def Expr.Justifies (predicate : Expr) (plan : List JoinRequirement) : Prop :=
  ∀ requirement ∈ plan, requirement.kind = .inner →
    .holds ∉ predicate.outlook requirement.target.aliasName

theorem Expr.Justifies.needsRow (h : predicate.Justifies plan) (hmem : requirement ∈ plan)
    (hkind : requirement.kind = .inner) : predicate.NeedsRow requirement.target.aliasName :=
  Expr.needsRow_of_outlook (h requirement hmem hkind)

namespace LocalizedModel

/-- **A justified plan drops nothing.** The query has the rows that it has with outer joins. -/
theorem rows_of_justifies (hplan : t.plan predicate locale false = .ok plan)
    (h : predicate.Justifies plan) {q : Query}
    (hq : t.whereClause t.model.baseQuery predicate locale false = .ok q) (I : Interpretation α)
    (db : Database α) : q.rows I db = q.outered.rows I db := by
  obtain ⟨plan', hplan', rfl⟩ := whereClause_eq_ok.mp hq
  have hsame : plan' = plan := Except.ok.inj (hplan'.symm.trans hplan)
  rw [hsame]
  refine Query.rows_outered (Query.nodup_applyPlan List.nodup_nil) ?_
  intro join hjoin hkind row hkeeps hmissing
  rcases Query.mem_joins_applyPlan hjoin with hbase | ⟨requirement, hmem, rfl⟩
  · exact absurd hbase List.not_mem_nil
  · rw [Query.filterBy, if_neg Bool.false_ne_true, Query.keeps_filter] at hkeeps
    exact h.needsRow hmem hkind I row hmissing hkeeps.2

/-! ## Logical predicates -/

/-- An instance of a predicate of the model is one, too. -/
theorem localizes_of_instance (hpredicate : t.Localizes locale predicate) {joined : String}
    {e : Expr} (he : predicate.Instance joined e) : t.Localizes locale e :=
  fun ref href => hpredicate ref (he.references_subset href)

/-- An instance of a predicate of the model gets the same joins for the table that it varies. -/
theorem mem_plan_of_instance (ht : t.Attached) (hlogical : predicate.Logical)
    (hpredicate : t.Localizes locale predicate)
    (hplan : t.plan predicate locale false = .ok plan) (hmem : requirement ∈ plan) {e : Expr}
    (he : predicate.Instance requirement.target.aliasName e) :
    ∃ plan', t.plan e locale false = .ok plan' ∧ requirement ∈ plan' := by
  obtain ⟨plan', hplan'⟩ : ∃ plan', t.plan e locale false = .ok plan' :=
    plan_ok (fun b _ => he.exposes (hlogical.exposes _)) false
  refine ⟨plan', hplan', ?_⟩
  obtain ⟨b, hb, name, kind, hkind, rfl⟩ := (mem_plan hplan).mp hmem
  refine (mem_plan hplan').mpr ⟨b, hb, name, kind, ?_, rfl⟩
  rw [he.kindAmong_eq fun ref href hshares =>
    table_of_shares ht hpredicate hb href hshares]
  exact hkind

/-- **When the inner joins of a logical predicate are right.** A logical predicate has a plan, and
its instances are logical predicates of the model that get the same joins. These joins are right for
all instances exactly if the plan is justified; and then the query has the rows that it has with
outer joins. -/
theorem justifies_logical_iff (ht : t.Attached) (hlogical : predicate.Logical)
    (hpredicate : t.Localizes locale predicate) :
    ∃ plan, t.plan predicate locale false = .ok plan ∧
      (∀ requirement ∈ plan, ∀ e, predicate.Instance requirement.target.aliasName e →
        e.Logical ∧ t.Localizes locale e ∧
          ∃ plan', t.plan e locale false = .ok plan' ∧ requirement ∈ plan') ∧
      ((∀ requirement ∈ plan, requirement.kind = .inner →
          ∀ e, predicate.Instance requirement.target.aliasName e →
            e.NeedsRow requirement.target.aliasName) ↔
        predicate.Justifies plan) ∧
      (predicate.Justifies plan → ∀ q,
        t.whereClause t.model.baseQuery predicate locale false = .ok q →
          ∀ {α : Type} (I : Interpretation α) (db : Database α),
            q.rows I db = q.outered.rows I db) := by
  obtain ⟨plan, hplan⟩ : ∃ plan, t.plan predicate locale false = .ok plan :=
    plan_ok (fun b _ => hlogical.exposes _) false
  refine ⟨plan, hplan, ?_, ⟨?_, ?_⟩, ?_⟩
  · intro requirement hmem e he
    exact ⟨he.logical hlogical, localizes_of_instance hpredicate he,
      mem_plan_of_instance ht hlogical hpredicate hplan hmem he⟩
  · intro hright requirement hmem hkind hholds
    obtain ⟨e, he, htruth⟩ := hlogical.exists_instance (by simp) hholds
    exact hright requirement hmem hkind e he .texts .missing rfl htruth
  · intro hjustifies requirement hmem hkind e he
    refine Expr.needsRow_of_outlook fun hholds => ?_
    exact hjustifies requirement hmem hkind (he.outlook_subset hholds)
  · intro hjustifies q hq α I db
    exact rows_of_justifies hplan hjustifies hq I db

/-- The title is not `x`, or it is `y`. -/
def titleAlone : Expr :=
  .unary .not (.paren ((postTitle.equals (.text "x")).both (.binary .ne postTitle (.text "y"))))

/-- Both sides of this conjunction need the title, so its negation does. -/
theorem rows_titleAlone :
    ∃ plan, posts.plan titleAlone ⟨"en"⟩ false = .ok plan ∧ titleAlone.Justifies plan ∧
      ∀ q, posts.whereClause posts.model.baseQuery titleAlone ⟨"en"⟩ false = .ok q →
        ∀ {α : Type} (I : Interpretation α) (db : Database α),
          q.rows I db = q.outered.rows I db := by
  have hlocalizes : posts.Localizes ⟨"en"⟩ titleAlone :=
    List.forall_mem_append.mpr
      ⟨List.forall_mem_append.mpr ⟨localizes_postTitle, List.forall_mem_nil _⟩,
        List.forall_mem_append.mpr ⟨localizes_postTitle, List.forall_mem_nil _⟩⟩
  have hlogical : titleAlone.Logical := by
    refine .not (.paren (.and (.atom ?_) (.atom ?_)))
    · exact .comparison (by simp [BinaryOperator.Compares]) (.localized _) (.plain (.literal _))
    · exact .comparison (by simp [BinaryOperator.Compares]) (.localized _) (.plain (.literal _))
  obtain ⟨plan, hplan, -, -, hrows⟩ := justifies_logical_iff attached_posts hlogical hlocalizes
  have hjustifies : titleAlone.Justifies plan := by
    intro requirement hmem _
    obtain ⟨ref, href, htable⟩ :=
      (aliases_plan attached_posts hlocalizes hplan).mp ⟨requirement, hmem, rfl⟩
    have htitle : ref = postTitles.reference "title" ⟨"en"⟩ := by
      simpa [titleAlone, Expr.references, Expr.both, Expr.equals, Expr.text, postTitle] using href
    rw [← htable, htitle]
    decide +kernel
  exact ⟨plan, hplan, hjustifies, hrows hjustifies⟩

/-- Not both: the title is `x` and the subtitle is `y`. -/
def notBoth : Expr :=
  .unary .not (.paren ((postTitle.equals (.text "x")).both (postSubtitle.equals (.text "y"))))

/-- One post without a title, and with the subtitle `z`. -/
def untitledPost : Database String := fun table =>
  if table = "posts" then {fun column => if column = "id" then some "1" else none}
  else if table = "string_translations" then
    {fun column =>
      match column with
      | "translatable_id" => some "1"
      | "translatable_type" => some "Post"
      | "locale" => some "en"
      | "key" => some "subtitle"
      | "value" => some "z"
      | _ => none}
  else 0

/-- The alias of the title, written out, as the rows of a query compare it again and again. -/
theorem aliasName_postTitle :
    postTitles.aliasName "title" ⟨"en"⟩ = "post_title_en_string_translations" := rfl

/-- The alias of the subtitle, written out. -/
theorem aliasName_postSubtitle :
    postTitles.aliasName "subtitle" ⟨"en"⟩ = "post_subtitle_en_string_translations" := rfl

/-- A negated conjunction gets inner joins, and they drop a record that satisfies it. -/
theorem negated_conjunction_drops_record :
    (posts.whereClause posts.model.baseQuery notBoth ⟨"en"⟩ false).toOption.map (fun q =>
        (q.joins.map fun join => (join.target, join.kind),
          (q.rows .texts untitledPost).card, (q.outered.rows .texts untitledPost).card))
      = some ([("post_subtitle_en_string_translations", .inner),
          ("post_title_en_string_translations", .inner)], 0, 1) ∧
      ¬notBoth.NeedsRow "post_title_en_string_translations" := by
  refine ⟨?_, fun hneeds => ?_⟩
  · have hplan : posts.plan notBoth ⟨"en"⟩ false
        = .ok [⟨some "subtitle", postTitles.joinTarget "subtitle" ⟨"en"⟩, .inner⟩,
            ⟨some "title", postTitles.joinTarget "title" ⟨"en"⟩, .inner⟩] :=
      plan_eq_ok (fun _ _ => rejectUnsupported_eq_ok.mp rfl) false
    rw [whereClause, hplan]
    simp only [KeyValueBackend.joinTarget, notBoth, postTitle, postSubtitle,
      KeyValueBackend.reference, aliasName_postTitle, aliasName_postSubtitle]
    rfl
  · -- The row of the subtitle alone decides the conjunction.
    refine hneeds .texts (fun table column =>
      if table = "post_subtitle_en_string_translations" ∧ column = "value" then some "z" else none)
      rfl ?_
    decide +kernel

/-! ## Comparisons, lists and ranges -/

/-- **When the inner joins of a test are right.** If the plan is justified, each inner join is for a
row that the predicate needs, and the query has the rows that it has with outer joins. A comparison,
an `IN` or a `BETWEEN` of terms needs the rows of its inner joins only then. -/
theorem justifies_test_iff (hplan : t.plan predicate locale false = .ok plan) :
    (predicate.Justifies plan →
      (∀ requirement ∈ plan, requirement.kind = .inner →
        predicate.NeedsRow requirement.target.aliasName) ∧
      ∀ q, t.whereClause t.model.baseQuery predicate locale false = .ok q →
        ∀ {α : Type} (I : Interpretation α) (db : Database α),
          q.rows I db = q.outered.rows I db) ∧
    (predicate.IsTest Expr.IsTerm →
      ((∀ requirement ∈ plan, requirement.kind = .inner →
          predicate.NeedsRow requirement.target.aliasName) ↔
        predicate.Justifies plan)) := by
  refine ⟨fun hjustifies => ⟨fun requirement hmem hkind => hjustifies.needsRow hmem hkind,
    fun q hq α I db => rows_of_justifies hplan hjustifies hq I db⟩, fun htest => ?_⟩
  constructor
  · intro hneeds requirement hmem hkind
    exact htest.needsRow_iff.mp (hneeds requirement hmem hkind)
  · intro hjustifies requirement hmem hkind
    exact hjustifies.needsRow hmem hkind

/-- A range that starts with the title. -/
theorem needsRow_of_title_range :
    ∃ plan, posts.plan (.between (.text "m") postTitle (.text "z") false) ⟨"en"⟩ false = .ok plan ∧
      ((∀ requirement ∈ plan, requirement.kind = .inner →
          (Expr.between (.text "m") postTitle (.text "z") false).NeedsRow
            requirement.target.aliasName) ↔
        (Expr.between (.text "m") postTitle (.text "z") false).Justifies plan) := by
  have htest : (Expr.between (.text "m") postTitle (.text "z") false).IsTest Expr.IsTerm :=
    .between false (.leaf (.plain (.literal _))) (.leaf (.localized _))
      (.leaf (.plain (.literal _)))
  have hexposes : ∀ b ∈ posts.backends, (Expr.between (.text "m") postTitle (.text "z")
      false).Exposes (Reference.belongsTo b.id ⟨"en"⟩) := by
    intro b _
    simp [Expr.Exposes, Expr.outermostCases, postTitle, Expr.text]
  obtain ⟨plan, hplan⟩ := plan_ok hexposes false
  exact ⟨plan, hplan, (justifies_test_iff hplan).2 htest⟩

/-- The title is empty, or there is none. -/
def blankTitle : Expr := (Expr.call "COALESCE" [postTitle, .text ""]).equals (.text "")

/-- A comparison with a function gets an inner join, and it drops a record that satisfies it. -/
theorem coalesced_title_drops_record :
    (posts.whereClause posts.model.baseQuery blankTitle ⟨"en"⟩ false).toOption.map (fun q =>
        (q.joins.map fun join => (join.target, join.kind),
          (q.rows .texts untitledPost).card, (q.outered.rows .texts untitledPost).card))
      = some ([("post_title_en_string_translations", .inner)], 0, 1) ∧
      ¬blankTitle.NeedsRow "post_title_en_string_translations" := by
  refine ⟨?_, fun hneeds => hneeds .texts .missing rfl (by decide +kernel)⟩
  have hplan : posts.plan blankTitle ⟨"en"⟩ false
      = .ok [⟨some "title", postTitles.joinTarget "title" ⟨"en"⟩, .inner⟩] :=
    plan_eq_ok (fun _ _ => rejectUnsupported_eq_ok.mp rfl) false
  rw [whereClause, hplan]
  simp only [KeyValueBackend.joinTarget, blankTitle, postTitle, KeyValueBackend.reference,
    aliasName_postTitle]
  rfl

end LocalizedModel

end LocalizedQuery
