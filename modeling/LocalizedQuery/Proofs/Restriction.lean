import LocalizedQuery.Proofs.LocalizedModel
import LocalizedQuery.Proofs.Scoping

/-!
# One restriction after the other

A query may be restricted several times: by predicates over different attributes, in different
locales, inverted or not (`LocalizedModel.restrictBy`). Conditions do not matter for joins, so the
joins after such a run are those of one long plan, put together from the plans of the restrictions
(`LocalizedModel.exists_plan_of_restrictBy`). What is known of plans then holds of runs.

## Main results

* `LocalizedModel.exists_plan_of_restrictBy` — a run makes the joins of one plan
* `LocalizedModel.wellScoped_restrictBy` — all records, restricted, are a well scoped query
-/

namespace LocalizedQuery

namespace Query

variable {q q' : Query}

/-- Only the joins decide what attaching a target does to the joins. -/
theorem joins_applyJoin_congr (h : q.joins = q'.joins) (target : JoinTarget) (kind : JoinKind) :
    (q.applyJoin target kind).joins = (q'.applyJoin target kind).joins := by
  have hfind : q.findJoin target.aliasName = q'.findJoin target.aliasName := by
    rw [findJoin, findJoin, h]
  rw [applyJoin, applyJoin, hfind]
  cases q'.findJoin target.aliasName with
  | none => simp only [join, h]
  | some existing =>
    by_cases hserves : existing.kind.satisfies kind = true
    · simp only [hserves, if_true, h]
    · simp only [hserves, Bool.false_eq_true, if_false, removeJoin, join, h]

theorem joins_applyPlan_congr (h : q.joins = q'.joins) (plan : List JoinRequirement) :
    (q.applyPlan plan).joins = (q'.applyPlan plan).joins := by
  induction plan generalizing q q' with
  | nil => exact h
  | cons requirement rest ih => exact ih (joins_applyJoin_congr h _ _)

theorem applyPlan_append (q : Query) (plan plan' : List JoinRequirement) :
    q.applyPlan (plan ++ plan') = (q.applyPlan plan).applyPlan plan' :=
  List.foldl_append ..

end Query

/-- A predicate by which a query is restricted, in a locale; with `invert`, to the records for which
it fails. -/
structure Restriction where
  predicate : Expr
  locale : Locale
  invert : Bool := false

/-- What a backend joins names only its own alias and the model. -/
theorem Backend.tables_target (b : Backend) (attributeName : String) (locale : Locale) :
    ∀ name ∈ (b.target attributeName locale).on.tables,
      name = (b.target attributeName locale).aliasName ∨ name = b.model.table := by
  cases b with
  | keyValue b =>
    simp [target, KeyValueBackend.joinTarget, Expr.tables, Expr.both, Expr.equals, Expr.qualified,
      Expr.text, JoinTarget.aliasName, TableRef.referenceName, model]
  | table b =>
    simp [target, TableBackend.joinTarget, Expr.tables, Expr.both, Expr.equals, Expr.qualified,
      Expr.text, JoinTarget.aliasName, TableRef.referenceName, model]

namespace LocalizedModel

variable {t : LocalizedModel} {restrictions : List Restriction} {q q' : Query}

/-- Restricts a query once after the other. -/
def restrictBy (t : LocalizedModel) (q : Query) (restrictions : List Restriction) :
    Except InferenceError Query :=
  restrictions.foldlM
    (fun q restriction =>
      t.whereClause q restriction.predicate restriction.locale restriction.invert) q

/-- The restrictions all have plans, and `plan` consists of these. -/
structure PlansFor (t : LocalizedModel) (restrictions : List Restriction)
    (plan : List JoinRequirement) : Prop where
  planned : ∀ restriction ∈ restrictions, ∃ part,
    t.plan restriction.predicate restriction.locale restriction.invert = .ok part
  mem : ∀ requirement, requirement ∈ plan ↔ ∃ restriction ∈ restrictions, ∃ part,
    t.plan restriction.predicate restriction.locale restriction.invert = .ok part ∧
      requirement ∈ part

theorem plansFor_nil : t.PlansFor [] [] where
  planned := List.forall_mem_nil _
  mem requirement := by simp

theorem PlansFor.append {done : List Restriction} {restriction : Restriction}
    {plan part : List JoinRequirement} (h : t.PlansFor done plan)
    (hpart : t.plan restriction.predicate restriction.locale restriction.invert = .ok part) :
    t.PlansFor (done ++ [restriction]) (plan ++ part) where
  planned := List.forall_mem_append.mpr
    ⟨h.planned, List.forall_mem_singleton.mpr ⟨part, hpart⟩⟩
  mem requirement := by
    rw [List.mem_append, h.mem requirement]
    constructor
    · rintro (⟨earlier, hearlier, found⟩ | hmem)
      · exact ⟨earlier, List.mem_append_left _ hearlier, found⟩
      · exact ⟨restriction, List.mem_append_right _ (List.mem_singleton_self _), part, hpart, hmem⟩
    · rintro ⟨chosen, hchosen, found, hfound, hmem⟩
      rcases List.mem_append.mp hchosen with hearlier | hlast
      · exact .inl ⟨chosen, hearlier, found, hfound, hmem⟩
      · rw [List.mem_singleton.mp hlast, hpart, Except.ok.injEq] at hfound
        exact .inr (hfound ▸ hmem)

/-- **A run of restrictions makes the joins of one plan.** -/
theorem exists_plan_of_restrictBy (h : t.restrictBy q restrictions = .ok q') :
    q'.source = q.source ∧
      ∃ plan, t.PlansFor restrictions plan ∧ q'.joins = (q.applyPlan plan).joins := by
  have hstart : q.source = q.source ∧
      ∃ plan, t.PlansFor [] plan ∧ q.joins = (q.applyPlan plan).joins :=
    ⟨rfl, [], plansFor_nil, rfl⟩
  refine foldlM_invariant (P := fun done q' => q'.source = q.source ∧
    ∃ plan, t.PlansFor done plan ∧ q'.joins = (q.applyPlan plan).joins) ?_ hstart h
  rintro done restriction - acc acc' ⟨hsource, plan, hplan, hjoins⟩ hstep
  obtain ⟨part, hpart, rfl⟩ := whereClause_eq_ok.mp hstep
  refine ⟨Query.source_applyPlan.trans hsource, plan ++ part, hplan.append hpart, ?_⟩
  have hcongr := Query.joins_applyPlan_congr hjoins part
  rw [Query.applyPlan_append]
  exact hcongr

/-- **All records, restricted one time after the other, are a well scoped query.** -/
theorem wellScoped_restrictBy (ht : t.Attached)
    (h : t.restrictBy t.model.baseQuery restrictions = .ok q') : q'.WellScoped := by
  obtain ⟨hsource, plan, hplan, hjoins⟩ := exists_plan_of_restrictBy h
  have hscoped : (t.model.baseQuery.applyPlan plan).WellScoped := by
    refine Query.wellScoped_applyPlan (by simp [Model.baseQuery]) fun requirement hmem => ?_
    obtain ⟨restriction, -, part, hpart, hrequirement⟩ := (hplan.mem requirement).mp hmem
    obtain ⟨b, hb, attributeName, kind, -, rfl⟩ := (mem_plan hpart).mp hrequirement
    intro name hname
    refine (b.tables_target attributeName restriction.locale name hname).imp_right fun hmodel => ?_
    rw [hmodel, ht.compatible.bound b hb]
    simp [Query.sourceNames, Model.baseQuery, TableRef.referenceName]
  rw [Query.WellScoped, Query.sourceNames, hsource, hjoins]
  rwa [Query.WellScoped, Query.sourceNames_applyPlan] at hscoped

end LocalizedModel

end LocalizedQuery
