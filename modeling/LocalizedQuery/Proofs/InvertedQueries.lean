import LocalizedQuery.Proofs.Evaluation.Matching
import LocalizedQuery.Proofs.Inversion
import LocalizedQuery.Proofs.OuterJoins

/-!
# What inverted queries select

Inverted, a query asks for the records that fail a predicate. The predicate is negated at its
outermost node, and all joins that it needs are inner, since where a row is missing nothing is known
to fail. So the query has the joined rows in which every mentioned join has found its row and the
predicate fails, not those in which it is unknown (`LocalizedModel.rows_inverted`).

The predicate and its inversion do not exclude each other record by record: a record may have one
row for which the predicate holds and another for which it fails. They do if each join finds one row
at most.

## Main results

* `LocalizedModel.plan_true` — what an inverted predicate needs is the same, and all of it inner
* `LocalizedModel.perm_mentioned` — a plan joins each mentioned target once
* `LocalizedModel.rows_inverted` — the rows of an inverted query
-/

namespace LocalizedQuery

variable {α : Type}

/-! ## Joins need their rows -/

/-- An equality with a column of a table needs the row of the table. -/
theorem Expr.needsRow_equals {joined column : String} {e : Expr} (he : e.isNullLiteral = false) :
    ((Expr.qualified joined column).equals e).NeedsRow joined := by
  intro α I row hmissing
  have hvalue : (Expr.qualified joined column).value I row = none := by
    rw [Expr.qualified, Expr.value, Option.getD_some, hmissing]
    rfl
  have hunknown : ((Expr.qualified joined column).equals e).truth I row = .unknown := by
    rw [Expr.equals, Expr.truth, Expr.value, hvalue, he]
    exact I.truth_ofTruth .unknown
  rw [hunknown]
  exact Truth.noConfusion

theorem Expr.NeedsRow.both {joined : String} {left : Expr} (h : left.NeedsRow joined)
    (right : Expr) : (left.both right).NeedsRow joined := by
  intro α I row hmissing hholds
  rw [Expr.both, Expr.truth_and, Truth.conj_eq_holds] at hholds
  exact h I row hmissing hholds.1

/-- What a backend joins never accepts the missing record, since it asks for the owner of a row. -/
theorem Backend.needsRow_target (b : Backend) (name : String) (locale : Locale) :
    (b.target name locale).on.NeedsRow (b.target name locale).aliasName := by
  cases b with
  | keyValue b => exact (((Expr.needsRow_equals rfl).both _).both _).both _
  | table b => exact (Expr.needsRow_equals rfl).both _

namespace LocalizedModel

variable {t : LocalizedModel} {locale : Locale} {predicate : Expr} {plan : List JoinRequirement}
  {invert : Bool}

theorem needsRow_of_mem_targets {target : JoinTarget} (h : target ∈ t.targets locale) :
    target.on.NeedsRow target.aliasName := by
  obtain ⟨b, -, htarget⟩ := List.mem_flatMap.mp h
  obtain ⟨name, rfl⟩ := Backend.exists_name_of_mem_targets htarget
  exact b.needsRow_target name locale

/-! ## Plans -/

/-- **What an inverted predicate needs** is what the predicate needs, and all of it inner. -/
theorem plan_true (t : LocalizedModel) (predicate : Expr) (locale : Locale) :
    t.plan predicate locale true
      = (t.plan predicate locale false).map (List.map JoinRequirement.innered) := by
  have hparts : t.planByBackend predicate locale true
      = (t.planByBackend predicate locale false).map
          (List.map fun part => (part.1, part.2.map JoinRequirement.innered)) := by
    refine mapM_map_result (fun b => ?_) t.backends
    rw [b.planJoins_true]
    cases b.planJoins predicate locale false <;> rfl
  rw [plan, plan, hparts]
  cases t.planByBackend predicate locale false with
  | error e => rfl
  | ok parts => simp [Except.map, List.map_flatMap, List.flatMap_map]

/-- A plan joins each target once. -/
theorem nodup_targets_plan (ht : t.Attached) (hnodup : (t.targets locale).Nodup)
    (hpredicate : t.Localizes locale predicate)
    (h : t.plan predicate locale invert = .ok plan) :
    (plan.map JoinRequirement.target).Nodup := by
  obtain ⟨parts, hparts, rfl⟩ := map_eq_ok.mp h
  have hbackends : parts.map Prod.fst = t.backends := by
    refine map_of_mapM_eq_ok (fun b part hpart => ?_) hparts
    obtain ⟨_, -, heq⟩ := bind_eq_ok.mp hpart
    rw [← pure_eq_ok.mp heq]
  have hpart : ∀ part ∈ parts, part.1 ∈ t.backends ∧
      part.1.planJoins predicate locale invert = .ok part.2 := by
    intro part hmem
    obtain ⟨b, hb, hstep⟩ := (mem_of_mapM_eq_ok hparts).mp hmem
    obtain ⟨_, hplan, heq⟩ := bind_eq_ok.mp hstep
    rw [← pure_eq_ok.mp heq]
    exact ⟨hb, hplan⟩
  rw [List.map_flatMap, List.nodup_flatMap]
  refine ⟨fun part hmem => Backend.nodup_targets_planJoins (hpart part hmem).2, ?_⟩
  -- Different backends plan different joins, since they have no target in common.
  have hdisjoint := (List.nodup_flatMap.mp hnodup).2
  rw [← hbackends, List.pairwise_map] at hdisjoint
  refine hdisjoint.imp_of_mem fun {part other} hmem hother hapart => ?_
  have hsubset : ∀ part ∈ parts, part.2.map JoinRequirement.target ⊆ part.1.targets locale := by
    intro part hmem target htarget
    obtain ⟨requirement, hrequirement, rfl⟩ := List.mem_map.mp htarget
    obtain ⟨hb, hplan⟩ := hpart part hmem
    obtain ⟨name, hkeeps, -, htarget⟩ :=
      reference_of_mem_planJoins ht hpredicate hb hplan hrequirement
    rw [htarget]
    exact Backend.target_mem_targets hkeeps
  exact List.disjoint_of_subset_left (hsubset part hmem)
    (List.disjoint_of_subset_right (hsubset other hother) hapart)

/-- **A plan joins each mentioned target once.** -/
theorem perm_mentioned (ht : t.Attached)
    (hnodup : ((t.targets locale).map JoinTarget.aliasName).Nodup)
    (hpredicate : t.Localizes locale predicate)
    (h : t.plan predicate locale invert = .ok plan) :
    (plan.map JoinRequirement.target).Perm (t.mentioned [predicate] locale) := by
  have htargets : (t.targets locale).Nodup := hnodup.of_map _
  refine (List.perm_ext_iff_of_nodup (nodup_targets_plan ht htargets hpredicate h)
    (htargets.filter _)).mpr fun target => ?_
  rw [List.mem_map]
  refine Iff.trans ?_ mem_mentioned.symm
  constructor
  · rintro ⟨requirement, hmem, rfl⟩
    have hmentioned := (aliases_plan ht hpredicate h).mp ⟨requirement, hmem, rfl⟩
    exact ⟨target_mem_targets_of_mem_plan ht hpredicate h hmem, predicate,
      List.mem_singleton_self _, hmentioned⟩
  · rintro ⟨htarget, _, hsame, href⟩
    rw [List.mem_singleton.mp hsame] at href
    obtain ⟨requirement, hmem, halias⟩ := (aliases_plan ht hpredicate h).mpr href
    exact ⟨requirement, hmem, List.inj_on_of_nodup_map hnodup
      (target_mem_targets_of_mem_plan ht hpredicate h hmem) htarget halias⟩

theorem nodup_aliases_plan (ht : t.Attached)
    (hnodup : ((t.targets locale).map JoinTarget.aliasName).Nodup)
    (hpredicate : t.Localizes locale predicate)
    (h : t.plan predicate locale invert = .ok plan) :
    (plan.map fun r => r.target.aliasName).Nodup := by
  have hperm := (perm_mentioned ht hnodup hpredicate h).map JoinTarget.aliasName
  rw [List.map_map] at hperm
  exact hperm.nodup_iff.mpr (hnodup.sublist (List.filter_sublist.map _))

/-! ## Inverted queries -/

/-- The query for all records with some targets joined outer. -/
def outerJoined (t : LocalizedModel) (targets : List JoinTarget) : Query :=
  { t.model.baseQuery with joins := targets.map (·.join .outer) }

theorem source_outerJoined (t : LocalizedModel) (targets : List JoinTarget) :
    (t.outerJoined targets).source = t.model.baseQuery.source := rfl

theorem joins_outerJoined (t : LocalizedModel) (targets : List JoinTarget) :
    (t.outerJoined targets).joins = targets.map (·.join .outer) := rfl

/-- Each of some targets has found its row. -/
def Matched (targets : List JoinTarget) (row : Row α) : Prop :=
  ∀ target ∈ targets, row target.aliasName ≠ Record.missing

variable {q q' : Query}

/-- A query for all records is restricted to those for which the predicate has one truth value. -/
theorem keeps_whereClause
    (h : t.whereClause t.model.baseQuery predicate locale invert = .ok q) (I : Interpretation α)
    (row : Row α) :
    q.keeps I row ↔ predicate.truth I row = if invert then .fails else .holds := by
  obtain ⟨plan, -, rfl⟩ := whereClause_eq_ok.mp h
  have hbase : (t.model.baseQuery.applyPlan plan).keeps I row := by
    simp [Query.keeps, Model.baseQuery]
  rw [Query.filterBy, Query.keeps_filter, and_iff_right hbase]
  cases invert with
  | true => simp [Expr.truth_inverted]
  | false => simp

theorem source_whereClause (h : t.whereClause q predicate locale invert = .ok q') :
    q'.source = q.source := by
  obtain ⟨plan, -, rfl⟩ := whereClause_eq_ok.mp h
  exact Query.source_applyPlan

/-- The joins of a query for all records are those of the plan. -/
theorem joins_whereClause (ht : t.Attached)
    (hnodup : ((t.targets locale).map JoinTarget.aliasName).Nodup)
    (hpredicate : t.Localizes locale predicate) (hplan : t.plan predicate locale invert = .ok plan)
    (h : t.whereClause t.model.baseQuery predicate locale invert = .ok q) :
    q.joins = plan.map fun r => r.target.join r.kind := by
  obtain ⟨plan', hplan', rfl⟩ := whereClause_eq_ok.mp h
  rw [Except.ok.inj (hplan'.symm.trans hplan)]
  exact Query.joins_applyPlan_of_new (nodup_aliases_plan ht hnodup hpredicate hplan)
    fun _ _ => List.not_mem_nil

/-- All joined rows, since no condition is asked for. -/
theorem rows_outerJoined (t : LocalizedModel) (targets : List JoinTarget) (I : Interpretation α)
    (db : Database α) :
    (t.outerJoined targets).rows I db = ((t.outerJoined targets).sourceRows db).bind
      (Join.extendAll I db (t.outerJoined targets).joins) := by
  refine Multiset.filter_eq_self.mpr fun row _ => ?_
  intro condition hcondition
  exact absurd hcondition (Option.not_mem_none _)

section

variable (ht : t.Attached) (hnodup : ((t.targets locale).map JoinTarget.aliasName).Nodup)
  (hpredicate : t.Localizes locale predicate) (hplan : t.plan predicate locale false = .ok plan)
  (hq : t.whereClause t.model.baseQuery predicate locale false = .ok q)
  (hq' : t.whereClause t.model.baseQuery predicate locale true = .ok q')

include ht hnodup hpredicate hplan

/-- The joins of an inverted query are those of the plan, made inner. -/
theorem joins_inverted (hq' : t.whereClause t.model.baseQuery predicate locale true = .ok q') :
    q'.joins = plan.map fun r => r.target.join .inner := by
  have hplan' : t.plan predicate locale true = .ok (plan.map JoinRequirement.innered) := by
    rw [plan_true, hplan]
    rfl
  rw [joins_whereClause ht hnodup hpredicate hplan' hq', List.map_map]
  rfl

include hq'

open Classical in
/-- The rows of an inverted query, with the targets in the order of the plan. -/
theorem rows_of_inverted (I : Interpretation α) (db : Database α) :
    q'.rows I db = ((t.outerJoined (plan.map JoinRequirement.target)).rows I db).filter fun row =>
      Matched (plan.map JoinRequirement.target) row ∧ predicate.truth I row = .fails := by
  have hsource : q'.source = (t.outerJoined (plan.map JoinRequirement.target)).source := by
    rw [source_outerJoined, source_whereClause hq']
  have hjoins : q'.joins
      = (t.outerJoined (plan.map JoinRequirement.target)).joins.map Join.innered := by
    rw [joins_inverted ht hnodup hpredicate hplan hq', joins_outerJoined, List.map_map,
      List.map_map]
    rfl
  have hneeds : ∀ join ∈ (t.outerJoined (plan.map JoinRequirement.target)).joins,
      join.on.NeedsRow join.target := by
    rw [joins_outerJoined, List.map_map]
    refine List.forall_mem_map.mpr fun r hmem => ?_
    exact needsRow_of_mem_targets (target_mem_targets_of_mem_plan ht hpredicate hplan hmem)
  have hapart : ((t.outerJoined (plan.map JoinRequirement.target)).joins.map
      Join.target).Nodup := by
    rw [joins_outerJoined, List.map_map, List.map_map]
    exact nodup_aliases_plan ht hnodup hpredicate hplan
  rw [Query.rows_innered hsource hjoins hneeds hapart, rows_outerJoined]
  refine Multiset.filter_congr fun row _ => and_congr ?_ (keeps_whereClause hq' I row)
  simp [Matched, joins_outerJoined]

include hq

/-- The plain query and the inverted one have the same joins, and their conditions exclude each
other. -/
theorem not_selects_both_of_inverted (I : Interpretation α) (db : Database α) {record : Record α}
    (hone : Join.MatchesAtMostOne I db q.joins (.single t.model.table record)) :
    ¬(q.Selects I db record ∧ q'.Selects I db record) := by
  have hsource : q.source = t.model.baseQuery.source := source_whereClause hq
  have hsource' : q'.source = t.model.baseQuery.source := source_whereClause hq'
  have hjoins : q'.joins = q.joins.map Join.innered := by
    rw [joins_inverted ht hnodup hpredicate hplan hq',
      joins_whereClause ht hnodup hpredicate hplan hq, List.map_map]
    rfl
  refine Query.not_selects_both hsource (hsource'.trans hsource.symm) hjoins ?_ hone
  intro row hkeeps hkeeps'
  have hholds := (keeps_whereClause hq I row).mp hkeeps
  have hfails := (keeps_whereClause hq' I row).mp hkeeps'
  rw [hholds] at hfails
  exact Truth.noConfusion hfails

omit hq'

/-- Where no join takes the name of the model, each matches by itself. -/
theorem matchesAtMostOne_of_targets (I : Interpretation α) (db : Database α)
    (hbase : t.model.table ∉ (t.targets locale).map JoinTarget.aliasName) {row : Row α}
    (hone : ∀ target ∈ plan.map JoinRequirement.target,
      ((target.join .outer).matching I db row).card ≤ 1) :
    Join.MatchesAtMostOne I db q.joins row := by
  have htargets : ∀ r ∈ plan, r.target ∈ t.targets locale := fun _ hmem =>
    target_mem_targets_of_mem_plan ht hpredicate hplan hmem
  have hlocal : ∀ join ∈ plan.map (fun r => r.target.join r.kind), join.Local t.model.table :=
    List.forall_mem_map.mpr fun r hmem => local_of_mem_targets ht (htargets r hmem) r.kind
  rw [joins_whereClause ht hnodup hpredicate hplan hq]
  refine Join.matchesAtMostOne_of_local hlocal ?_ ?_
  · rw [List.map_map]
    intro hmem
    obtain ⟨r, hr, hname⟩ := List.mem_map.mp hmem
    exact hbase (List.mem_map.mpr ⟨r.target, htargets r hr, hname⟩)
  · exact List.forall_mem_map.mpr fun r hmem => hone r.target (List.mem_map_of_mem hmem)

end

open Classical in
/-- **The rows of an inverted query.** They are the joined rows in which every mentioned target has
found its row and the predicate fails. The plain query and the inverted one select no record in
common, if each join matches one record at most; local joins do, if each does by itself. -/
theorem rows_inverted (ht : t.Attached)
    (hnodup : ((t.targets locale).map JoinTarget.aliasName).Nodup)
    (hpredicate : t.Localizes locale predicate)
    (hplan : t.plan predicate locale true = .ok plan) :
    ∃ targets q q', targets.Perm (t.mentioned [predicate] locale) ∧
      t.whereClause t.model.baseQuery predicate locale false = .ok q ∧
      t.whereClause t.model.baseQuery predicate locale true = .ok q' ∧
      ∀ {α : Type} (I : Interpretation α) (db : Database α),
        q'.rows I db = ((t.outerJoined targets).rows I db).filter (fun row =>
          Matched targets row ∧ predicate.truth I row = .fails) ∧
        (∀ record, Join.MatchesAtMostOne I db q.joins (.single t.model.table record) →
          ¬(q.Selects I db record ∧ q'.Selects I db record)) ∧
        (t.model.table ∉ (t.targets locale).map JoinTarget.aliasName → ∀ record,
          (∀ target ∈ targets,
            ((target.join .outer).matching I db (.single t.model.table record)).card ≤ 1) →
          Join.MatchesAtMostOne I db q.joins (.single t.model.table record)) := by
  have hinverted := hplan
  rw [plan_true] at hinverted
  obtain ⟨plain, hplain, -⟩ := map_eq_ok.mp hinverted
  obtain ⟨q, hq⟩ : ∃ q, t.whereClause t.model.baseQuery predicate locale false = .ok q :=
    ⟨_, whereClause_eq_ok.mpr ⟨plain, hplain, rfl⟩⟩
  obtain ⟨q', hq'⟩ : ∃ q', t.whereClause t.model.baseQuery predicate locale true = .ok q' :=
    ⟨_, whereClause_eq_ok.mpr ⟨plan, hplan, rfl⟩⟩
  refine ⟨plain.map JoinRequirement.target, q, q', perm_mentioned ht hnodup hpredicate hplain, hq,
    hq', fun {α} I db => ⟨?_, fun record hone => ?_, fun hbase record hone => ?_⟩⟩
  · exact rows_of_inverted ht hnodup hpredicate hplain hq' I db
  · exact not_selects_both_of_inverted ht hnodup hpredicate hplain hq hq' I db hone
  · exact matchesAtMostOne_of_targets ht hnodup hpredicate hplain hq I db hbase hone

/-- The title is `x`, or there is no subtitle. -/
def titledOrBare : Expr :=
  .binary .or (postTitle.equals (.text "x")) (.isNull postSubtitle false)

open Classical in
/-- The inversion asks for posts with another title and a subtitle. -/
theorem rows_not_titledOrBare :
    ∃ targets q q', targets.Perm (posts.mentioned [titledOrBare] ⟨"en"⟩) ∧
      posts.whereClause posts.model.baseQuery titledOrBare ⟨"en"⟩ false = .ok q ∧
      posts.whereClause posts.model.baseQuery titledOrBare ⟨"en"⟩ true = .ok q' ∧
      ∀ {α : Type} (I : Interpretation α) (db : Database α),
        q'.rows I db = ((posts.outerJoined targets).rows I db).filter (fun row =>
          Matched targets row ∧ titledOrBare.truth I row = .fails) ∧
        ∀ record, (∀ target ∈ targets,
            ((target.join .outer).matching I db (.single "posts" record)).card ≤ 1) →
          ¬(q.Selects I db record ∧ q'.Selects I db record) := by
  have hlocalizes : posts.Localizes ⟨"en"⟩ titledOrBare := by
    refine List.forall_mem_append.mpr ⟨?_, localizes_postSubtitle⟩
    exact List.forall_mem_append.mpr ⟨localizes_postTitle, List.forall_mem_nil _⟩
  have hexposes : ∀ b ∈ posts.backends, titledOrBare.Exposes (Reference.belongsTo b.id ⟨"en"⟩) := by
    intro b _
    simp [Expr.Exposes, Expr.outermostCases, titledOrBare, postTitle, postSubtitle, Expr.equals,
      Expr.text]
  obtain ⟨plan, hplan⟩ := plan_ok hexposes true
  obtain ⟨targets, q, q', hperm, hq, hq', hrows⟩ :=
    rows_inverted attached_posts aliasesApart_posts.nodup hlocalizes hplan
  refine ⟨targets, q, q', hperm, hq, hq', fun I db => ⟨(hrows I db).1, fun record hone => ?_⟩⟩
  exact (hrows I db).2.1 record ((hrows I db).2.2 aliasesApart_posts.base record hone)

end LocalizedModel

end LocalizedQuery
