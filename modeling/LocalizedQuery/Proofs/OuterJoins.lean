import LocalizedQuery.Proofs.Evaluation.Rows
import LocalizedQuery.Proofs.Inference.Strictness
import LocalizedQuery.Proofs.JoinPlan
import LocalizedQuery.Proofs.LocalizedModel

/-!
# Inference loses no record and adds none

A query may be restricted by one predicate after the other; joins that serve already are kept, and
those that are too weak are replaced. The simplest query with the same meaning joins every mentioned
target outer, once, and asks for all predicates (`LocalizedModel.outerQuery`). For positive
predicates the two have the same rows.

The invariant of such a run is `LocalizedModel.Serves`: the targets of the joins are those that the
predicates so far mention, and each inner join has a predicate that needs its row.

## Main results

* `LocalizedModel.Serves.restrict` — what one more predicate preserves
* `LocalizedModel.serves_restrictAll` — what holds after all of them
* `LocalizedModel.rows_restrictAll` — the rows are those of the outer query
-/

namespace LocalizedQuery

variable {α : Type}

/-! ## Joins look at the model and at themselves -/

/-- What a backend joins looks only at the records of the model and at its own. -/
theorem Backend.local_target (b : Backend) (name : String) (locale : Locale) (kind : JoinKind) :
    ((b.target name locale).join kind).Local b.model.table := by
  intro α I row table record hbase htarget
  cases b with
  | keyValue b =>
    have hself : b.aliasName name locale ≠ table := Ne.symm htarget
    have hmodel : b.model.table ≠ table := Ne.symm hbase
    simp [JoinTarget.join, target, KeyValueBackend.joinTarget, Expr.both, Expr.equals,
      Expr.qualified, Expr.text, Expr.truth, Expr.value, hself, hmodel]
  | table b =>
    have hself : b.aliasName locale ≠ table := Ne.symm htarget
    have hmodel : b.model.table ≠ table := Ne.symm hbase
    simp [JoinTarget.join, target, TableBackend.joinTarget, Expr.both, Expr.equals, Expr.qualified,
      Expr.text, Expr.truth, Expr.value, hself, hmodel]

theorem Backend.exists_name_of_mem_targets {b : Backend} {locale : Locale} {target : JoinTarget}
    (h : target ∈ b.targets locale) : ∃ name, target = b.target name locale := by
  cases b with
  | keyValue b =>
    obtain ⟨name, -, rfl⟩ := List.mem_map.mp h
    exact ⟨name, rfl⟩
  | table b => exact ⟨"", List.mem_singleton.mp h⟩

namespace LocalizedModel

variable {t : LocalizedModel} {locale : Locale} {predicate : Expr} {predicates : List Expr}

/-! ## Targets -/

/-- All joins that may serve attributes of the model in a locale. -/
def targets (t : LocalizedModel) (locale : Locale) : List JoinTarget :=
  t.backends.flatMap fun b => b.targets locale

/-- The joins of a locale have different aliases, none of them the table of the model. -/
structure AliasesApart (t : LocalizedModel) (locale : Locale) : Prop where
  nodup : ((t.targets locale).map JoinTarget.aliasName).Nodup
  base : t.model.table ∉ (t.targets locale).map JoinTarget.aliasName

/-- The joins that predicates mention. -/
def mentioned (t : LocalizedModel) (predicates : List Expr) (locale : Locale) : List JoinTarget :=
  (t.targets locale).filter fun target =>
    predicates.any fun predicate =>
      predicate.references.any fun ref => ref.table == target.aliasName

theorem mem_mentioned {target : JoinTarget} :
    target ∈ t.mentioned predicates locale ↔ target ∈ t.targets locale ∧
      ∃ predicate ∈ predicates, ∃ ref ∈ predicate.references, ref.table = target.aliasName := by
  simp [mentioned]

theorem local_of_mem_targets (ht : t.Attached) {target : JoinTarget}
    (h : target ∈ t.targets locale) (kind : JoinKind) : (target.join kind).Local t.model.table := by
  obtain ⟨b, hb, htarget⟩ := List.mem_flatMap.mp h
  obtain ⟨name, rfl⟩ := Backend.exists_name_of_mem_targets htarget
  rw [← ht.compatible.bound b hb]
  exact b.local_target name locale kind

/-! ## Queries -/

/-- The query that joins every mentioned target outer and asks for all predicates. -/
def outerQuery (t : LocalizedModel) (predicates : List Expr) (locale : Locale) : Query :=
  predicates.foldl Query.filter
    { t.model.baseQuery with joins := (t.mentioned predicates locale).map (·.join .outer) }

/-- Restricts a query by one predicate after the other. -/
def restrictAll (t : LocalizedModel) (q : Query) (predicates : List Expr) (locale : Locale) :
    Except InferenceError Query :=
  predicates.foldlM (fun q predicate => t.whereClause q predicate locale false) q

theorem source_foldl_filter (q : Query) : (predicates.foldl Query.filter q).source = q.source := by
  induction predicates generalizing q with
  | nil => rfl
  | cons predicate rest ih => exact ih _

theorem joins_foldl_filter (q : Query) : (predicates.foldl Query.filter q).joins = q.joins := by
  induction predicates generalizing q with
  | nil => rfl
  | cons predicate rest ih => exact ih _

@[simp] theorem source_outerQuery :
    (t.outerQuery predicates locale).source = t.model.baseQuery.source :=
  source_foldl_filter _

@[simp] theorem joins_outerQuery :
    (t.outerQuery predicates locale).joins = (t.mentioned predicates locale).map (·.join .outer) :=
  joins_foldl_filter _

/-! ## Plans -/

/-- What a plan joins is one of the joins of the locale. -/
theorem target_mem_targets_of_mem_plan (ht : t.Attached)
    (hpredicate : t.Localizes locale predicate) {plan : List JoinRequirement} {invert : Bool}
    (hplan : t.plan predicate locale invert = .ok plan) {requirement : JoinRequirement}
    (hmem : requirement ∈ plan) : requirement.target ∈ t.targets locale := by
  obtain ⟨b, hb, name, hkeeps, -, htarget⟩ :=
    (mem_targets_plan ht hpredicate hplan).mp ⟨requirement, hmem, rfl⟩
  rw [htarget]
  exact List.mem_flatMap.mpr ⟨b, hb, Backend.target_mem_targets hkeeps⟩

/-- An inner join of a positive predicate has its row, where the predicate holds. -/
theorem needsRow_of_mem_plan (ht : t.Attached) (hpositive : predicate.Positive)
    (hpredicate : t.Localizes locale predicate) {plan : List JoinRequirement}
    (hplan : t.plan predicate locale false = .ok plan) {requirement : JoinRequirement}
    (hmem : requirement ∈ plan) (hkind : requirement.kind = .inner) :
    predicate.NeedsRow requirement.target.aliasName := by
  obtain ⟨b, hb, name, kind, hamong, rfl⟩ := (mem_plan hplan).mp hmem
  have hinner : kind = .inner := hkind
  rw [hinner] at hamong
  exact Expr.needsRow_of_outlook (hpositive.holds_not_mem_outlook
    (fun ref href hshares => table_of_shares ht hpredicate hb href hshares) hamong)

/-! ## One predicate after the other -/

/-- What holds of a query that was restricted by the predicates `done`. -/
structure Serves (t : LocalizedModel) (locale : Locale) (done : List Expr) (q : Query) : Prop where
  source : q.source = t.model.baseQuery.source
  keeps : ∀ ⦃α : Type⦄ (I : Interpretation α) (row : Row α),
    q.keeps I row ↔ ∀ predicate ∈ done, predicate.truth I row = .holds
  nodup : (q.joins.map Join.target).Nodup
  /-- What is joined is what the predicates mention. -/
  mentions : ∀ name, name ∈ q.joins.map Join.target ↔
    ∃ predicate ∈ done, ∃ ref ∈ predicate.references, ref.table = name
  joins : ∀ join ∈ q.joins, ∃ target ∈ t.targets locale, ∃ kind, join = target.join kind
  /-- Each inner join has a predicate that needs its row. -/
  needed : ∀ join ∈ q.joins, join.kind = .inner →
    ∃ predicate ∈ done, predicate.NeedsRow join.target

theorem serves_baseQuery : t.Serves locale [] t.model.baseQuery where
  source := rfl
  keeps I row := by simp [Query.keeps, Model.baseQuery]
  nodup := List.nodup_nil
  mentions name := by simp [Model.baseQuery]
  joins := List.forall_mem_nil _
  needed := List.forall_mem_nil _

/-- **What one more predicate preserves.** -/
theorem Serves.restrict (ht : t.Attached) {done : List Expr} {q q' : Query}
    (h : t.Serves locale done q) (hpositive : predicate.Positive)
    (hpredicate : t.Localizes locale predicate)
    (hq' : t.whereClause q predicate locale false = .ok q') :
    t.Serves locale (done ++ [predicate]) q' := by
  obtain ⟨plan, hplan, rfl⟩ := whereClause_eq_ok.mp hq'
  exact {
    source := Query.source_applyPlan.trans h.source
    keeps := by
      intro α I row
      have hold : (q.applyPlan plan).keeps I row ↔ q.keeps I row := by
        simp [Query.keeps]
      rw [Query.filterBy, if_neg Bool.false_ne_true, Query.keeps_filter, hold, h.keeps,
        List.forall_mem_append, List.forall_mem_singleton]
    nodup := Query.nodup_applyPlan h.nodup
    mentions := by
      intro name
      refine Query.target_mem_applyPlan.trans ?_
      rw [h.mentions, aliases_plan ht hpredicate hplan]
      simp [or_and_right, exists_or]
    joins := by
      intro join hjoin
      rcases Query.mem_joins_applyPlan hjoin with hold | ⟨requirement, hmem, rfl⟩
      · exact h.joins join hold
      · exact ⟨_, target_mem_targets_of_mem_plan ht hpredicate hplan hmem, _, rfl⟩
    needed := by
      intro join hjoin hkind
      rcases Query.mem_joins_applyPlan hjoin with hold | ⟨requirement, hmem, rfl⟩
      · obtain ⟨old, hold, hneeds⟩ := h.needed join hold hkind
        exact ⟨old, List.mem_append_left _ hold, hneeds⟩
      · exact ⟨predicate, List.mem_append_right _ (List.mem_singleton_self _),
          needsRow_of_mem_plan ht hpositive hpredicate hplan hmem hkind⟩ }

/-- **What holds after all predicates.** -/
theorem serves_restrictAll (ht : t.Attached)
    (hpredicates : ∀ predicate ∈ predicates, predicate.Positive ∧ t.Localizes locale predicate)
    {q : Query} (h : t.restrictAll t.model.baseQuery predicates locale = .ok q) :
    t.Serves locale predicates q := by
  refine foldlM_invariant (P := fun done q => t.Serves locale done q) ?_ serves_baseQuery h
  intro done predicate hmem q q' hq hstep
  obtain ⟨hpositive, hpredicate⟩ := hpredicates predicate hmem
  exact hq.restrict ht hpositive hpredicate hstep

/-! ## The outer query -/

theorem Serves.local_outered (ht : t.Attached) {q : Query} (h : t.Serves locale predicates q) :
    ∀ join ∈ q.outered.joins, join.Local t.model.table := by
  intro join houtered
  obtain ⟨join, hjoin, rfl⟩ := List.mem_map.mp houtered
  obtain ⟨target, htarget, kind, rfl⟩ := h.joins join hjoin
  exact local_of_mem_targets ht htarget .outer

theorem Serves.base_not_mem (halias : t.AliasesApart locale) {q : Query}
    (h : t.Serves locale predicates q) : t.model.table ∉ q.joins.map Join.target := by
  intro hmem
  obtain ⟨join, hjoin, htarget⟩ := List.mem_map.mp hmem
  obtain ⟨target, hmem, kind, rfl⟩ := h.joins join hjoin
  exact halias.base (List.mem_map.mpr ⟨target, hmem, htarget⟩)

/-- The joins of a run, made outer, are those of the outer query. -/
theorem Serves.perm_outerQuery (halias : t.AliasesApart locale) {q : Query}
    (h : t.Serves locale predicates q) :
    q.outered.joins.Perm (t.outerQuery predicates locale).joins := by
  have hnodup : q.outered.joins.Nodup := by
    refine List.Nodup.of_map Join.target ?_
    rw [Query.targets_outered]
    exact h.nodup
  have hnodup' : (t.outerQuery predicates locale).joins.Nodup := by
    rw [joins_outerQuery]
    refine List.Nodup.of_map Join.target ?_
    rw [List.map_map]
    exact halias.nodup.sublist (List.filter_sublist.map _)
  refine (List.perm_ext_iff_of_nodup hnodup hnodup').mpr fun join => ?_
  rw [joins_outerQuery, List.mem_map, Query.outered, List.mem_map]
  constructor
  · rintro ⟨join, hjoin, rfl⟩
    obtain ⟨target, htarget, kind, rfl⟩ := h.joins join hjoin
    have hmentioned := (h.mentions target.aliasName).mp (List.mem_map_of_mem hjoin)
    exact ⟨target, mem_mentioned.mpr ⟨htarget, hmentioned⟩, rfl⟩
  · rintro ⟨target, hmem, rfl⟩
    obtain ⟨htarget, hmentioned⟩ := mem_mentioned.mp hmem
    obtain ⟨join, hjoin, halone⟩ := List.mem_map.mp ((h.mentions target.aliasName).mpr hmentioned)
    obtain ⟨target', htarget', kind, rfl⟩ := h.joins join hjoin
    have hsame : target' = target := List.inj_on_of_nodup_map halias.nodup htarget' htarget halone
    exact ⟨_, hjoin, by rw [hsame]; rfl⟩

theorem keeps_outerQuery (I : Interpretation α) (row : Row α) :
    (t.outerQuery predicates locale).keeps I row ↔
      ∀ predicate ∈ predicates, predicate.truth I row = .holds := by
  have hfold : ∀ q : Query, (predicates.foldl Query.filter q).keeps I row ↔
      q.keeps I row ∧ ∀ predicate ∈ predicates, predicate.truth I row = .holds := by
    intro q
    induction predicates generalizing q with
    | nil => simp
    | cons predicate rest ih =>
      rw [List.foldl_cons, ih, Query.keeps_filter, List.forall_mem_cons, and_assoc]
  rw [outerQuery, hfold]
  simp [Query.keeps, Model.baseQuery]

/-- A run over positive predicates gives a query. -/
theorem restrictAll_ok (hpredicates : ∀ predicate ∈ predicates, predicate.Positive) (q : Query) :
    ∃ q', t.restrictAll q predicates locale = .ok q' :=
  foldlM_ok (fun predicate hmem q =>
    whereClause_ok (fun _ _ => (hpredicates predicate hmem).logical.exposes _) q false) q

/-- **Inference loses no record and adds none.** The query that comes of positive predicates, one
after the other, has the rows of the query that joins all mentioned targets outer. -/
theorem rows_restrictAll (ht : t.Attached) (halias : t.AliasesApart locale)
    (hpredicates : ∀ predicate ∈ predicates, predicate.Positive ∧ t.Localizes locale predicate) :
    ∃ q, t.restrictAll t.model.baseQuery predicates locale = .ok q ∧
      ∀ {α : Type} (I : Interpretation α) (db : Database α),
        q.rows I db = (t.outerQuery predicates locale).rows I db := by
  obtain ⟨q, hq⟩ := restrictAll_ok (fun predicate hmem => (hpredicates predicate hmem).1)
    t.model.baseQuery
  have hserves := serves_restrictAll ht hpredicates hq
  refine ⟨q, hq, fun {α} I db => ?_⟩
  calc q.rows I db
      = q.outered.rows I db := by
        refine Query.rows_outered hserves.nodup fun join hjoin hkind row hkeeps hmissing => ?_
        obtain ⟨predicate, hmem, hneeds⟩ := hserves.needed join hjoin hkind
        exact hneeds I row hmissing ((hserves.keeps I row).mp hkeeps predicate hmem)
    _ = (t.outerQuery predicates locale).rows I db := by
        have hsource : q.outered.source = (t.outerQuery predicates locale).source :=
          hserves.source.trans source_outerQuery.symm
        have hkeeps : ∀ row, q.outered.keeps I row ↔
            (t.outerQuery predicates locale).keeps I row :=
          fun row => (hserves.keeps I row).trans (keeps_outerQuery I row).symm
        refine Query.rows_perm hsource hkeeps (hserves.perm_outerQuery halias)
          (hserves.local_outered ht) ?_ ?_
        · rw [Query.targets_outered]
          exact hserves.base_not_mem halias
        · rw [Query.targets_outered]
          exact hserves.nodup

theorem aliasesApart_posts : posts.AliasesApart ⟨"en"⟩ where
  nodup := by decide +kernel
  base := by decide +kernel

/-- Posts with a title but for one, and then among them those without a subtitle. -/
theorem rows_titled_posts :
    ∃ q, posts.restrictAll posts.model.baseQuery
        [.binary .ne postTitle (.text "x"), .isNull postSubtitle false] ⟨"en"⟩ = .ok q ∧
      ∀ {α : Type} (I : Interpretation α) (db : Database α), q.rows I db =
        (posts.outerQuery
          [.binary .ne postTitle (.text "x"), .isNull postSubtitle false] ⟨"en"⟩).rows I db := by
  have htitle : postTitle.IsLeaf := .localized _
  have hsubtitle : postSubtitle.IsLeaf := .localized _
  refine rows_restrictAll attached_posts aliasesApart_posts fun predicate hmem => ?_
  simp only [List.mem_cons, List.not_mem_nil, or_false] at hmem
  rcases hmem with rfl | rfl
  · refine ⟨.simple (.comparison (by simp [BinaryOperator.Compares]) htitle (.plain (.literal _))),
      fun ref href => localizes_postTitle ref ?_⟩
    simpa [Expr.references, Expr.text] using href
  · exact ⟨.simple (.isNull false hsubtitle), localizes_postSubtitle⟩

end LocalizedModel

end LocalizedQuery
