import LocalizedQuery.Proofs.Attaching
import LocalizedQuery.Proofs.Backend

/-!
# What a model plans

A model is put together by attaching backends one after the other (`LocalizedModel.Attached`). Two
backends have one identity only if one is a copy of the other, and then the second is refused for
its attributes. Hence the identity of a reference leads to the backend that built it, and the joins
of a plan are those that the references of the predicate name.

## Main results

* `LocalizedModel.Attached.eq_of_id_eq` — backends with one identity are one
* `LocalizedModel.Attached.resolve_eq_some_iff` — what a name stands for
* `LocalizedModel.mem_plan` — the requirements of a plan
* `LocalizedModel.mem_targets_plan` — the targets of a plan are those that the references use
* `LocalizedModel.aliases_plan` — a plan joins what the references of the predicate name
-/

namespace LocalizedQuery

namespace LocalizedModel

variable {t t' : LocalizedModel} {b b' : Backend} {locale : Locale}

/-! ## Attaching -/

/-- A model with backends that were attached one after the other. An identity is given out once, so
what has the identity of another backend is a copy of it and keeps the same attributes. -/
inductive Attached : LocalizedModel → Prop
  | start (model : Model) : Attached { model := model }
  | attach {t t' : LocalizedModel} {b : Backend} : Attached t → t.withBackend b = .ok t' →
      (∀ other ∈ t.backends, other.id = b.id → other.attributeNames = b.attributeNames) →
      Attached t'

namespace Attached

theorem compatible (ht : t.Attached) : Compatible t.model t.backends := by
  induction ht with
  | start model => exact compatible_nil model
  | attach _ hattach _ ih =>
    obtain ⟨hnext, rfl⟩ := ih.withBackend_eq_ok_iff.mp hattach
    exact hnext

theorem nodup_ids (ht : t.Attached) : (t.backends.map Backend.id).Nodup := by
  induction ht with
  | start => exact List.nodup_nil
  | @attach t t' b _ hattach hcopy ih =>
    obtain ⟨-, hnonempty, -, hfree, rfl⟩ := withBackend_eq_ok.mp hattach
    rw [List.map_append, List.map_singleton, List.nodup_append]
    refine ⟨ih, List.nodup_singleton _, ?_⟩
    rintro id hid _ hmem rfl
    rw [List.mem_singleton] at hmem
    obtain ⟨other, hother, hsame⟩ := List.mem_map.mp hid
    -- A copy of an attached backend would bring attributes that are taken.
    obtain ⟨name, hname⟩ := List.exists_mem_of_ne_nil _ hnonempty
    have hkeeps := hfree name hname other hother
    rw [Backend.keeps, hcopy other hother (hsame.trans hmem), List.contains_iff_mem.mpr hname]
      at hkeeps
    exact absurd hkeeps.symm Bool.false_ne_true

/-- **Backends with one identity are one.** -/
theorem eq_of_id_eq (ht : t.Attached) (hb : b ∈ t.backends) (hb' : b' ∈ t.backends)
    (hid : b.id = b'.id) : b = b' :=
  List.inj_on_of_nodup_map ht.nodup_ids hb hb' hid

end Attached

/-! ## Predicates of a model -/

/-- All references of an expression are built by backends of the model in the locale. -/
def Localizes (t : LocalizedModel) (locale : Locale) (e : Expr) : Prop :=
  ∀ ref ∈ e.references, ∃ b ∈ t.backends, ∃ name, b.keeps name = true ∧
    ref = b.reference name locale

/-- The leaf for an attribute is a reference that the backend builds which keeps it. -/
theorem eq_localized_of_attributeNode {name : String} {e : Expr}
    (h : t.attributeNode name locale = .ok e) :
    ∃ b ∈ t.backends, b.keeps name = true ∧ e = .localized (b.reference name locale) := by
  rw [attributeNode] at h
  cases hb : t.backendFor name with
  | none => simp [hb] at h
  | some b =>
    have hmem : b ∈ t.backends := List.mem_of_find?_eq_some hb
    have hkeeps : b.keeps name = true := by
      simpa using List.find?_some hb
    simp only [hb, Backend.buildNode, hkeeps, if_true, Except.ok.injEq] at h
    exact ⟨b, hmem, hkeeps, h.symm⟩

theorem localizes_attributeNode {name : String} {e : Expr}
    (h : t.attributeNode name locale = .ok e) : t.Localizes locale e := by
  obtain ⟨b, hmem, hkeeps, rfl⟩ := eq_localized_of_attributeNode h
  intro ref href
  rw [Expr.references, List.mem_singleton] at href
  exact ⟨b, hmem, name, hkeeps, href⟩

theorem resolve_eq_some {name : String} {e : Expr} :
    t.resolve locale name = some e ↔ t.attributeNode name locale = .ok e := by
  rw [resolve]
  cases t.attributeNode name locale <;> simp [Except.toOption]

theorem resolve_eq_none_iff {name : String} :
    t.resolve locale name = none ↔ ∀ b ∈ t.backends, b.keeps name = false := by
  rw [resolve, attributeNode]
  cases hb : t.backendFor name with
  | none =>
    exact iff_of_true rfl (by simpa [backendFor] using hb)
  | some b =>
    have hkeeps : b.keeps name = true := by
      simpa using List.find?_some hb
    refine iff_of_false (by simp [Backend.buildNode, hkeeps, Except.toOption]) fun hfree => ?_
    rw [hfree b (List.mem_of_find?_eq_some hb)] at hkeeps
    exact Bool.false_ne_true hkeeps

/-- **What a name stands for:** the reference that the backend builds which keeps the attribute. -/
theorem Attached.resolve_eq_some_iff (ht : t.Attached) {name : String} {e : Expr} :
    t.resolve locale name = some e ↔
      ∃ b ∈ t.backends, b.keeps name = true ∧ e = .localized (b.reference name locale) := by
  refine resolve_eq_some.trans ⟨eq_localized_of_attributeNode, ?_⟩
  rintro ⟨b, hb, hkeeps, rfl⟩
  rw [attributeNode, ht.compatible.backendFor_eq_some_iff.mpr ⟨hb, hkeeps⟩]
  exact if_pos hkeeps

/-! ## Plans -/

variable {predicate : Expr} {invert : Bool} {plan : List JoinRequirement}

/-- A plan consists of the plans of the backends. -/
theorem mem_plan_iff_planJoins (h : t.plan predicate locale invert = .ok plan)
    {requirement : JoinRequirement} :
    requirement ∈ plan ↔ ∃ b ∈ t.backends, ∃ part,
      b.planJoins predicate locale invert = .ok part ∧ requirement ∈ part := by
  obtain ⟨parts, hparts, rfl⟩ := map_eq_ok.mp h
  rw [List.mem_flatMap]
  constructor
  · rintro ⟨⟨b, part⟩, hmem, hrequirement⟩
    obtain ⟨b', hb', hpart⟩ := (mem_of_mapM_eq_ok hparts).mp hmem
    obtain ⟨part', hpart', heq⟩ := bind_eq_ok.mp hpart
    rw [pure_eq_ok, Prod.mk.injEq] at heq
    exact ⟨b', hb', part', hpart', heq.2 ▸ hrequirement⟩
  · rintro ⟨b, hb, part, hpart, hrequirement⟩
    exact ⟨(b, part), (mem_of_mapM_eq_ok hparts).mpr ⟨b, hb, bind_eq_ok.mpr ⟨part, hpart, rfl⟩⟩,
      hrequirement⟩

/-- **The requirements of a plan.** -/
theorem mem_plan (h : t.plan predicate locale invert = .ok plan) {requirement : JoinRequirement} :
    requirement ∈ plan ↔ ∃ b ∈ t.backends, ∃ name kind,
      kindAmong (b.shares name locale) predicate.references
        (predicate.optionalReferences b.bare) = some kind ∧
      requirement = ⟨b.served name, b.target name locale, kind.forPredicate invert⟩ := by
  rw [mem_plan_iff_planJoins h]
  constructor
  · rintro ⟨b, hb, part, hpart, hmem⟩
    exact ⟨b, hb, (Backend.mem_planJoins hpart).mp hmem⟩
  · rintro ⟨b, hb, hmem⟩
    obtain ⟨parts, hparts, -⟩ := map_eq_ok.mp h
    obtain ⟨_, hstep⟩ := ok_of_mapM_eq_ok hparts hb
    obtain ⟨part, hpart, -⟩ := bind_eq_ok.mp hstep
    exact ⟨b, hb, part, hpart, (Backend.mem_planJoins hpart).mpr hmem⟩

/-- **What is planned where no reference of the model is hidden.** -/
theorem plan_eq_ok (h : ∀ b ∈ t.backends, predicate.Exposes (Reference.belongsTo b.id locale))
    (invert : Bool) :
    t.plan predicate locale invert
      = .ok (t.backends.flatMap fun b => b.requirements predicate locale invert) := by
  have hparts : t.planByBackend predicate locale invert
      = .ok (t.backends.map fun b => (b, b.requirements predicate locale invert)) :=
    mapM_eq_ok fun b hb => bind_eq_ok.mpr ⟨_, Backend.planJoins_eq_ok (h b hb) invert, rfl⟩
  rw [plan, hparts]
  exact congrArg Except.ok (List.flatMap_map ..)

/-- A plan is found where no reference of the model is hidden. -/
theorem plan_ok (h : ∀ b ∈ t.backends, predicate.Exposes (Reference.belongsTo b.id locale))
    (invert : Bool) : ∃ plan, t.plan predicate locale invert = .ok plan :=
  ⟨_, plan_eq_ok h invert⟩

/-- A restricted query is the plan and then the condition. -/
theorem whereClause_eq_ok {q q' : Query} :
    t.whereClause q predicate locale invert = .ok q' ↔
      ∃ plan, t.plan predicate locale invert = .ok plan ∧
        (q.applyPlan plan).filterBy predicate invert = q' :=
  map_eq_ok

/-- A query is restricted by a predicate in which no reference of the model is hidden. -/
theorem whereClause_ok (h : ∀ b ∈ t.backends, predicate.Exposes (Reference.belongsTo b.id locale))
    (q : Query) (invert : Bool) :
    ∃ q', t.whereClause q predicate locale invert = .ok q' := by
  obtain ⟨plan, hplan⟩ := plan_ok h invert
  exact ⟨_, whereClause_eq_ok.mpr ⟨plan, hplan, rfl⟩⟩

/-- In the predicates of a model, references that share the join of an attribute are built by the
same backend and served by that join. -/
theorem reference_of_shares (ht : t.Attached) (hpredicate : t.Localizes locale predicate)
    (hb : b ∈ t.backends) {name : String} {ref : Reference} (href : ref ∈ predicate.references)
    (hshares : b.shares name locale ref = true) :
    ∃ other, b.keeps other = true ∧ ref = b.reference other locale ∧
      b.target other locale = b.target name locale := by
  obtain ⟨b', hb', other, hkeeps, rfl⟩ := hpredicate ref href
  have hsame : b' = b := ht.eq_of_id_eq hb' hb
    ((Backend.backend_reference b' other locale).symm.trans (Backend.id_eq_of_shares hshares))
  rw [hsame] at hshares hkeeps ⊢
  exact ⟨other, hkeeps, rfl, Backend.target_eq_of_shares hshares⟩

theorem table_of_shares (ht : t.Attached) (hpredicate : t.Localizes locale predicate)
    (hb : b ∈ t.backends) {name : String} {ref : Reference} (href : ref ∈ predicate.references)
    (hshares : b.shares name locale ref = true) :
    ref.table = (b.target name locale).aliasName := by
  obtain ⟨other, -, rfl, htarget⟩ := reference_of_shares ht hpredicate hb href hshares
  rw [← htarget, Backend.aliasName_target]

/-- What is planned for a backend serves a reference of the predicate. -/
theorem reference_of_mem_planJoins (ht : t.Attached) (hpredicate : t.Localizes locale predicate)
    (hb : b ∈ t.backends) (h : b.planJoins predicate locale invert = .ok plan)
    {requirement : JoinRequirement} (hmem : requirement ∈ plan) :
    ∃ name, b.keeps name = true ∧ b.reference name locale ∈ predicate.references ∧
      requirement.target = b.target name locale := by
  obtain ⟨name, kind, hkind, rfl⟩ := (Backend.mem_planJoins h).mp hmem
  obtain ⟨ref, href, hshares⟩ := exists_of_kindAmong_eq_some
    (predicate.optionalReferences_subset b.bare) hkind
  obtain ⟨other, hkeeps, rfl, htarget⟩ := reference_of_shares ht hpredicate hb href hshares
  exact ⟨other, hkeeps, href, htarget.symm⟩

/-- **The targets of a plan are those that the references of the predicate use.** -/
theorem mem_targets_plan (ht : t.Attached) (hpredicate : t.Localizes locale predicate)
    (h : t.plan predicate locale invert = .ok plan) {target : JoinTarget} :
    (∃ requirement ∈ plan, requirement.target = target) ↔
      ∃ b ∈ t.backends, ∃ name, b.keeps name = true ∧
        b.reference name locale ∈ predicate.references ∧ target = b.target name locale := by
  constructor
  · rintro ⟨requirement, hmem, rfl⟩
    obtain ⟨b, hb, part, hpart, hrequirement⟩ := (mem_plan_iff_planJoins h).mp hmem
    exact ⟨b, hb, reference_of_mem_planJoins ht hpredicate hb hpart hrequirement⟩
  · rintro ⟨b, hb, name, -, href, rfl⟩
    have hsome := kindAmong_isSome (p := b.shares name locale)
      (predicate.optionalReferences_subset b.bare)
    rw [List.any_eq_true.mpr ⟨_, href, b.shares_reference name locale⟩] at hsome
    obtain ⟨kind, hkind⟩ := Option.isSome_iff_exists.mp hsome
    exact ⟨_, (mem_plan h).mpr ⟨b, hb, name, kind, hkind, rfl⟩, rfl⟩

/-- **A plan joins what the references of the predicate name.** -/
theorem aliases_plan (ht : t.Attached) (hpredicate : t.Localizes locale predicate)
    (h : t.plan predicate locale invert = .ok plan) {joined : String} :
    (∃ requirement ∈ plan, requirement.target.aliasName = joined) ↔
      ∃ ref ∈ predicate.references, ref.table = joined := by
  constructor
  · rintro ⟨requirement, hmem, rfl⟩
    obtain ⟨b, -, name, -, href, htarget⟩ :=
      (mem_targets_plan ht hpredicate h).mp ⟨requirement, hmem, rfl⟩
    exact ⟨_, href, by rw [htarget, Backend.aliasName_target]⟩
  · rintro ⟨ref, href, rfl⟩
    obtain ⟨b, hb, name, hkeeps, rfl⟩ := hpredicate ref href
    obtain ⟨requirement, hmem, htarget⟩ :=
      (mem_targets_plan ht hpredicate h).mpr ⟨b, hb, name, hkeeps, href, rfl⟩
    exact ⟨requirement, hmem, by rw [htarget, Backend.aliasName_target]⟩

/-! ## Posts

A small model for what has to be shown at a concrete place: a title and a subtitle in a key-value
table, a body in a table of its own. -/

/-- The backend of titles and subtitles. -/
def postTitles : KeyValueBackend where
  id := ⟨1⟩
  model := { table := "posts", primaryKey := "id", typeName := "Post", singular := "post" }
  type := .string
  attributeNames := ["title", "subtitle"]

/-- The backend of bodies. -/
def postBodies : TableBackend where
  id := ⟨2⟩
  model := { table := "posts", primaryKey := "id", typeName := "Post", singular := "post" }
  attributeNames := ["body"]

/-- Posts with both backends. -/
def posts : LocalizedModel where
  model := { table := "posts", primaryKey := "id", typeName := "Post", singular := "post" }
  backends := [.keyValue postTitles, .table postBodies]

theorem attached_posts : posts.Attached := by
  have htitles : Attached { model := posts.model, backends := [.keyValue postTitles] } :=
    .attach (.start posts.model)
      (withBackend_eq_ok.mpr ⟨rfl, by decide, by decide, by decide, rfl⟩) (by decide)
  exact htitles.attach (b := .table postBodies)
    (withBackend_eq_ok.mpr ⟨rfl, by decide, by decide, by decide, rfl⟩) (by decide)

/-- The title of a post in English. -/
def postTitle : Expr := .localized (postTitles.reference "title" ⟨"en"⟩)

/-- The subtitle of a post in English. -/
def postSubtitle : Expr := .localized (postTitles.reference "subtitle" ⟨"en"⟩)

theorem localizes_postTitle : posts.Localizes ⟨"en"⟩ postTitle :=
  localizes_attributeNode (show posts.attributeNode "title" ⟨"en"⟩ = .ok postTitle by rfl)

theorem localizes_postSubtitle : posts.Localizes ⟨"en"⟩ postSubtitle :=
  localizes_attributeNode (show posts.attributeNode "subtitle" ⟨"en"⟩ = .ok postSubtitle by rfl)

end LocalizedModel

end LocalizedQuery
