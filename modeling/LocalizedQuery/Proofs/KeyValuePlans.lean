import LocalizedQuery.Proofs.Inference.Ancestors
import LocalizedQuery.Proofs.LocalizedModel

/-!
# The joins of a key-value backend

A plan of a key-value backend lists the attributes that the predicate refers to, each once and in
the order of their names. The kind of a join can be told from the ancestors of the references that
it serves: it is outer exactly if one of them has an ancestor that may hold although the row is
missing (`Expr.toleratesMissing`), wherever that stands between the reference and the whole.

## Main results

* `KeyValueBackend.planJoins_exact` — a plan, attribute by attribute, also for the negated predicate
-/

namespace LocalizedQuery

namespace KeyValueBackend

variable {b : KeyValueBackend} {predicate : Expr} {locale : Locale} {joins : JoinMap}
  {plan : List JoinRequirement}

/-- `requirement` is what a predicate requires for an attribute that it refers to. -/
structure IsRequirementFor (b : KeyValueBackend) (predicate : Expr) (locale : Locale)
    (name : String) (requirement : JoinRequirement) : Prop where
  attributeName_eq : requirement.attributeName = some name
  target_eq : requirement.target = b.joinTarget name locale
  /-- The alias is that of the references which the backend builds. -/
  aliasName_eq : ∀ ref : Reference,
    (Backend.keyValue b).buildNode name locale = .ok (.localized ref) →
      requirement.target.aliasName = ref.table
  /-- One of the references may hold without the row. -/
  kind_eq_outer_iff : requirement.kind = .outer ↔
    ∃ (ref : Reference) (ancestors : List Expr), ref.belongsTo b.id locale = true ∧
      ref.attributeName = name ∧ (Expr.localized ref).StandsUnder ancestors predicate ∧
      ∃ ancestor ∈ ancestors, ancestor.toleratesMissing = true

theorem isReferenceTo_eq_true {id : BackendId} {name : String} {ref : Reference} :
    isReferenceTo id locale name ref = true ↔
      ref.belongsTo id locale = true ∧ ref.attributeName = name := by
  rw [isReferenceTo, Bool.and_eq_true, beq_iff_eq]

/-- The attributes that a predicate refers to have kinds. -/
theorem mem_names_infer (h : b.infer predicate locale = .ok joins) {name : String} :
    name ∈ joins.entries.map Prod.fst ↔
      ∃ ref ∈ predicate.references, ref.belongsTo b.id locale = true ∧ ref.attributeName = name := by
  have hmem : name ∈ joins.entries.map Prod.fst ↔ (joins.get? name).isSome = true := by
    rw [Option.isSome_iff_exists, List.mem_map]
    constructor
    · rintro ⟨⟨_, kind⟩, hentry, rfl⟩
      exact ⟨kind, NameMap.mem_entries_iff.mp hentry⟩
    · rintro ⟨kind, hkind⟩
      exact ⟨(name, kind), NameMap.mem_entries_iff.mpr hkind, rfl⟩
  rw [hmem, get?_infer h, kindAmong_isSome (predicate.optionalReferences_subset false),
    List.any_eq_true]
  simp only [isReferenceTo_eq_true]

/-- The kind of an attribute, from the ancestors of its references. -/
theorem kind_infer_eq_outer_iff (h : b.infer predicate locale = .ok joins) {name : String}
    {kind : JoinKind} (hentry : (name, kind) ∈ joins.entries) :
    kind = .outer ↔
      ∃ (ref : Reference) (ancestors : List Expr), ref.belongsTo b.id locale = true ∧
        ref.attributeName = name ∧ (Expr.localized ref).StandsUnder ancestors predicate ∧
        ∃ ancestor ∈ ancestors, ancestor.toleratesMissing = true := by
  have hexposes : predicate.Exposes (Reference.belongsTo b.id locale) :=
    accept_ok_iff.mp ⟨_, h⟩
  have hkind := NameMap.mem_entries_iff.mp hentry
  rw [get?_infer h] at hkind
  have houter : kind = .outer ↔
      ∃ ref ∈ predicate.optionalReferences false, isReferenceTo b.id locale name ref = true := by
    rw [← List.any_eq_true, ← kindAmong_eq_outer_iff, hkind, Option.some_inj]
  rw [houter]
  constructor
  · rintro ⟨ref, href, hname⟩
    rw [isReferenceTo_eq_true] at hname
    obtain ⟨ancestors, hunder, hoptional⟩ := (hexposes.mem_optionalReferences_iff hname.1).mp href
    rw [Expr.optionalUnder_false, List.any_eq_true] at hoptional
    exact ⟨ref, ancestors, hname.1, hname.2, hunder, hoptional⟩
  · rintro ⟨ref, ancestors, howns, hname, hunder, hoptional⟩
    rw [← List.any_eq_true, ← Expr.optionalUnder_false] at hoptional
    exact ⟨ref, (hexposes.mem_optionalReferences_iff howns).mpr ⟨ancestors, hunder, hoptional⟩,
      isReferenceTo_eq_true.mpr ⟨howns, hname⟩⟩

/-- **A plan lists the attributes that the predicate refers to.** Each has one requirement, in the
order of the names. For the negated predicate the same joins are required, all of them inner. -/
theorem planJoins_exact (h : b.planJoins predicate locale false = .ok plan) :
    (∃ names : List String, names.Pairwise (· < ·) ∧
      (∀ name, name ∈ names ↔ ∃ ref ∈ predicate.references,
        ref.belongsTo b.id locale = true ∧ ref.attributeName = name) ∧
      List.Forall₂ (b.IsRequirementFor predicate locale) names plan) ∧
    b.planJoins predicate locale true = .ok (plan.map JoinRequirement.innered) := by
  obtain ⟨joins, hjoins, rfl⟩ := map_eq_ok.mp h
  refine ⟨⟨joins.entries.map Prod.fst, List.pairwise_map.mpr joins.sorted,
    fun name => mem_names_infer hjoins, ?_⟩, ?_⟩
  · rw [List.forall₂_map_left_iff, List.forall₂_map_right_iff, List.forall₂_same]
    rintro ⟨name, kind⟩ hentry
    exact {
      attributeName_eq := rfl
      target_eq := rfl
      aliasName_eq := by
        intro ref hbuilt
        rw [Backend.eq_reference_of_buildNode hbuilt]
        exact Backend.aliasName_target (.keyValue b) name locale
      kind_eq_outer_iff := kind_infer_eq_outer_iff hjoins hentry }
  · have hinverted := Backend.planJoins_true (.keyValue b) predicate locale
    rw [Backend.planJoins, Backend.planJoins, h] at hinverted
    exact hinverted

/-- The title is `x`, and the subtitle is not missing. -/
def titledAndSubtitled : Expr :=
  (Expr.unary .not (.isNull LocalizedModel.postSubtitle false)).both
    (LocalizedModel.postTitle.equals (.text "x"))

/-- The `NOT` above the `IS NULL` does not change that the subtitle is joined outer. -/
theorem planJoins_titledAndSubtitled :
    ∃ plan, LocalizedModel.postTitles.planJoins titledAndSubtitled ⟨"en"⟩ false = .ok plan ∧
      plan.map (fun requirement => (requirement.attributeName, requirement.kind))
        = [(some "subtitle", .outer), (some "title", .inner)] ∧
      (∃ names : List String, names.Pairwise (· < ·) ∧
        (∀ name, name ∈ names ↔ ∃ ref ∈ titledAndSubtitled.references,
          ref.belongsTo LocalizedModel.postTitles.id ⟨"en"⟩ = true ∧ ref.attributeName = name) ∧
        List.Forall₂
          (LocalizedModel.postTitles.IsRequirementFor titledAndSubtitled ⟨"en"⟩) names plan) ∧
      LocalizedModel.postTitles.planJoins titledAndSubtitled ⟨"en"⟩ true
        = .ok (plan.map JoinRequirement.innered) := by
  have hexposes : titledAndSubtitled.Exposes
      (Reference.belongsTo LocalizedModel.postTitles.id ⟨"en"⟩) :=
    rejectUnsupported_eq_ok.mp rfl
  have hplan := (Backend.keyValue LocalizedModel.postTitles).planJoins_eq_ok hexposes false
  exact ⟨_, hplan, rfl, planJoins_exact hplan⟩

end KeyValueBackend

end LocalizedQuery
