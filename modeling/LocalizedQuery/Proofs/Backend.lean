import LocalizedQuery.Backend.Basic
import LocalizedQuery.Proofs.Inference.KeyValue
import LocalizedQuery.Proofs.Inference.Table

/-!
# What a backend plans

Both ways to keep attributes plan alike, but for two things: which references share a join
(`Backend.shares`) and which are regarded as optional (`Backend.bare`). With these, one description
covers the plans of both.

## Main results

* `Backend.mem_planJoins` — the requirements of a plan
* `Backend.planJoins_true` — the plan of an inverted predicate
* `Backend.planJoins_eq_ok` — what is planned where nothing is hidden
-/

namespace LocalizedQuery

/-! ## Targets -/

theorem Locale.eq_of_tag_eq {locale other : Locale} (h : locale.tag = other.tag) :
    locale = other := by
  cases locale
  cases other
  exact congrArg Locale.mk h

/-- A join names its attribute and its locale. -/
theorem KeyValueBackend.joinTarget_eq_iff {b : KeyValueBackend} {name name' : String}
    {locale locale' : Locale} :
    b.joinTarget name locale = b.joinTarget name' locale' ↔ name = name' ∧ locale = locale' := by
  constructor
  · intro h
    have hon := congrArg JoinTarget.on h
    simp only [joinTarget, Expr.both, Expr.equals, Expr.text, Expr.binary.injEq,
      Expr.literal.injEq, Literal.string.injEq, true_and, and_true] at hon
    obtain ⟨⟨⟨-, -, hlocale⟩, -, hname⟩, -⟩ := hon
    exact ⟨hname, Locale.eq_of_tag_eq hlocale⟩
  · rintro ⟨rfl, rfl⟩
    rfl

/-- A join names its locale. -/
theorem TableBackend.joinTarget_eq_iff {b : TableBackend} {locale locale' : Locale} :
    b.joinTarget locale = b.joinTarget locale' ↔ locale = locale' := by
  constructor
  · intro h
    have hon := congrArg JoinTarget.on h
    simp only [joinTarget, Expr.both, Expr.equals, Expr.text, Expr.binary.injEq,
      Expr.literal.injEq, Literal.string.injEq, true_and, and_true] at hon
    obtain ⟨-, -, hlocale⟩ := hon
    exact Locale.eq_of_tag_eq hlocale
  · rintro rfl
    rfl

/-- The requirement of an inner join. -/
def JoinRequirement.innered (requirement : JoinRequirement) : JoinRequirement :=
  { requirement with kind := .inner }

/-! ## Backends -/

namespace Backend

/-- The join that serves an attribute in a locale. -/
def target (b : Backend) (attributeName : String) (locale : Locale) : JoinTarget :=
  match b with
  | .keyValue b => b.joinTarget attributeName locale
  | .table b => b.joinTarget locale

/-- All joins that may serve attributes in a locale. -/
def targets (b : Backend) (locale : Locale) : List JoinTarget :=
  match b with
  | .keyValue b => b.attributeNames.map fun name => b.joinTarget name locale
  | .table b => [b.joinTarget locale]

/-- The attribute that a requirement names. -/
def served (b : Backend) (attributeName : String) : Option String :=
  match b with
  | .keyValue _ => some attributeName
  | .table _ => none

/-- Whether a reference is served by the same join as an attribute. -/
def shares (b : Backend) (attributeName : String) (locale : Locale) (ref : Reference) : Bool :=
  match b with
  | .keyValue b => KeyValueBackend.isReferenceTo b.id locale attributeName ref
  | .table b => ref.belongsTo b.id locale

/-- Whether a reference by itself is regarded as optional. -/
def bare : Backend → Bool
  | .keyValue _ => false
  | .table _ => true

variable {b : Backend} {name : String} {locale : Locale} {ref : Reference}

@[simp] theorem aliasName_target (b : Backend) (name : String) (locale : Locale) :
    (b.target name locale).aliasName = (b.reference name locale).table := by
  cases b <;> rfl

@[simp] theorem backend_reference (b : Backend) (name : String) (locale : Locale) :
    (b.reference name locale).backend = b.id := by
  cases b <;> rfl

/-- What a backend builds is its reference. -/
theorem eq_reference_of_buildNode (h : b.buildNode name locale = .ok (.localized ref)) :
    ref = b.reference name locale := by
  rw [buildNode] at h
  split at h
  · exact (Expr.localized.inj (Except.ok.inj h)).symm
  · exact absurd h (by simp)

theorem shares_reference (b : Backend) (name : String) (locale : Locale) :
    b.shares name locale (b.reference name locale) = true := by
  cases b <;>
    simp [shares, KeyValueBackend.isReferenceTo, reference, KeyValueBackend.reference,
      TableBackend.reference, Reference.belongsTo]

theorem belongsTo_of_shares (h : b.shares name locale ref = true) :
    ref.belongsTo b.id locale = true := by
  cases b with
  | keyValue b =>
    rw [shares, KeyValueBackend.isReferenceTo, Bool.and_eq_true] at h
    exact h.1
  | table b => exact h

theorem id_eq_of_shares (h : b.shares name locale ref = true) : ref.backend = b.id := by
  have hbelongs := belongsTo_of_shares h
  rw [Reference.belongsTo, Bool.and_eq_true, beq_iff_eq] at hbelongs
  exact hbelongs.1

/-- A reference of the backend that shares the join of an attribute is served by it. -/
theorem target_eq_of_shares {other : String}
    (h : b.shares name locale (b.reference other locale) = true) :
    b.target other locale = b.target name locale := by
  cases b with
  | keyValue b =>
    rw [shares, KeyValueBackend.isReferenceTo, Bool.and_eq_true, beq_iff_eq] at h
    have hname : other = name := h.2
    rw [hname]
  | table b => rfl

theorem target_mem_targets (h : b.keeps name = true) : b.target name locale ∈ b.targets locale := by
  cases b with
  | keyValue b => exact List.mem_map_of_mem (List.contains_iff_mem.mp h)
  | table b => exact List.mem_singleton_self _

/-- **The requirements of a plan.** -/
theorem mem_planJoins {predicate : Expr} {invert : Bool} {plan : List JoinRequirement}
    (h : b.planJoins predicate locale invert = .ok plan) {requirement : JoinRequirement} :
    requirement ∈ plan ↔ ∃ name kind,
      kindAmong (b.shares name locale) predicate.references
        (predicate.optionalReferences b.bare) = some kind ∧
      requirement = ⟨b.served name, b.target name locale, kind.forPredicate invert⟩ := by
  cases b with
  | keyValue b => exact KeyValueBackend.mem_planJoins h
  | table b =>
    rw [TableBackend.mem_planJoins h]
    constructor
    · rintro ⟨kind, hkind, heq⟩
      exact ⟨"", kind, hkind, heq⟩
    · rintro ⟨_, kind, hkind, heq⟩
      exact ⟨kind, hkind, heq⟩

/-- A backend plans each of its joins once. -/
theorem nodup_targets_planJoins {predicate : Expr} {invert : Bool} {plan : List JoinRequirement}
    (h : b.planJoins predicate locale invert = .ok plan) :
    (plan.map JoinRequirement.target).Nodup := by
  cases b with
  | keyValue b =>
    obtain ⟨joins, -, rfl⟩ := map_eq_ok.mp h
    rw [List.map_map]
    refine List.pairwise_map.mpr (joins.sorted.imp fun hlt hsame => ?_)
    exact Std.ne_of_lt hlt (KeyValueBackend.joinTarget_eq_iff.mp hsame).1
  | table b =>
    obtain ⟨need, -, rfl⟩ := map_eq_ok.mp h
    cases need with
    | none => exact List.nodup_nil
    | some kind => exact List.pairwise_singleton ..

/-- What an inverted predicate needs is what the predicate needs, and all of it inner. -/
theorem planJoins_true (b : Backend) (predicate : Expr) (locale : Locale) :
    b.planJoins predicate locale true
      = (b.planJoins predicate locale false).map (List.map JoinRequirement.innered) := by
  cases b with
  | keyValue b =>
    simp only [planJoins, KeyValueBackend.planJoins]
    cases b.infer predicate locale with
    | error e => rfl
    | ok joins =>
      simp [Except.map, Function.comp_def, JoinRequirement.innered, JoinKind.forPredicate]
  | table b =>
    simp only [planJoins, TableBackend.planJoins]
    cases b.infer predicate locale with
    | error e => rfl
    | ok need =>
      simp [Except.map, Function.comp_def, JoinRequirement.innered, JoinKind.forPredicate]

/-- The joins that a predicate needs, from where its references stand. -/
def requirements (b : Backend) (predicate : Expr) (locale : Locale) (invert : Bool) :
    List JoinRequirement :=
  match b with
  | .keyValue b => (KeyValueBackend.kinds b.id locale predicate).entries.map fun entry =>
    ⟨some entry.1, b.joinTarget entry.1 locale, entry.2.forPredicate invert⟩
  | .table b => (TableBackend.need b.id locale predicate).toList.map fun kind =>
    ⟨none, b.joinTarget locale, kind.forPredicate invert⟩

/-- **What is planned where nothing is hidden.** -/
theorem planJoins_eq_ok {predicate : Expr}
    (h : predicate.Exposes (Reference.belongsTo b.id locale)) (invert : Bool) :
    b.planJoins predicate locale invert = .ok (b.requirements predicate locale invert) := by
  cases b with
  | keyValue b => rw [planJoins, KeyValueBackend.planJoins, KeyValueBackend.infer_eq_ok h]; rfl
  | table b => rw [planJoins, TableBackend.planJoins, TableBackend.infer_eq_ok h]; rfl

end Backend

end LocalizedQuery
