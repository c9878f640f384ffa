import LocalizedQuery.Backend.KeyValue
import LocalizedQuery.Proofs.Inference.Rejection
import LocalizedQuery.Proofs.NameMap

/-!
# What key-value inference finds

The kind of the join for an attribute follows from where its references stand: the join is outer if
one of them is optional (`Expr.optionalReferences`), inner if there are others only, and there is
none for an attribute without references. Inference succeeds unless a `CASE` hides a reference.

The same can be noted reference by reference (`KeyValueBackend.kinds`). Visitors descend by
well-founded recursion, which does not evaluate; the notes do, so what is found for a given
expression can be computed from them.

## Main results

* `KeyValueBackend.get?_infer` — the kind found for each attribute
* `KeyValueBackend.infer_eq_ok` — what is found where nothing is hidden
* `KeyValueBackend.mem_planJoins` — the requirements of a plan
-/

namespace LocalizedQuery

namespace JoinMap

theorem get?_merge (left right : JoinMap) (name : String) :
    (left.merge right).get? name = (left.get? name).merge JoinKind.merge (right.get? name) :=
  NameMap.get?_foldl_insertWith right.sorted left name

theorem get?_allOuter (joins : JoinMap) (name : String) :
    joins.allOuter.get? name = (joins.get? name).map fun _ => .outer :=
  NameMap.get?_map _ joins name

end JoinMap

namespace KeyValueBackend

variable {id : BackendId} {locale : Locale}

/-- The references to one attribute. -/
def isReferenceTo (id : BackendId) (locale : Locale) (name : String) (ref : Reference) : Bool :=
  ref.belongsTo id locale && ref.attributeName == name

/-- What a map says of every attribute follows from these references. -/
def Describes (id : BackendId) (locale : Locale) (joins : JoinMap)
    (all optional : List Reference) : Prop :=
  ∀ name, joins.get? name = kindAmong (isReferenceTo id locale name) all optional

theorem describes_empty {all : List Reference} (h : ∀ ref ∈ all, ref.belongsTo id locale = false) :
    Describes id locale {} all [] := by
  intro name
  have hnone : all.any (isReferenceTo id locale name) = false := by
    rw [List.any_eq_false]
    intro ref href
    simp [isReferenceTo, h ref href]
  simp only [NameMap.get?_empty, kindAmong, hnone, List.any_nil, Bool.false_eq_true, if_false]

theorem describes_single {ref : Reference} (h : ref.belongsTo id locale = true) :
    Describes id locale (JoinMap.add ref.attributeName .inner {}) [ref] [] := by
  intro name
  rw [JoinMap.add, NameMap.get?_insertWith]
  by_cases hname : name = ref.attributeName
  · simp [kindAmong, isReferenceTo, h, hname]
  · simp [kindAmong, isReferenceTo, hname, Ne.symm hname]

theorem Describes.merge {left right : JoinMap} {all all' optional optional' : List Reference}
    (h : Describes id locale left all optional) (h' : Describes id locale right all' optional') :
    Describes id locale (left.merge right) (all ++ all') (optional ++ optional') := by
  intro name
  rw [JoinMap.get?_merge, h name, h' name, kindAmong_append]

theorem Describes.allOuter {joins : JoinMap} {all optional : List Reference}
    (h : Describes id locale joins all optional) (hsub : optional ⊆ all) :
    Describes id locale joins.allOuter all all := by
  intro name
  rw [JoinMap.get?_allOuter, h name, map_outer_kindAmong hsub]

/-- The needs of operands, one after the other. -/
theorem describes_foldlM {es : List Expr}
    (ih : ∀ e ∈ es, ∀ joins, (visitor id locale).accept e = .ok joins →
      Describes id locale joins e.references (e.optionalReferences false))
    {joins : JoinMap}
    (h : (es.map (visitor id locale).visit).foldlM
      (fun (joins : JoinMap) operand => do return joins.merge (← operand.result)) {} = .ok joins) :
    Describes id locale joins (es.flatMap Expr.references)
      (es.flatMap (Expr.optionalReferences false)) := by
  refine Visitor.foldlM_visits JoinMap.merge (P := fun done joins => Describes id locale joins
    (done.flatMap Expr.references) (done.flatMap (Expr.optionalReferences false))) ?_ ?_ h
  · intro done e hmem joins found hjoins hfound
    rw [List.flatMap_append, List.flatMap_append, List.flatMap_singleton, List.flatMap_singleton]
    exact hjoins.merge (ih e hmem found hfound)
  · exact describes_empty (List.forall_mem_nil _)

/-- What is found for a family follows from what is found for its operands. -/
theorem describes_handle {e : Expr} {node : Node Expr} {joins : JoinMap}
    (hform : ∀ form, node ≠ .unsupported form)
    (ih : ∀ operand ∈ node.operands, ∀ joins, (visitor id locale).accept operand = .ok joins →
      Describes id locale joins operand.references (operand.optionalReferences false))
    (h : (visitor id locale).handle e (node.map (visitor id locale).visit) = .ok joins) :
    Describes id locale joins node.references (node.optionalReferences false) := by
  cases node with
  | localized ref =>
    rw [Node.map, Visitor.handle, pure_eq_ok] at h
    by_cases howns : (visitor id locale).owns ref = true
    · rw [← h, if_pos howns]
      exact describes_single howns
    · rw [← h, if_neg howns]
      exact describes_empty fun r hr => by
        rw [List.mem_singleton.mp hr]
        exact Bool.eq_false_iff.mpr howns
  | equality operands null =>
    obtain ⟨found, hfound, hjoins⟩ := bind_eq_ok.mp h
    rw [pure_eq_ok] at hjoins
    have hall := describes_foldlM ih hfound
    have hsub : operands.flatMap (Expr.optionalReferences false)
        ⊆ operands.flatMap Expr.references :=
      flatMap_subset fun operand _ => operand.optionalReferences_subset false
    cases null with
    | true => exact hjoins ▸ hall.allOuter hsub
    | false => exact hjoins ▸ hall
  | or left right =>
    obtain ⟨leftJoins, hleft, h⟩ := bind_eq_ok.mp h
    obtain ⟨rightJoins, hright, h⟩ := bind_eq_ok.mp h
    rw [pure_eq_ok] at h
    have hboth := (ih left (by simp [Node.operands]) leftJoins hleft).merge
      (ih right (by simp [Node.operands]) rightJoins hright)
    have houter := hboth.allOuter (List.append_subset.mpr
      ⟨List.subset_append_of_subset_left _ (left.optionalReferences_subset false),
        List.subset_append_of_subset_right _ (right.optionalReferences_subset false)⟩)
    simpa [Node.references, Node.operands, Node.optionalReferences, h] using houter
  | unary inner =>
    have hinner := ih inner (by simp [Node.operands]) joins h
    simpa [Node.references, Node.operands, Node.optionalReferences] using hinner
  | leaf =>
    rw [Node.map, Visitor.handle, pure_eq_ok] at h
    rw [← h]
    exact describes_empty (by simp [Node.references, Node.operands])
  | unsupported form => exact absurd rfl (hform form)
  | and conjuncts => exact describes_foldlM ih h
  | collection children => exact describes_foldlM ih h
  | binary left right => exact describes_foldlM ih h

/-- **What is found for an expression follows from where its references stand.** -/
theorem describes_accept {e : Expr} {joins : JoinMap}
    (h : (visitor id locale).accept e = .ok joins) :
    Describes id locale joins e.references (e.optionalReferences false) := by
  refine Visitor.accept_induction (motive := fun e joins =>
    Describes id locale joins e.references (e.optionalReferences false)) ?_ ?_ h
  · intro e hsees ih joins h
    rw [← Node.references_of hsees, ← Node.optionalReferences_of]
    exact describes_handle hsees ih h
  · intro e form hform hnone
    rw [← Node.optionalReferences_of, hform]
    exact describes_empty hnone

/-! ## Success -/

theorem failsInOrder (id : BackendId) (locale : Locale) : (visitor id locale).FailsInOrder where
  equality _ h := (verdict_bind_pure ..).trans (Visitor.verdict_foldlM_visits JoinMap.merge h {})
  disjunction h := Visitor.verdict_both (v := visitor id locale)
    (fun left right => (left.merge right).allOuter) h
  conjunction h := Visitor.verdict_foldlM_visits JoinMap.merge h {}
  binary h := Visitor.verdict_foldlM_visits JoinMap.merge h {}
  unary h := h _ (List.mem_singleton_self _)
  collection h := Visitor.verdict_foldlM_visits JoinMap.merge h {}

/-- Inference succeeds exactly where no reference is hidden. -/
theorem accept_ok_iff {e : Expr} :
    (∃ joins, (visitor id locale).accept e = .ok joins) ↔
      e.Exposes (Reference.belongsTo id locale) :=
  (failsInOrder id locale).accept_ok_iff

/-! ## Reference by reference -/

/-- Adds a need of one kind for each owned reference. -/
def noted (id : BackendId) (locale : Locale) (kind : JoinKind) (refs : List Reference)
    (joins : JoinMap) : JoinMap :=
  (refs.filter (Reference.belongsTo id locale)).foldl
    (fun joins ref => joins.add ref.attributeName kind) joins

/-- The kinds of attributes, from all references of an expression and from its optional ones. -/
def kinds (id : BackendId) (locale : Locale) (e : Expr) : JoinMap :=
  noted id locale .outer (e.optionalReferences false) (noted id locale .inner e.references default)

theorem get?_noted (kind : JoinKind) (refs : List Reference) (joins : JoinMap) (name : String) :
    (noted id locale kind refs joins).get? name
      = (joins.get? name).merge JoinKind.merge
          (if refs.any (isReferenceTo id locale name) then some kind else none) := by
  have hnames : refs.any (isReferenceTo id locale name)
      = (refs.filter (Reference.belongsTo id locale)).any (·.attributeName == name) :=
    List.any_filter.symm
  rw [noted, hnames]
  generalize refs.filter (Reference.belongsTo id locale) = owned
  induction owned generalizing joins with
  | nil => rw [List.foldl_nil, List.any_nil, if_neg Bool.false_ne_true, Option.merge_none_right]
  | cons ref rest ih =>
    rw [List.foldl_cons, ih, JoinMap.add, NameMap.get?_insertWith, List.any_cons]
    by_cases hname : ref.attributeName = name
    · -- To note a kind twice is to note it once.
      have htwice (found : Option JoinKind) :
          (found.merge JoinKind.merge (some kind)).merge JoinKind.merge (some kind)
            = found.merge JoinKind.merge (some kind) := by
        rcases found with _ | ⟨⟨⟩⟩ <;> cases kind <;> rfl
      rw [if_pos hname.symm, beq_iff_eq.mpr hname, Bool.true_or, if_pos rfl]
      split_ifs
      · exact htwice _
      · rw [Option.merge_none_right]
    · rw [if_neg (Ne.symm hname), beq_false_of_ne hname, Bool.false_or, Option.merge_none_right]

theorem describes_kinds (e : Expr) :
    Describes id locale (kinds id locale e) e.references (e.optionalReferences false) := by
  intro name
  have hempty : (default : JoinMap).get? name = none := rfl
  rw [kinds, get?_noted, get?_noted, hempty, Option.merge_none_left, kindAmong]
  split_ifs <;> rfl

/-! ## Plans -/

variable {b : KeyValueBackend}

/-- **The kind found for each attribute.** -/
theorem get?_infer {predicate : Expr} {joins : JoinMap} (h : b.infer predicate locale = .ok joins)
    (name : String) :
    joins.get? name = kindAmong (isReferenceTo b.id locale name) predicate.references
      (predicate.optionalReferences false) :=
  describes_accept h name

/-- **What is found where nothing is hidden.** -/
theorem infer_eq_ok {predicate : Expr} (h : predicate.Exposes (Reference.belongsTo b.id locale)) :
    b.infer predicate locale = .ok (kinds b.id locale predicate) := by
  obtain ⟨joins, hjoins⟩ := accept_ok_iff.mpr h
  have hsame : joins = kinds b.id locale predicate :=
    NameMap.ext_get? fun name => (describes_accept hjoins name).trans (describes_kinds _ name).symm
  exact hsame ▸ hjoins

/-- **The requirements of a plan.** -/
theorem mem_planJoins {predicate : Expr} {invert : Bool} {plan : List JoinRequirement}
    (h : b.planJoins predicate locale invert = .ok plan) {requirement : JoinRequirement} :
    requirement ∈ plan ↔ ∃ name kind,
      kindAmong (isReferenceTo b.id locale name) predicate.references
        (predicate.optionalReferences false) = some kind ∧
      requirement = ⟨some name, b.joinTarget name locale, kind.forPredicate invert⟩ := by
  obtain ⟨joins, hjoins, rfl⟩ := map_eq_ok.mp h
  constructor
  · intro hmem
    obtain ⟨⟨name, kind⟩, hentry, rfl⟩ := List.mem_map.mp hmem
    exact ⟨name, kind, by rw [← get?_infer hjoins, ← NameMap.mem_entries_iff]; exact hentry, rfl⟩
  · rintro ⟨name, kind, hkind, rfl⟩
    rw [← get?_infer hjoins, ← NameMap.mem_entries_iff] at hkind
    exact List.mem_map.mpr ⟨(name, kind), hkind, rfl⟩

end KeyValueBackend

end LocalizedQuery
