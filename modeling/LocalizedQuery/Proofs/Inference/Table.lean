import LocalizedQuery.Backend.Table
import LocalizedQuery.Proofs.Inference.Rejection

/-!
# What table inference finds

The kind of the one join of a backend follows from where its references stand: the join is outer if
one of them is optional (`Expr.optionalReferences`), inner if there are others only, and there is
none without references. That a collection is decided by its first outer member changes nothing,
since an outer need is never taken back. Inference succeeds unless a `CASE` hides a reference.

## Main results

* `TableBackend.infer_eq` — the kind found
* `TableBackend.infer_eq_ok` — what is found where nothing is hidden
* `TableBackend.mem_planJoins` — the requirements of a plan
-/

namespace LocalizedQuery

namespace TableBackend

variable {id : BackendId} {locale : Locale}

/-- The need for the one join, from all references of an expression and its optional ones. -/
def needAmong (id : BackendId) (locale : Locale) (all optional : List Reference) :
    Option JoinKind :=
  kindAmong (Reference.belongsTo id locale) all optional

/-- The need of an expression, from where its references stand. -/
def need (id : BackendId) (locale : Locale) (e : Expr) : Option JoinKind :=
  needAmong id locale e.references (e.optionalReferences true)

theorem need_isSome (e : Expr) :
    (need id locale e).isSome = e.references.any (Reference.belongsTo id locale) :=
  kindAmong_isSome (e.optionalReferences_subset true)

/-! ## Equalities and collections -/

/-- An equality is touched if an operand has a reference. -/
theorem foldlM_touched {es : List Expr}
    (ih : ∀ e ∈ es, ∀ found, (visitor id locale).accept e = .ok found → found = need id locale e)
    {touched : Bool}
    (h : (es.map (visitor id locale).visit).foldlM
      (fun touched operand => do return touched || (← operand.result).isSome) false = .ok touched) :
    touched = (es.flatMap Expr.references).any (Reference.belongsTo id locale) := by
  refine Visitor.foldlM_visits (fun touched found => touched || Option.isSome found)
    (P := fun done touched =>
      touched = (done.flatMap Expr.references).any (Reference.belongsTo id locale)) ?_ rfl h
  intro done e hmem touched found htouched hfound
  rw [htouched, ih e hmem found hfound, need_isSome, List.flatMap_append, List.flatMap_singleton,
    List.any_append]

/-- Once outer, always outer. -/
theorem merge_outer (found : Option JoinKind) :
    found.merge JoinKind.merge (some .outer) = some .outer := by
  cases found with
  | none => rfl
  | some kind => cases kind <;> rfl

theorem outer_merge (need : Option JoinKind) :
    (some JoinKind.outer).merge JoinKind.merge need = some .outer := by
  cases need <;> rfl

/-- An inner need on top of what is not outer. -/
theorem or_inner_eq_merge {found : Option JoinKind} (h : found ≠ some .outer) :
    (found <|> some .inner) = some .inner ∧
      found.merge JoinKind.merge (some .inner) = some .inner := by
  cases found with
  | none => exact ⟨rfl, rfl⟩
  | some kind => cases kind with
    | inner => exact ⟨rfl, rfl⟩
    | outer => exact absurd rfl h

theorem merge_assoc (a b c : Option JoinKind) :
    (a.merge JoinKind.merge b).merge JoinKind.merge c
      = a.merge JoinKind.merge (b.merge JoinKind.merge c) := by
  rcases a with - | (- | -) <;> rcases b with - | (- | -) <;> rcases c with - | (- | -) <;> rfl

/-- The need of a collection, of which `found` is the need so far. -/
theorem collection_eq {es : List Expr} {owns : Reference → Bool}
    (ih : ∀ e ∈ es, ∀ found, (visitor id locale).accept e = .ok found → found = need id locale e)
    {found result : Option JoinKind} (hfound : found ≠ some .outer)
    (h : collection owns found
      (es.map (visitor id locale).visit) = .ok result) :
    result = found.merge JoinKind.merge (needAmong id locale (es.flatMap Expr.references)
      (es.flatMap (Expr.optionalReferences true))) := by
  induction es generalizing found with
  | nil =>
    rw [List.map_nil, collection, Except.ok.injEq] at h
    simp [← h, needAmong, kindAmong]
  | cons e rest ih' =>
    rw [List.map_cons, collection, bind_eq_ok] at h
    obtain ⟨first, hfirst, h⟩ := h
    have hneed := ih e (List.mem_cons_self ..) first hfirst
    have hrest := @ih' fun e he => ih e (List.mem_cons_of_mem _ he)
    have happend : needAmong id locale ((e :: rest).flatMap Expr.references)
        ((e :: rest).flatMap (Expr.optionalReferences true))
          = first.merge JoinKind.merge (needAmong id locale (rest.flatMap Expr.references)
            (rest.flatMap (Expr.optionalReferences true))) := by
      rw [hneed, List.flatMap_cons, List.flatMap_cons]
      exact kindAmong_append
    rw [happend]
    cases first with
    | none => rw [hrest hfound h, Option.merge_none_left]
    | some kind =>
      cases kind with
      | inner =>
        obtain ⟨hor, hmerge⟩ := or_inner_eq_merge hfound
        simp only [hor] at h
        rw [hrest (by simp) h, ← merge_assoc, hmerge]
      | outer =>
        -- What follows is only searched for hidden references.
        obtain ⟨-, -, h⟩ := bind_eq_ok.mp h
        rw [pure_eq_ok] at h
        rw [outer_merge, merge_outer, h]

theorem need_collection {es : List Expr} {found : Option JoinKind}
    (ih : ∀ e ∈ es, ∀ found, (visitor id locale).accept e = .ok found → found = need id locale e)
    (h : collection (Reference.belongsTo id locale) none
      (es.map (visitor id locale).visit) = .ok found) :
    found = needAmong id locale (es.flatMap Expr.references)
      (es.flatMap (Expr.optionalReferences true)) := by
  rw [collection_eq ih (Option.some_ne_none _).symm h, Option.merge_none_left]

/-- What is found for a family follows from what is found for its operands. -/
theorem need_handle {e : Expr} {node : Node Expr} {found : Option JoinKind}
    (hform : ∀ form, node ≠ .unsupported form)
    (ih : ∀ operand ∈ node.operands, ∀ found, (visitor id locale).accept operand = .ok found →
      found = need id locale operand)
    (h : (visitor id locale).handle e (node.map (visitor id locale).visit) = .ok found) :
    found = needAmong id locale node.references (node.optionalReferences true) := by
  cases node with
  | localized ref =>
    rw [Node.map, Visitor.handle, pure_eq_ok] at h
    by_cases howns : ref.belongsTo id locale = true
    · simp [← h, needAmong, kindAmong, Node.optionalReferences, visitor, howns]
    · simp [← h, needAmong, kindAmong, Node.references, Node.optionalReferences, visitor, howns]
  | equality operands null =>
    obtain ⟨touched, htouched, h⟩ := bind_eq_ok.mp h
    rw [pure_eq_ok] at h
    rw [← h, foldlM_touched ih htouched]
    cases null with
    | true => exact kindAmong_self.symm
    | false => exact kindAmong_nil.symm
  | or left right =>
    obtain ⟨first, hleft, h⟩ := bind_eq_ok.mp h
    obtain ⟨second, hright, h⟩ := bind_eq_ok.mp h
    rw [pure_eq_ok] at h
    have hfirst := ih left (by simp [Node.operands]) first hleft
    have hsecond := ih right (by simp [Node.operands]) second hright
    have hany : needAmong id locale (Node.or left right).references
        ((Node.or left right).optionalReferences true)
          = if first.isSome || second.isSome then some .outer else none := by
      rw [hfirst, hsecond, need_isSome, need_isSome, ← List.any_append]
      have hall : (Node.or left right).references = left.references ++ right.references := by
        simp [Node.references, Node.operands]
      rw [hall]
      exact kindAmong_self
    rw [← h, hany]
    cases first <;> cases second <;> rfl
  | unary inner =>
    have hinner := ih inner (by simp [Node.operands]) found h
    simpa [need, Node.references, Node.operands, Node.optionalReferences] using hinner
  | leaf =>
    rw [Node.map, Visitor.handle, pure_eq_ok] at h
    rw [← h]
    rfl
  | unsupported form => exact absurd rfl (hform form)
  | and conjuncts => exact need_collection ih h
  | collection children => exact need_collection ih h
  | binary left right => exact need_collection ih h

/-- **What is found for an expression follows from where its references stand.** -/
theorem need_accept {e : Expr} {found : Option JoinKind}
    (h : (visitor id locale).accept e = .ok found) : found = need id locale e := by
  refine Visitor.accept_induction (motive := fun e found => found = need id locale e) ?_ ?_ h
  · intro e hsees ih found h
    rw [need, ← Node.references_of hsees, ← Node.optionalReferences_of]
    exact need_handle hsees ih h
  · intro e form hform hnone
    have hany : e.references.any (Reference.belongsTo id locale) = false := by
      rw [List.any_eq_false]
      intro ref href
      exact Bool.eq_false_iff.mp (hnone ref href)
    have hneed : kindAmong (Reference.belongsTo id locale) e.references [] = none := by
      rw [kindAmong_nil, hany, if_neg Bool.false_ne_true]
    rw [need, ← Node.optionalReferences_of, hform]
    exact hneed.symm

/-! ## Success -/

/-- A collection fails with the first refusal, also behind the member that decides it. -/
theorem verdict_collection {es : List Expr} (h : (visitor id locale).Refuses es)
    (found : Option JoinKind) :
    verdict (collection (visitor id locale).owns found (es.map (visitor id locale).visit))
      = es.forM (rejectUnsupported (visitor id locale).owns) := by
  induction es generalizing found with
  | nil => rfl
  | cons e rest ih =>
    obtain ⟨hfirst, hrest⟩ := List.forall_mem_cons.mp h
    rw [List.map_cons, collection, verdict_bind, forM_cons, ← hfirst]
    refine bind_of_forall_eq fun need => ?_
    cases need with
    | none => exact ih hrest found
    | some kind =>
      cases kind with
      | inner => exact ih hrest (found <|> some .inner)
      | outer =>
        -- What follows is refused without being inferred.
        rw [verdict_bind_pure, verdict_unit, Visitor.forM_rejectUnsupported_visits]

theorem failsInOrder (id : BackendId) (locale : Locale) : (visitor id locale).FailsInOrder where
  equality _ h := (verdict_bind_pure ..).trans
    (Visitor.verdict_foldlM_visits (fun touched found => touched || Option.isSome found) h false)
  disjunction h := Visitor.verdict_both (v := visitor id locale)
    (fun left right => (left <|> right).map fun _ => JoinKind.outer) h
  conjunction h := verdict_collection h none
  binary h := verdict_collection h none
  unary h := h _ (List.mem_singleton_self _)
  collection h := verdict_collection h none

/-- Inference succeeds exactly where no reference is hidden. -/
theorem accept_ok_iff {e : Expr} :
    (∃ found, (visitor id locale).accept e = .ok found) ↔
      e.Exposes (Reference.belongsTo id locale) :=
  (failsInOrder id locale).accept_ok_iff

/-! ## Plans -/

variable {b : TableBackend}

/-- **The kind found.** -/
theorem infer_eq {predicate : Expr} {found : Option JoinKind}
    (h : b.infer predicate locale = .ok found) :
    found = kindAmong (Reference.belongsTo b.id locale) predicate.references
      (predicate.optionalReferences true) :=
  need_accept h

/-- **What is found where nothing is hidden.** -/
theorem infer_eq_ok {predicate : Expr} (h : predicate.Exposes (Reference.belongsTo b.id locale)) :
    b.infer predicate locale = .ok (need b.id locale predicate) := by
  obtain ⟨found, hfound⟩ := accept_ok_iff.mpr h
  have hsame : found = need b.id locale predicate := need_accept hfound
  exact hsame ▸ hfound

/-- **The requirements of a plan.** -/
theorem mem_planJoins {predicate : Expr} {invert : Bool} {plan : List JoinRequirement}
    (h : b.planJoins predicate locale invert = .ok plan) {requirement : JoinRequirement} :
    requirement ∈ plan ↔ ∃ kind,
      kindAmong (Reference.belongsTo b.id locale) predicate.references
        (predicate.optionalReferences true) = some kind ∧
      requirement = ⟨none, b.joinTarget locale, kind.forPredicate invert⟩ := by
  obtain ⟨found, hfound, rfl⟩ := map_eq_ok.mp h
  rw [← infer_eq hfound]
  cases found with
  | none => simp
  | some kind => simp

end TableBackend

end LocalizedQuery
