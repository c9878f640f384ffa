import LocalizedQuery.Proofs.Inference.Table

/-!
# Deciding a collection early

Table inference stops at the first member of a collection that needs an outer join: what follows is
searched for hidden references and not inferred. An outer need absorbs every other, so the needs of
what follows could not change the result, and the search fails where inference would have failed and
with the same error. So a collection may as well be inferred to its end, which is what a visitor
does by default.

The two visitors differ at every collection, also inside the members of another one. Hence the
comparison goes over whole expressions, by induction on the operands.

## Main results

* `TableBackend.collection_eq_foldlM` — stopping early gives what folding all members gives
* `TableBackend.infer_eq_exhaustive` — inference does not depend on stopping early
-/

namespace LocalizedQuery

/-- Replacing operands by what is equal for each of them. -/
theorem Node.map_congr {α β : Type} {f g : α → β} {node : Node α}
    (h : ∀ operand ∈ node.operands, f operand = g operand) : node.map f = node.map g := by
  cases node with
  | equality operands null => exact congrArg (Node.equality · null) (List.map_congr_left h)
  | and conjuncts => exact congrArg Node.and (List.map_congr_left h)
  | collection children => exact congrArg Node.collection (List.map_congr_left h)
  | or left right => rw [map, map, h left (by simp [operands]), h right (by simp [operands])]
  | binary left right => rw [map, map, h left (by simp [operands]), h right (by simp [operands])]
  | unary inner => rw [map, map, h inner (by simp [operands])]
  | localized ref => rfl
  | leaf => rfl
  | unsupported form => rfl

namespace TableBackend

variable {id : BackendId} {locale : Locale} {es : List Expr}

/-- The inference of one backend in one locale, with every member of a collection inferred. -/
def exhaustiveVisitor (id : BackendId) (locale : Locale) :
    Visitor (Except InferenceError) (Option JoinKind) where
  owns := (visitor id locale).owns
  localized := (visitor id locale).localized
  combine := (visitor id locale).combine
  empty := (visitor id locale).empty
  equality := (visitor id locale).equality
  disjunction := (visitor id locale).disjunction

/-! ## Collections -/

theorem combine_eq_merge (left right : Option JoinKind) :
    combine left right = left.merge JoinKind.merge right := by
  cases left <;> cases right <;> rfl

/-- Behind an outer need only the failures matter. -/
theorem foldlM_combine_outer (h : (visitor id locale).Refuses es) :
    (es.map (visitor id locale).visit).foldlM
        (fun found child => do return combine found (← child.result)) (some JoinKind.outer)
      = es.forM (rejectUnsupported (visitor id locale).owns) >>= fun _ => .ok (some .outer) := by
  induction es with
  | nil => rfl
  | cons e rest ih =>
    obtain ⟨hfirst, hrest⟩ := List.forall_mem_cons.mp h
    rw [List.map_cons, List.foldlM_cons, bind_assoc, forM_cons, ← hfirst, bind_assoc]
    refine bind_of_forall_eq fun need => ?_
    rw [pure_bind, combine_eq_merge, outer_merge]
    exact ih hrest

/-- **Stopping early gives what folding all members gives.** -/
theorem collection_eq_foldlM (h : (visitor id locale).Refuses es) {found : Option JoinKind}
    (hfound : found ≠ some .outer) :
    collection (visitor id locale).owns found (es.map (visitor id locale).visit)
      = (es.map (visitor id locale).visit).foldlM
          (fun found child => do return combine found (← child.result)) found := by
  induction es generalizing found with
  | nil => rfl
  | cons e rest ih =>
    have hrest : (visitor id locale).Refuses rest := (List.forall_mem_cons.mp h).2
    rw [List.map_cons, collection, List.foldlM_cons, bind_assoc]
    refine bind_congr fun need => ?_
    rw [pure_bind]
    cases need with
    | none =>
      rw [combine_eq_merge, Option.merge_none_right]
      exact ih hrest hfound
    | some kind =>
      cases kind with
      | inner =>
        obtain ⟨hor, hmerge⟩ := or_inner_eq_merge hfound
        rw [combine_eq_merge, hmerge, hor]
        exact ih hrest (by simp)
      | outer =>
        rw [combine_eq_merge, merge_outer, foldlM_combine_outer hrest,
          ← Visitor.forM_rejectUnsupported_visits]
        rfl

/-! ## Whole expressions -/

/-- Both visitors find the same in every expression. -/
theorem accept_exhaustiveVisitor (id : BackendId) (locale : Locale) (e : Expr) :
    (exhaustiveVisitor id locale).accept e = (visitor id locale).accept e := by
  induction e using Expr.induction_on_operands with
  | h e ih =>
    have hvisits : (Node.of e).map (exhaustiveVisitor id locale).visit
        = (Node.of e).map (visitor id locale).visit :=
      Node.map_congr fun operand hmem => congrArg (Visit.mk operand) (ih operand hmem)
    have hlist : ∀ es : List Expr,
        (exhaustiveVisitor id locale).collection (es.map (visitor id locale).visit)
          = (visitor id locale).collection (es.map (visitor id locale).visit) := fun es =>
      (collection_eq_foldlM (fun e _ => (failsInOrder id locale).verdict_accept e)
        (Option.some_ne_none _).symm).symm
    rw [Visitor.accept_eq, Visitor.accept_eq]
    change (exhaustiveVisitor id locale).handle e
        ((Node.of e).map (exhaustiveVisitor id locale).visit)
      = (visitor id locale).handle e ((Node.of e).map (visitor id locale).visit)
    rw [hvisits]
    cases Node.of e with
    | and conjuncts => exact hlist conjuncts
    | collection children => exact hlist children
    | binary left right => exact hlist [left, right]
    | _ => rfl

/-- **Inference does not depend on stopping early:** inferring every member of every collection
gives the same need, or the same error. -/
theorem infer_eq_exhaustive (b : TableBackend) (predicate : Expr) (locale : Locale) :
    b.infer predicate locale = (exhaustiveVisitor b.id locale).accept predicate :=
  (accept_exhaustiveVisitor b.id locale predicate).symm

end TableBackend

end LocalizedQuery
