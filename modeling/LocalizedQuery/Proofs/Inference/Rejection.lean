import LocalizedQuery.Proofs.Inference.Visitor

/-!
# What inference refuses

Whether inference fails, and with which error, can be found without it: an expression is refused
for the first of its `CASE`s that hides a reference (`rejectUnsupported`). This holds of every
visitor that fails as its operands do, one after the other (`Visitor.FailsInOrder`).

## Main results

* `Visitor.FailsInOrder.verdict_accept` — such a visitor refuses what is hidden
* `Visitor.FailsInOrder.accept_ok_iff` — it has a result exactly where nothing is hidden
-/

namespace LocalizedQuery

variable {owns : Reference → Bool} {e : Expr}

/-! ## The search for hidden references -/

/-- The error about the first form of a list that hides an owned reference. -/
def refuseHidden (owns : Reference → Bool) (cases : List Expr) : Except InferenceError Unit :=
  match cases.findSome? (hiddenReference owns "CASE") with
  | some error => .error error
  | none => .ok ()

theorem rejectUnsupported_eq (owns : Reference → Bool) (e : Expr) :
    rejectUnsupported owns e = refuseHidden owns e.outermostCases := rfl

theorem refuseHidden_append (cases cases' : List Expr) :
    refuseHidden owns (cases ++ cases')
      = refuseHidden owns cases >>= fun _ => refuseHidden owns cases' := by
  rw [refuseHidden, List.findSome?_append, refuseHidden]
  cases cases.findSome? (hiddenReference owns "CASE") with
  | none => rfl
  | some error => rfl

theorem refuseHidden_flatMap (es : List Expr) :
    refuseHidden owns (es.flatMap Expr.outermostCases) = es.forM (rejectUnsupported owns) := by
  induction es with
  | nil => rfl
  | cons e rest ih =>
    rw [List.flatMap_cons, refuseHidden_append, ih]
    rfl

/-- An expression that inference sees through is refused as its operands are. -/
theorem rejectUnsupported_of_operands (h : ∀ form, Node.of e ≠ .unsupported form) :
    rejectUnsupported owns e = (Node.of e).operands.forM (rejectUnsupported owns) := by
  rw [rejectUnsupported_eq, ← Node.outermostCases_of h, refuseHidden_flatMap]

theorem rejectUnsupported_eq_ok : rejectUnsupported owns e = .ok () ↔ e.Exposes owns := by
  rw [rejectUnsupported, Expr.Exposes, ← List.findSome?_eq_none_iff]
  cases e.outermostCases.findSome? (hiddenReference owns "CASE") with
  | none => simp
  | some error => simp

namespace Visitor

variable {ω γ : Type} {v : Visitor (Except InferenceError) ω} {es : List Expr}

theorem verdict_unsupported {form : String} (h : Node.of e = .unsupported form) :
    verdict (v.unsupported form e) = rejectUnsupported v.owns e := by
  obtain ⟨rfl, hcases⟩ := Node.outermostCases_of_unsupported h
  rw [rejectUnsupported, hcases, List.findSome?_singleton, unsupported]
  cases hiddenReference v.owns "CASE" e with
  | none => rfl
  | some error => rfl

/-- Expressions that a visitor refuses as the search does. -/
def Refuses (v : Visitor (Except InferenceError) ω) (es : List Expr) : Prop :=
  ∀ e ∈ es, verdict (v.accept e) = rejectUnsupported v.owns e

/-- Every family fails as its operands do, one after the other. -/
structure FailsInOrder (v : Visitor (Except InferenceError) ω) : Prop where
  equality : ∀ {es : List Expr} (null : Bool), v.Refuses es →
    verdict (v.equality (es.map v.visit) null) = es.forM (rejectUnsupported v.owns)
  disjunction : ∀ {left right : Expr}, v.Refuses [left, right] →
    verdict (v.disjunction (v.visit left) (v.visit right))
      = [left, right].forM (rejectUnsupported v.owns)
  conjunction : ∀ {es : List Expr}, v.Refuses es →
    verdict (v.conjunction (es.map v.visit)) = es.forM (rejectUnsupported v.owns)
  binary : ∀ {left right : Expr}, v.Refuses [left, right] →
    verdict (v.binary (v.visit left) (v.visit right))
      = [left, right].forM (rejectUnsupported v.owns)
  unary : ∀ {e : Expr}, v.Refuses [e] →
    verdict (v.unary (v.visit e)) = rejectUnsupported v.owns e
  collection : ∀ {es : List Expr}, v.Refuses es →
    verdict (v.collection (es.map v.visit)) = es.forM (rejectUnsupported v.owns)

/-- **A visitor that fails as its operands do refuses what is hidden.** -/
theorem FailsInOrder.verdict_accept (hv : v.FailsInOrder) (e : Expr) :
    verdict (v.accept e) = rejectUnsupported v.owns e := by
  induction e using Expr.induction_on_operands with
  | h e ih =>
    by_cases hform : ∃ form, Node.of e = .unsupported form
    · obtain ⟨form, hform⟩ := hform
      rw [accept_eq, hform]
      exact verdict_unsupported hform
    · rw [accept_eq, rejectUnsupported_of_operands fun form h => hform ⟨form, h⟩]
      have hoperands : v.Refuses (Node.of e).operands := ih
      generalize Node.of e = node at hform hoperands
      cases node with
      | localized ref => rfl
      | leaf => rfl
      | unsupported form => exact absurd ⟨form, rfl⟩ hform
      | equality operands null => exact hv.equality null hoperands
      | or left right => exact hv.disjunction hoperands
      | and conjuncts => exact hv.conjunction hoperands
      | binary left right => exact hv.binary hoperands
      | collection children => exact hv.collection hoperands
      | unary inner =>
        rw [Node.operands, forM_singleton]
        exact hv.unary hoperands

/-- **There is a result exactly where nothing is hidden.** -/
theorem FailsInOrder.accept_ok_iff (hv : v.FailsInOrder) {e : Expr} :
    (∃ r, v.accept e = .ok r) ↔ e.Exposes v.owns := by
  rw [← verdict_eq_ok, hv.verdict_accept, rejectUnsupported_eq_ok]

/-! ### Operands one after the other -/

/-- Operands that are folded fail with the first refusal. -/
theorem verdict_foldlM_visits (step : γ → ω → γ) (h : v.Refuses es) (acc : γ) :
    verdict ((es.map v.visit).foldlM (fun acc operand => do return step acc (← operand.result)) acc)
      = es.forM (rejectUnsupported v.owns) := by
  induction es generalizing acc with
  | nil => rfl
  | cons e rest ih =>
    obtain ⟨hfirst, hrest⟩ := List.forall_mem_cons.mp h
    rw [List.map_cons, List.foldlM_cons, bind_assoc, verdict_bind, forM_cons, ← hfirst]
    exact bind_of_forall_eq fun r => ih hrest (step acc r)

/-- Two operands fail with the first refusal. -/
theorem verdict_both {left right : Expr} (f : ω → ω → γ) (h : v.Refuses [left, right]) :
    verdict (do return f (← v.accept left) (← v.accept right))
      = [left, right].forM (rejectUnsupported v.owns) := by
  obtain ⟨hleft, hright⟩ := List.forall_mem_cons.mp h
  rw [forM_pair, ← hleft, ← hright right (List.mem_singleton_self _)]
  exact verdict_bind_both ..

/-- Operands that are only searched. -/
theorem forM_rejectUnsupported_visits :
    (es.map v.visit).forM (fun later => rejectUnsupported owns later.expr)
      = es.forM (rejectUnsupported owns) := by
  simp only [List.forM_eq_forM, List.forM_map]
  rfl

end Visitor

end LocalizedQuery
