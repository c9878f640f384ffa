import LocalizedQuery.Proofs.Closure
import LocalizedQuery.Proofs.Restriction

/-!
# Backend by backend

A query is restricted by planning all backends first and attaching the joins afterwards. The same
query comes about when each backend plans and attaches before the next one plans, since a plan looks
at the predicate alone and not at the query. The two also fail alike: either way the first backend
that has no plan decides, and joins that were attached before it are lost with the query.

Texts add nothing of their own. To compile one is to restrict all records by what it denotes, and a
text that denotes nothing fails before anything is planned.

## Main results

* `LocalizedModel.plan_applied` — plans attached at the end or on the way
* `LocalizedModel.query_compile` — the query of a text
* `LocalizedModel.whereClause_backendwise` — all ways to restrict a query agree
-/

namespace LocalizedQuery

/-- Parts that are made first and used in order afterwards may as well be made where they are
used. -/
theorem mapM_map_foldl {ε α β γ : Type} (make : α → Except ε β) (use : γ → β → γ) (xs : List α)
    (acc : γ) :
    (xs.mapM make).map (List.foldl use acc)
      = xs.foldlM (fun acc x => (make x).map (use acc)) acc := by
  induction xs generalizing acc with
  | nil => rfl
  | cons x rest ih =>
    rw [List.mapM_cons, List.foldlM_cons]
    cases make x with
    | error e => rfl
    | ok part =>
      calc ((do return part :: (← rest.mapM make)) : Except ε (List β)).map (List.foldl use acc)
          = (rest.mapM make).map (List.foldl use (use acc part)) := by
            cases rest.mapM make <;> rfl
        _ = rest.foldlM (fun acc x => (make x).map (use acc)) (use acc part) := ih _

namespace Query

/-- Plans in a row are attached one after the other. -/
theorem applyPlan_flatMap {β : Type} (q : Query) (part : β → List JoinRequirement) (xs : List β) :
    q.applyPlan (xs.flatMap part) = xs.foldl (fun q x => q.applyPlan (part x)) q :=
  List.foldl_flatMap

end Query

namespace LocalizedModel

variable {t : LocalizedModel} {predicate : Expr} {locale : Locale} {invert : Bool}

/-- **Plans attached at the end or on the way.** The query, or the first error, is the same. -/
theorem plan_applied (q : Query) :
    (t.plan predicate locale invert).map q.applyPlan
      = t.backends.foldlM (fun q b => b.applyJoins q predicate locale invert) q := by
  have hparts : (t.plan predicate locale invert).map q.applyPlan
      = (t.planByBackend predicate locale invert).map
          (List.foldl (fun q part => q.applyPlan part.2) q) := by
    rw [plan]
    cases t.planByBackend predicate locale invert with
    | error e => rfl
    | ok parts => exact congrArg Except.ok (q.applyPlan_flatMap Prod.snd parts)
  have hstep : ∀ (q : Query) (b : Backend),
      ((do return (b, ← b.planJoins predicate locale invert)) :
          Except InferenceError (Backend × List JoinRequirement)).map
        (fun part => q.applyPlan part.2) = b.applyJoins q predicate locale invert := by
    intro q b
    rw [Backend.applyJoins]
    cases b.planJoins predicate locale invert <;> rfl
  rw [hparts, planByBackend, mapM_map_foldl]
  simp only [hstep]

/-- To restrict is to attach and then to ask for the predicate. -/
theorem whereClause_eq_map (q : Query) :
    t.whereClause q predicate locale invert
      = ((t.plan predicate locale invert).map q.applyPlan).map
          fun q => q.filterBy predicate invert := by
  rw [whereClause]
  cases t.plan predicate locale invert <;> rfl

/-- **The query of a text** restricts all records by the predicate that the text denotes. -/
theorem query_compile (t : LocalizedModel) (text : String) (options : CompileOptions) :
    (t.compile text options).map Compilation.query
      = ((t.parse text options.locale).mapError CompileError.predicate).bind fun predicate =>
          (t.whereClause t.model.baseQuery predicate options.locale options.invert).mapError
            CompileError.inference := by
  rw [compile]
  cases t.parse text options.locale with
  | error e => rfl
  | ok predicate =>
    have hplanned : t.whereClause t.model.baseQuery predicate options.locale options.invert
        = (t.planByBackend predicate options.locale options.invert).map fun parts =>
            (t.model.baseQuery.applyPlan (parts.flatMap Prod.snd)).filterBy predicate
              options.invert := by
      rw [whereClause, plan]
      cases t.planByBackend predicate options.locale options.invert <;> rfl
    simp only [Except.bind, Except.mapError, bind, hplanned]
    cases t.planByBackend predicate options.locale options.invert <;> rfl

/-- **All ways to restrict a query agree,** in the query and in the first error. To restrict a query
is to let each backend attach its joins in the order in which the backends were attached, and then
to ask once for the predicate or its negation. A model with one backend restricts as the backend
does. To compile a text is to restrict all records by what it denotes, and it fails as reading the
text fails, or as restricting does. -/
theorem whereClause_backendwise :
    (∀ (t : LocalizedModel) (q : Query) (predicate : Expr) (locale : Locale) (invert : Bool),
      t.whereClause q predicate locale invert
        = (t.backends.foldlM
            (fun q (b : Backend) => b.applyJoins q predicate locale invert) q).map fun q =>
            q.filter (if invert then predicate.inverted else predicate)) ∧
    (∀ (model : Model) (b : Backend) (q : Query) (predicate : Expr) (locale : Locale)
        (invert : Bool),
      whereClause { model := model, backends := [b] } q predicate locale invert
        = b.whereClause q predicate locale invert) ∧
    ∀ (t : LocalizedModel) (text : String) (options : CompileOptions),
      (t.compile text options).map Compilation.query
        = ((t.parse text options.locale).mapError CompileError.predicate).bind fun predicate =>
            (t.whereClause t.model.baseQuery predicate options.locale options.invert).mapError
              CompileError.inference := by
  have hbackends : ∀ (t : LocalizedModel) (q : Query) (predicate : Expr) (locale : Locale)
      (invert : Bool),
      t.whereClause q predicate locale invert
        = (t.backends.foldlM
            (fun q (b : Backend) => b.applyJoins q predicate locale invert) q).map fun q =>
            q.filterBy predicate invert := by
    intro t q predicate locale invert
    rw [whereClause_eq_map, plan_applied]
  refine ⟨hbackends, fun model b q predicate locale invert => ?_, query_compile⟩
  rw [hbackends, List.foldlM_cons, Backend.whereClause]
  cases b.applyJoins q predicate locale invert <;> rfl

end LocalizedModel

end LocalizedQuery
