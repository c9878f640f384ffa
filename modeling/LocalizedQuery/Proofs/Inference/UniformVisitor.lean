import LocalizedQuery.Proofs.Inference.HiddenReferences
import LocalizedQuery.Proofs.LocalizedModel
import LocalizedQuery.Proofs.Places

/-!
# Visitors without treatments of their own

By default every family is treated like a more general one, and in the end all of them are
collections whose results are combined from left to right. Where combining is associative and the
empty result is neutral, it cannot be told from the result how the expression was cut up into
families: what is left is the list of the references, in source order, and what each of them gives
(`Visitor.gathered`).

On the way to the operands nested conjunctions are taken as one, and `NULL` literals are left out.
So it has to be shown that no reference gets lost or out of order with this, which is the content of
`Node.references_of`.

## Main results

* `Visitor.accept_uniform_eq_ok` — what a visitor without treatments of its own computes
* `Visitor.uniform_visits_in_source_order` — it meets every owned reference once, in source order
-/

namespace LocalizedQuery

namespace Visitor

variable {ω : Type} {owns : Reference → Bool} {localized : Reference → ω} {combine : ω → ω → ω}
  {empty : ω}

/-- What the owned ones of some references give, combined from left to right. -/
def gathered (owns : Reference → Bool) (localized : Reference → ω) (combine : ω → ω → ω) (empty : ω)
    (refs : List Reference) : ω :=
  ((refs.filter owns).map localized).foldl combine empty

theorem gathered_of_not_owned {refs : List Reference} (h : ∀ ref ∈ refs, owns ref = false) :
    gathered owns localized combine empty refs = empty := by
  rw [gathered, List.filter_eq_nil_iff.mpr fun ref href => Bool.eq_false_iff.mp (h ref href)]
  rfl

variable [Std.LawfulIdentity combine empty]

theorem gathered_singleton (ref : Reference) :
    gathered owns localized combine empty [ref]
      = if owns ref then localized ref else empty := by
  cases h : owns ref with
  | true =>
    have hneutral : combine empty (localized ref) = localized ref :=
      Std.LawfulLeftIdentity.left_id _
    simp [gathered, h, hneutral]
  | false => simp [gathered, h]

variable [Std.Associative combine]

/-- The results of neighbours are combined. -/
theorem gathered_append (refs refs' : List Reference) :
    gathered owns localized combine empty (refs ++ refs')
      = combine (gathered owns localized combine empty refs)
          (gathered owns localized combine empty refs') := by
  have hneutral : combine (gathered owns localized combine empty refs) empty
      = gathered owns localized combine empty refs := Std.LawfulRightIdentity.right_id _
  calc gathered owns localized combine empty (refs ++ refs')
      = ((refs'.filter owns).map localized).foldl combine
          (gathered owns localized combine empty refs) := by
        rw [gathered, List.filter_append, List.map_append, List.foldl_append, gathered]
    _ = ((refs'.filter owns).map localized).foldl combine
          (combine (gathered owns localized combine empty refs) empty) := by rw [hneutral]
    _ = combine (gathered owns localized combine empty refs)
          (gathered owns localized combine empty refs') := List.foldl_assoc

/-! ## Families -/

/-- Operands are combined one after the other. -/
theorem gathered_foldlM {es : List Expr} {r : ω}
    (ih : ∀ operand ∈ es, ∀ r, (uniform owns localized combine empty).accept operand = .ok r →
      r = gathered owns localized combine empty operand.references)
    (h : (es.map (uniform owns localized combine empty).visit).foldlM
      (fun acc operand => do return combine acc (← operand.result)) empty = .ok r) :
    r = gathered owns localized combine empty (es.flatMap Expr.references) := by
  refine foldlM_visits combine (P := fun done r =>
    r = gathered owns localized combine empty (done.flatMap Expr.references)) ?_ rfl h
  rintro done e hmem _ r rfl hr
  rw [List.flatMap_append, List.flatMap_singleton, gathered_append, ← ih e hmem r hr]

/-- The result for a family follows from the results for its operands. -/
theorem gathered_handle {e : Expr} {node : Node Expr} {r : ω}
    (hsees : ∀ form, node ≠ .unsupported form)
    (ih : ∀ operand ∈ node.operands, ∀ r,
      (uniform owns localized combine empty).accept operand = .ok r →
      r = gathered owns localized combine empty operand.references)
    (h : (uniform owns localized combine empty).handle e
      (node.map (uniform owns localized combine empty).visit) = .ok r) :
    r = gathered owns localized combine empty node.references := by
  cases node with
  | localized ref =>
    rw [Node.map, handle, pure_eq_ok] at h
    rw [← h, Node.references, gathered_singleton]
    rfl
  | leaf =>
    rw [Node.map, handle, pure_eq_ok] at h
    exact h.symm
  | unsupported form => exact absurd rfl (hsees form)
  | unary inner =>
    have hinner := ih inner (by simp [Node.operands]) r h
    simpa [Node.references, Node.operands] using hinner
  | equality operands null => exact gathered_foldlM ih h
  | or left right => exact gathered_foldlM ih h
  | and conjuncts => exact gathered_foldlM ih h
  | binary left right => exact gathered_foldlM ih h
  | collection children => exact gathered_foldlM ih h

/-! ## Expressions -/

/-- The result for an expression comes from its references. -/
theorem gathered_accept {e : Expr} {r : ω}
    (h : (uniform owns localized combine empty).accept e = .ok r) :
    r = gathered owns localized combine empty e.references := by
  refine accept_induction (motive := fun e r =>
    r = gathered owns localized combine empty e.references) ?_ ?_ h
  · intro e hsees ih r h
    rw [← Node.references_of hsees]
    exact gathered_handle hsees ih h
  · intro e form _ hnone
    exact (gathered_of_not_owned hnone).symm

/-- **What a visitor without treatments of its own computes**, wherever nothing is hidden. -/
theorem accept_uniform_eq_ok {e : Expr} (h : e.Exposes owns) :
    (uniform owns localized combine empty).accept e
      = .ok (gathered owns localized combine empty e.references) := by
  obtain ⟨r, hr⟩ := (failsInOrder_uniform owns localized combine empty).accept_ok_iff.mpr h
  rw [hr, gathered_accept hr]

/-- **Every owned reference is met once, in source order.** The occurrences of owned references are
listed depth first, each with its place; so the places increase, and the list has exactly the places
at which an owned reference stands. Where no `CASE` hides one, the result combines from left to
right what the occurrences give. The first owned reference is that of the first occurrence. -/
theorem uniform_visits_in_source_order (owns : Reference → Bool) (localized : Reference → ω)
    (combine : ω → ω → ω) (empty : ω) [Std.Associative combine] [Std.LawfulIdentity combine empty]
    (e : Expr) :
    ((e.occurrences owns).Pairwise fun a b => a.1 < b.1) ∧
    (∀ path ref, (path, ref) ∈ e.occurrences owns ↔
      e.partAt? path = some (.localized ref) ∧ owns ref = true) ∧
    ((∀ c : Expr, c.IsPart e → ¬c.Hides owns) →
      (uniform owns localized combine empty).accept e
        = .ok ((((e.occurrences owns).map Prod.snd).map localized).foldl combine empty)) ∧
    e.findReference owns = ((e.occurrences owns).map Prod.snd).head? := by
  refine ⟨e.pairwise_occurrences owns, fun path ref => Expr.mem_occurrences, fun hhides => ?_, ?_⟩
  · rw [accept_uniform_eq_ok (Expr.exposes_iff_not_hides.mpr hhides), gathered,
      Expr.references_occurrences]
  · rw [Expr.references_occurrences, List.head?_filter, Expr.findReference]

/-- Titles and a subtitle in nested conjunctions, beside `NULL`s that are left out and a `CASE` that
hides what another backend keeps. -/
def titlesAndBody : Expr :=
  let body := .localized (LocalizedModel.postBodies.reference "body" ⟨"en"⟩)
  (LocalizedModel.postTitle.equals (.literal .null)).both
    ((Expr.inList LocalizedModel.postSubtitle [.literal .null, LocalizedModel.postTitle] false).both
      (.unary .not (.isNull (.caseOf none [(body, .text "x")] none) false)))

/-- The names of the titles and the subtitle, listed. -/
theorem uniform_visits_titlesAndBody :
    (∀ c : Expr, c.IsPart titlesAndBody →
      ¬c.Hides (Reference.belongsTo LocalizedModel.postTitles.id ⟨"en"⟩)) ∧
    (uniform (Reference.belongsTo LocalizedModel.postTitles.id ⟨"en"⟩)
      (fun ref => [ref.attributeName]) (· ++ ·) []).accept titlesAndBody
        = .ok ["title", "subtitle", "title"] ∧
    titlesAndBody.findReference (Reference.belongsTo LocalizedModel.postTitles.id ⟨"en"⟩)
      = some (LocalizedModel.postTitles.reference "title" ⟨"en"⟩) := by
  obtain ⟨-, -, hresult, hfirst⟩ := uniform_visits_in_source_order
    (Reference.belongsTo LocalizedModel.postTitles.id ⟨"en"⟩)
    (fun ref => [ref.attributeName]) (· ++ ·) [] titlesAndBody
  have hhides : ∀ c : Expr, c.IsPart titlesAndBody →
      ¬c.Hides (Reference.belongsTo LocalizedModel.postTitles.id ⟨"en"⟩) :=
    Expr.exposes_iff_not_hides.mp (rejectUnsupported_eq_ok.mp rfl)
  rw [Expr.references_occurrences] at hresult hfirst
  exact ⟨hhides, hresult hhides, hfirst⟩

end Visitor

end LocalizedQuery
