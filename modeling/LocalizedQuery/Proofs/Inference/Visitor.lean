import LocalizedQuery.Proofs.Inference.Occurrences
import LocalizedQuery.Proofs.Results

/-!
# Running a visitor

A visitor that may fail gives a result for an expression from its results for the operands. Whatever
it computes, what is true of its results only has to be shown for one family at a time, and for a
`CASE` that hides nothing (`Visitor.accept_induction`).

## Main results

* `Visitor.accept_induction` — what every family preserves is true of every result
* `Visitor.foldlM_visits` — what one operand after the other preserves
-/

namespace LocalizedQuery

namespace Visitor

variable {ω γ : Type} {v : Visitor (Except InferenceError) ω} {es : List Expr}

/-- The visit of an operand. -/
def visit (v : Visitor (Except InferenceError) ω) (e : Expr) : Visit (Except InferenceError) ω :=
  ⟨e, v.accept e⟩

/-- A visitor that has no treatment of its own for any family. -/
def uniform (owns : Reference → Bool) (localized : Reference → ω) (combine : ω → ω → ω)
    (empty : ω) : Visitor (Except InferenceError) ω where
  owns := owns
  localized := localized
  combine := combine
  empty := empty

/-! ## All expressions -/

/-- **What every family preserves is true of every result.** -/
theorem accept_induction {motive : Expr → ω → Prop}
    (hhandle : ∀ e, (∀ form, Node.of e ≠ .unsupported form) →
      (∀ operand ∈ (Node.of e).operands, ∀ r, v.accept operand = .ok r → motive operand r) →
      ∀ r, v.handle e ((Node.of e).map v.visit) = .ok r → motive e r)
    (hempty : ∀ e form, Node.of e = .unsupported form →
      (∀ ref ∈ e.references, v.owns ref = false) → motive e v.empty)
    {e : Expr} {r : ω} (h : v.accept e = .ok r) : motive e r := by
  induction e using Expr.induction_on_operands generalizing r with
  | h e ih =>
    rw [accept_eq] at h
    by_cases hform : ∃ form, Node.of e = .unsupported form
    · obtain ⟨form, hform⟩ := hform
      rw [hform, Node.map, handle, unsupported] at h
      cases hhidden : hiddenReference v.owns form e with
      | some error => simp [hhidden, throw, throwThe, MonadExceptOf.throw] at h
      | none =>
        simp only [hhidden, pure_eq_ok] at h
        rw [← h]
        exact hempty e form hform (hiddenReference_eq_none_iff.mp hhidden)
    · have hsees : ∀ form, Node.of e ≠ .unsupported form := fun form h => hform ⟨form, h⟩
      exact hhandle e hsees (fun operand hmem r => ih operand hmem) r h

/-! ## One operand after the other -/

/-- **What one operand after the other preserves**, indexed by the operands so far. -/
theorem foldlM_visits (step : γ → ω → γ) {P : List Expr → γ → Prop} {acc result : γ}
    (hstep : ∀ done, ∀ e ∈ es, ∀ acc r, P done acc → v.accept e = .ok r →
      P (done ++ [e]) (step acc r))
    (hacc : P [] acc)
    (h : (es.map v.visit).foldlM (fun acc operand => do return step acc (← operand.result)) acc
      = .ok result) : P es result := by
  rw [List.foldlM_map] at h
  refine foldlM_invariant (fun done e hmem acc acc' hdone hacc' => ?_) hacc h
  obtain ⟨r, hr, heq⟩ := bind_eq_ok.mp hacc'
  rw [pure_eq_ok] at heq
  rw [← heq]
  exact hstep done e hmem acc r hdone hr

end Visitor

end LocalizedQuery
