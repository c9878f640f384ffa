import LocalizedQuery.Proofs.Inference.Ancestors
import LocalizedQuery.Proofs.Inference.KeyValue
import LocalizedQuery.Proofs.Inference.Table
import LocalizedQuery.Proofs.SourceOrder

/-!
# What inference fails for

Inference fails exactly for the references that stand in a `CASE`. Which one the error is about can
be told from the expression alone: going through it in source order, the first `CASE` that holds an
owned reference is refused, for the first owned reference in it. That `CASE` stands in no other one,
since the outer one would have been met before.

Inference goes by families: it leaves out `NULL` literals, takes nested conjunctions as one, and the
table backend infers only a part of a collection. The search of `rejectUnsupported` does none of
this. They agree as inference fails in the order of its operands (`Visitor.FailsInOrder`), and the
operands follow each other as they do in the source.

## Main results

* `rejectUnsupported_eq_error_iff` — the error of the search, from the expression alone
* `Visitor.fails_exactly_on_hidden` — inference fails where the search does, with the same error
-/

namespace LocalizedQuery

variable {owns : Reference → Bool} {error : InferenceError}

namespace Expr

variable {e part whole : Expr}

/-- A `CASE` in which a reference chosen by `owns` stands, however deep. -/
structure Hides (owns : Reference → Bool) (e : Expr) : Prop where
  isCase : e.isCase = true
  reference : ∃ ref, (Expr.localized ref).IsPart e ∧ owns ref = true

/-- The error about an expression that is a `CASE` and hides a reference. -/
def refusal? (owns : Reference → Bool) (e : Expr) : Option InferenceError :=
  if e.isCase then hiddenReference owns "CASE" e else none

theorem refusal?_eq_some_iff : e.refusal? owns = some error ↔
    e.isCase = true ∧ ∃ ref, FirstPart (IsChosen owns) (.localized ref) e ∧
      error = .unsupportedNode "CASE" ref.attributeName := by
  rw [refusal?, Option.ite_none_right_eq_some, hiddenReference, Option.map_eq_some_iff]
  simp only [findReference_eq_some_iff]
  exact and_congr_right fun _ => exists_congr fun _ => and_congr_right fun _ => eq_comm

/-- What is refused is what hides a reference. -/
theorem hides_iff (e : Expr) : e.Hides owns ↔ ∃ error, e.refusal? owns = some error := by
  constructor
  · rintro ⟨hcase, ref, hpart, howns⟩
    rw [refusal?, if_pos hcase, ← Option.ne_none_iff_exists']
    intro hnone
    rw [hiddenReference_eq_none_iff.mp hnone ref (mem_references_iff.mpr hpart)] at howns
    exact absurd howns Bool.false_ne_true
  · rintro ⟨error, h⟩
    obtain ⟨hcase, ref, hfirst, -⟩ := refusal?_eq_some_iff.mp h
    obtain ⟨other, heq, howns⟩ := hfirst.holds
    exact ⟨hcase, ref, hfirst.isPart, localized.inj heq ▸ howns⟩

theorem outermostCases_of_isCase (h : e.isCase = true) : e.outermostCases = [e] := by
  fun_cases isCase e
  · rfl
  · simp_all [isCase]

theorem isPart_of_mem_outermostCases {c : Expr} (h : c ∈ e.outermostCases) : c.IsPart e := by
  induction e using induction_on_children with
  | h e ih =>
    by_cases hcase : e.isCase = true
    · rw [outermostCases_of_isCase hcase, List.mem_singleton] at h
      exact h ▸ .here
    · rw [outermostCases_eq_flatMap (Node.of_ne_unsupported_iff.mpr (Bool.eq_false_iff.mpr hcase))]
        at h
      obtain ⟨child, hchild, h⟩ := List.mem_flatMap.mp h
      exact .under hchild (ih child hchild h)

/-- The error about the first `CASE` that hides a reference. -/
def firstRefusal? (owns : Reference → Bool) (e : Expr) : Option InferenceError :=
  e.outermostCases.findSome? (hiddenReference owns "CASE")

theorem findSome?_flatMap {α β γ : Type} (f : α → List β) (g : β → Option γ) (l : List α) :
    (l.flatMap f).findSome? g = l.findSome? fun a => (f a).findSome? g := by
  induction l with
  | nil => rfl
  | cons a rest ih =>
    rw [List.flatMap_cons, List.findSome?_append, ih, List.findSome?_cons]
    cases (f a).findSome? g <;> rfl

/-- Nothing is hidden where nothing is owned. -/
theorem exposes_of_not_owned (h : ∀ ref ∈ e.references, owns ref = false) : e.Exposes owns := by
  intro c hc
  refine hiddenReference_eq_none_iff.mpr fun ref href => h ref ?_
  exact mem_references_iff.mpr
    ((mem_references_iff.mp href).trans (isPart_of_mem_outermostCases hc))

theorem firstRefusal?_eq_none_iff : e.firstRefusal? owns = none ↔ e.Exposes owns :=
  List.findSome?_eq_none_iff

/-- The search asks every expression before its children. -/
theorem searches_refusal (owns : Reference → Bool) :
    Searches (refusal? owns) (firstRefusal? owns) := by
  intro e
  by_cases hcase : e.isCase = false
  · rw [refusal?, hcase, if_neg Bool.false_ne_true, Option.none_or, firstRefusal?,
      outermostCases_eq_flatMap (Node.of_ne_unsupported_iff.mpr hcase), findSome?_flatMap]
    rfl
  · rw [Bool.not_eq_false] at hcase
    rw [firstRefusal?, outermostCases_of_isCase hcase, List.findSome?_singleton, refusal?,
      if_pos hcase]
    cases hhidden : hiddenReference owns "CASE" e with
    | some error => rfl
    | none =>
      -- Where the `CASE` itself hides nothing, neither do those in it.
      rw [Option.none_or, eq_comm, List.findSome?_eq_none_iff]
      intro child hchild
      refine firstRefusal?_eq_none_iff.mpr (exposes_of_not_owned fun ref href => ?_)
      exact hiddenReference_eq_none_iff.mp hhidden ref (mem_references_step.mpr
        (.inr ⟨child, hchild, href⟩))

/-- The first `CASE` that hides a reference stands in no other one. -/
theorem mem_outermostCases_of_firstPart {c : Expr} (h : FirstPart (Hides owns) c e) :
    c ∈ e.outermostCases := by
  induction h with
  | here h =>
    rw [outermostCases_of_isCase h.isCase]
    exact List.mem_singleton_self _
  | @child before after e whole hself hchildren _ h ih =>
    have hchild : e ∈ whole.children := hchildren ▸ List.mem_append_right _ List.mem_cons_self
    have hcase : whole.isCase = false := by
      rw [Bool.eq_false_iff]
      intro hcase
      obtain ⟨ref, href, howns⟩ := h.holds.reference
      exact hself ⟨hcase, ref, .under hchild (href.trans h.isPart), howns⟩
    rw [outermostCases_eq_flatMap (Node.of_ne_unsupported_iff.mpr hcase)]
    exact List.mem_flatMap.mpr ⟨e, hchild, ih⟩

end Expr

/-! ## The error of the search -/

variable {e : Expr}

theorem rejectUnsupported_eq_error_iff_refusal :
    rejectUnsupported owns e = .error error ↔ e.firstRefusal? owns = some error := by
  rw [rejectUnsupported, Expr.firstRefusal?]
  cases e.outermostCases.findSome? (hiddenReference owns "CASE") <;> simp

/-- **The error of the search**: about the first owned reference in the first `CASE` that holds
one. -/
theorem rejectUnsupported_eq_error_iff :
    rejectUnsupported owns e = .error error ↔ ∃ (c : Expr) (ref : Reference),
      Expr.FirstPart (Expr.Hides owns) c e ∧
        Expr.FirstPart (Expr.IsChosen owns) (.localized ref) c ∧
        error = .unsupportedNode "CASE" ref.attributeName := by
  rw [rejectUnsupported_eq_error_iff_refusal,
    (Expr.searches_refusal owns).eq_some_iff Expr.hides_iff]
  refine exists_congr fun c => ?_
  rw [Expr.refusal?_eq_some_iff]
  constructor
  · rintro ⟨hfirst, -, ref, href, herror⟩
    exact ⟨ref, hfirst, href, herror⟩
  · rintro ⟨ref, hfirst, href, herror⟩
    exact ⟨hfirst, hfirst.holds.isCase, ref, href, herror⟩

/-- The search fails exactly where some `CASE` hides a reference. -/
theorem exists_rejectUnsupported_eq_error_iff :
    (∃ error, rejectUnsupported owns e = .error error) ↔
      ∃ c : Expr, c.IsPart e ∧ c.Hides owns := by
  simp only [rejectUnsupported_eq_error_iff_refusal]
  rw [← Option.ne_none_iff_exists', Ne, (Expr.searches_refusal owns).eq_none_iff,
    Classical.not_forall]
  refine exists_congr fun c => ?_
  rw [Classical.not_imp, ← Ne.eq_def, Option.ne_none_iff_exists', Expr.hides_iff]

/-- Nothing is hidden where no `CASE` hides a reference. -/
theorem Expr.exposes_iff_not_hides : e.Exposes owns ↔ ∀ c : Expr, c.IsPart e → ¬c.Hides owns := by
  have hrefused : (∃ error, rejectUnsupported owns e = .error error) ↔
      ∃ c : Expr, c.IsPart e ∧ c.Hides owns := exists_rejectUnsupported_eq_error_iff
  rw [← rejectUnsupported_eq_ok]
  constructor
  · intro hok c hpart hhides
    obtain ⟨error, herror⟩ := hrefused.mpr ⟨c, hpart, hhides⟩
    cases hok.symm.trans herror
  · intro hnone
    cases hresult : rejectUnsupported owns e with
    | ok => rfl
    | error error =>
      obtain ⟨c, hpart, hhides⟩ := hrefused.mp ⟨error, hresult⟩
      exact absurd hhides (hnone c hpart)

/-! ## Visitors -/

namespace Visitor

variable {ω : Type}

theorem failsInOrder_uniform (owns : Reference → Bool) (localized : Reference → ω)
    (combine : ω → ω → ω) (empty : ω) :
    (uniform owns localized combine empty).FailsInOrder where
  equality _ h := verdict_foldlM_visits combine h empty
  disjunction h := verdict_foldlM_visits combine h empty
  conjunction h := verdict_foldlM_visits combine h empty
  binary h := verdict_foldlM_visits combine h empty
  unary h := h _ (List.mem_singleton_self _)
  collection h := verdict_foldlM_visits combine h empty

/-- A visitor fails for an expression as the search for hidden references does. -/
structure FailsOnHidden (v : Visitor (Except InferenceError) ω) (e : Expr) : Prop where
  fails_iff_refused :
    (∃ error, v.accept e = .error error) ↔ ∃ error, rejectUnsupported v.owns e = .error error
  refused_iff_hidden :
    (∃ error, rejectUnsupported v.owns e = .error error) ↔ ∃ c : Expr, c.IsPart e ∧ c.Hides v.owns
  error_eq : ∀ error, v.accept e = .error error ↔ rejectUnsupported v.owns e = .error error
  /-- The error is about the first owned reference in the first outermost `CASE` that holds one. -/
  error_names_first : ∀ error, v.accept e = .error error → ∃ (c : Expr) (ref : Reference),
    Expr.FirstPart (Expr.Hides v.owns) c e ∧ c ∈ e.outermostCases ∧
      Expr.FirstPart (Expr.IsChosen v.owns) (.localized ref) c ∧
      error = .unsupportedNode "CASE" ref.attributeName
  succeeds_without_owned : (∀ ref, (Expr.localized ref).IsPart e → v.owns ref = false) →
    ∃ result, v.accept e = .ok result

theorem FailsInOrder.failsOnHidden {v : Visitor (Except InferenceError) ω} (hv : v.FailsInOrder)
    (e : Expr) : v.FailsOnHidden e := by
  have herror : ∀ error, v.accept e = .error error ↔ rejectUnsupported v.owns e = .error error := by
    intro error
    rw [← hv.verdict_accept, verdict_eq_error]
  exact {
    fails_iff_refused := exists_congr herror
    refused_iff_hidden := exists_rejectUnsupported_eq_error_iff
    error_eq := herror
    error_names_first := by
      intro error h
      obtain ⟨c, ref, hfirst, href, rfl⟩ :=
        rejectUnsupported_eq_error_iff.mp ((herror error).mp h)
      exact ⟨c, ref, hfirst, Expr.mem_outermostCases_of_firstPart hfirst, href, rfl⟩
    succeeds_without_owned := by
      intro hnone
      refine hv.accept_ok_iff.mpr (Expr.exposes_of_not_owned fun ref href => ?_)
      exact hnone ref (Expr.mem_references_iff.mp href) }

/-- **Inference fails exactly on hidden references**, for both kinds of backends and for every
visitor without a treatment of its own. -/
theorem fails_exactly_on_hidden :
    (∀ id locale e, (KeyValueBackend.visitor id locale).FailsOnHidden e) ∧
      (∀ id locale e, (TableBackend.visitor id locale).FailsOnHidden e) ∧
      ∀ (ω : Type) (owns : Reference → Bool) (localized : Reference → ω) (combine : ω → ω → ω)
        (empty : ω) (e : Expr), (uniform owns localized combine empty).FailsOnHidden e :=
  ⟨fun id locale e => (KeyValueBackend.failsInOrder id locale).failsOnHidden e,
    fun id locale e => (TableBackend.failsInOrder id locale).failsOnHidden e,
    fun _ owns localized combine empty e =>
      (failsInOrder_uniform owns localized combine empty).failsOnHidden e⟩

end Visitor

end LocalizedQuery
