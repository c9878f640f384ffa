import LocalizedQuery.Proofs.Evaluation.Instances
import LocalizedQuery.Proofs.Inference.Ancestors
import LocalizedQuery.Proofs.LocalizedModel

/-!
# When a table is joined outer

A backend with one join for all its attributes settles the need anew at every `=` and `IN`, from
whether there is a reference below and not from what was needed there. Hence of the ancestors of a
reference only the outermost that settles the need counts (`Expr.settles`), and an outer join is
found exactly if for some reference that one may hold although the row is missing, or there is none.

An outer need is therefore kept by all that does not settle: `AND`, `NOT`, parentheses, the other
comparisons, `NOT IN`, `BETWEEN` and functions. It is lost inside an `=` or an `IN`
(`TableBackend.equality_demotes_outer`), and with it the records that hold because they have no row.
A key-value backend keeps it there, too (`KeyValueBackend.kind_infer_eq_outer_iff`).

## Main results

* `TableBackend.outer_iff` — when the join is outer, and where an outer need is kept
* `TableBackend.equality_demotes_outer` — where it is lost
-/

namespace LocalizedQuery

namespace TableBackend

variable {b : TableBackend} {predicate : Expr} {locale : Locale} {found : Option JoinKind}

/-- The outermost ancestor that settles the need is one that tolerates a missing row, if none above
that one settles it. -/
theorem find?_settles_of_kept {above : List Expr} (below : List Expr) {ancestor : Expr}
    (htolerates : ancestor.toleratesMissing = true)
    (habove : ∀ other ∈ above, other.settles = true → other.toleratesMissing = true) :
    ((above ++ ancestor :: below).find? Expr.settles).all Expr.toleratesMissing = true := by
  rw [List.find?_append]
  cases hfind : above.find? Expr.settles with
  | some other =>
    exact habove other (List.mem_of_find?_eq_some hfind) (List.find?_some hfind)
  | none =>
    rw [Option.none_or,
      List.find?_cons_of_pos (Expr.settles_of_toleratesMissing htolerates)]
    exact htolerates

/-- What was found is outer by the ancestors of a reference. -/
theorem eq_outer_iff_ancestors (h : b.infer predicate locale = .ok found) :
    found = some .outer ↔
      ∃ (ref : Reference) (ancestors : List Expr), ref.belongsTo b.id locale = true ∧
        (Expr.localized ref).StandsUnder ancestors predicate ∧
        (ancestors.find? Expr.settles).all Expr.toleratesMissing = true := by
  have hexposes : predicate.Exposes (Reference.belongsTo b.id locale) :=
    accept_ok_iff.mp ⟨_, h⟩
  rw [infer_eq h, kindAmong_eq_outer_iff, List.any_eq_true]
  constructor
  · rintro ⟨ref, href, howns⟩
    obtain ⟨ancestors, hunder, hoptional⟩ := (hexposes.mem_optionalReferences_iff howns).mp href
    rw [Expr.optionalUnder_true] at hoptional
    exact ⟨ref, ancestors, howns, hunder, hoptional⟩
  · rintro ⟨ref, ancestors, howns, hunder, hoptional⟩
    rw [← Expr.optionalUnder_true] at hoptional
    have hmem := (hexposes.mem_optionalReferences_iff howns).mpr ⟨ancestors, hunder, hoptional⟩
    exact ⟨ref, hmem, howns⟩

/-- **When the join is outer.** Some reference has no ancestor that settles the need, or the
outermost that does tolerates a missing row. In particular an outer need is kept by every ancestor
that does not settle it. -/
theorem outer_iff (h : b.infer predicate locale = .ok found) :
    (found = some .outer ↔
      ∃ (ref : Reference) (ancestors : List Expr), ref.belongsTo b.id locale = true ∧
        (Expr.localized ref).StandsUnder ancestors predicate ∧
        (ancestors.find? Expr.settles).all Expr.toleratesMissing = true) ∧
    ∀ (ref : Reference) (above below : List Expr) (ancestor : Expr),
      ref.belongsTo b.id locale = true →
      (Expr.localized ref).StandsUnder (above ++ ancestor :: below) predicate →
      ancestor.toleratesMissing = true →
      (∀ other ∈ above, other.settles = true → other.toleratesMissing = true) →
      found = some .outer := by
  refine ⟨eq_outer_iff_ancestors h, fun ref above below ancestor howns hunder htolerates habove => ?_⟩
  have hkept := find?_settles_of_kept below htolerates habove
  exact (eq_outer_iff_ancestors h).mpr ⟨ref, _, howns, hunder, hkept⟩

/-- The body of a post in English. -/
def postBody : Expr := .localized (LocalizedModel.postBodies.reference "body" ⟨"en"⟩)

/-- There is a body, and it is `x`. -/
def bodyWithText : Expr :=
  (Expr.unary .not (.isNull postBody false)).both (postBody.equals (.text "x"))

/-- `NOT` and `AND` keep the outer need of the test for `NULL`. -/
theorem outer_bodyWithText :
    ∃ found, LocalizedModel.postBodies.infer bodyWithText ⟨"en"⟩ = .ok found ∧
      found = some .outer := by
  obtain ⟨found, hfound⟩ : ∃ found, LocalizedModel.postBodies.infer bodyWithText ⟨"en"⟩
      = .ok found := accept_ok_iff.mpr (by simp [Expr.Exposes, bodyWithText, Expr.both, Expr.equals,
        Expr.outermostCases, postBody, Expr.text])
  refine ⟨found, hfound, (outer_iff hfound).2
    (LocalizedModel.postBodies.reference "body" ⟨"en"⟩)
    [bodyWithText, .unary .not (.isNull postBody false)] [] (.isNull postBody false)
    rfl ?_ rfl (by simp [bodyWithText, Expr.both, Expr.settles])⟩
  exact .child (List.mem_cons_self ..) (.child (List.mem_singleton_self _)
    (.child (List.mem_singleton_self _) .here))

/-- That there is no body is true. -/
def bodyMissing : Expr := (Expr.paren (.isNull postBody false)).equals (.literal (.bool true))

/-- An `=` loses the outer need of the test for `NULL` in it: the join is inner, though the
predicate holds for records without a row. -/
theorem equality_demotes_outer :
    (LocalizedModel.postBodies.reference "body" ⟨"en"⟩).belongsTo LocalizedModel.postBodies.id
        ⟨"en"⟩ = true ∧
      postBody.StandsUnder
        [bodyMissing, .paren (.isNull postBody false), .isNull postBody false] bodyMissing ∧
      (Expr.isNull postBody false).toleratesMissing = true ∧
      LocalizedModel.postBodies.infer bodyMissing ⟨"en"⟩ = .ok (some .inner) ∧
      ¬bodyMissing.NeedsRow "post_translations_en" := by
  have hexposes : bodyMissing.Exposes (Reference.belongsTo LocalizedModel.postBodies.id ⟨"en"⟩) :=
    rejectUnsupported_eq_ok.mp rfl
  refine ⟨rfl, ?_, rfl, infer_eq_ok hexposes, fun hneeds =>
    hneeds .texts .missing rfl (by decide +kernel)⟩
  exact .child (List.mem_cons_self ..) (.child (List.mem_singleton_self _)
    (.child (List.mem_singleton_self _) .here))

end TableBackend

end LocalizedQuery
