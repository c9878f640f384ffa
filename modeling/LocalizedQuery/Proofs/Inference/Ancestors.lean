import LocalizedQuery.Proofs.Inference.Occurrences

/-!
# What stands above a reference

Which references inference regards as optional (`Expr.optionalReferences`) is computed from the
leaves up. Seen from a single reference it is a question about its ancestors, the expressions on the
way down to it: whether one of them may hold although the row is missing (`Expr.toleratesMissing`).
A backend that joins once for all its attributes sees less of the way: of an ancestor that settles
the need (`Expr.settles`) it does not look below, so only the outermost of these matters.

What stands in a `CASE` is not collected. Where inference succeeds no owned reference does, so the
answer from the ancestors is complete for those (`Expr.Exposes.mem_optionalReferences_iff`).

## Main results

* `Expr.Exposes.mem_optionalReferences_iff` — a reference is optional by its ancestors
* `Expr.optionalUnder_false`, `Expr.optionalUnder_true` — which ancestors decide
-/

namespace LocalizedQuery

namespace Expr

variable {e part whole : Expr} {ref : Reference} {ancestors : List Expr} {bare : Bool}
  {owns : Reference → Bool}

/-! ## Ancestors -/

/-- `part` stands in an expression, under `ancestors`. These lead from the whole expression down to
the one that has `part` as a child. -/
inductive StandsUnder (part : Expr) : List Expr → Expr → Prop
  | here : StandsUnder part [] part
  | child {ancestors : List Expr} {e whole : Expr} :
      e ∈ whole.children → StandsUnder part ancestors e → StandsUnder part (whole :: ancestors) whole

/-- Every part stands under some ancestors. -/
theorem isPart_iff_standsUnder :
    part.IsPart whole ↔ ∃ ancestors, part.StandsUnder ancestors whole := by
  constructor
  · intro h
    induction h with
    | here => exact ⟨[], .here⟩
    | under hchild _ ih =>
      obtain ⟨ancestors, h⟩ := ih
      exact ⟨_, .child hchild h⟩
  · rintro ⟨ancestors, h⟩
    induction h with
    | here => exact .here
    | child hchild _ ih => exact .under hchild ih

/-- An expression that may hold although a row below it is missing: an `OR`, a comparison by `=`
with the literal `NULL`, an `IS NULL`. -/
def toleratesMissing : Expr → Bool
  | .binary .or _ _ => true
  | .binary .eq left right => left.isNullLiteral || right.isNullLiteral
  | .isNull _ negated => !negated
  | _ => false

/-- An expression of which a backend with one join asks only whether it has a reference: an `OR`, an
`=`, an `IS NULL`, an `IN`. -/
def settles : Expr → Bool
  | .binary .or _ _ | .binary .eq _ _ => true
  | .isNull _ negated | .inList _ _ negated => !negated
  | _ => false

theorem settles_of_toleratesMissing (h : e.toleratesMissing = true) : e.settles = true := by
  fun_cases toleratesMissing e <;> simp_all [toleratesMissing, settles]

/-- Whether a reference under these ancestors is regarded as optional. -/
def optionalUnder (bare : Bool) : List Expr → Bool
  | [] => bare
  | e :: rest => e.toleratesMissing || (!(bare && e.settles) && optionalUnder bare rest)

/-- Without bare references any ancestor may make a reference optional. -/
theorem optionalUnder_false (ancestors : List Expr) :
    optionalUnder false ancestors = ancestors.any toleratesMissing := by
  induction ancestors with
  | nil => rfl
  | cons e rest ih => simp [optionalUnder, ih]

/-- With bare references the outermost ancestor that settles the need decides. -/
theorem optionalUnder_true (ancestors : List Expr) :
    optionalUnder true ancestors = (ancestors.find? settles).all toleratesMissing := by
  induction ancestors with
  | nil => rfl
  | cons e rest ih =>
    rw [optionalUnder, List.find?_cons, ih]
    cases hsettles : e.settles with
    | true => simp
    | false =>
      have htolerates : e.toleratesMissing = false :=
        Bool.eq_false_iff.mpr fun h => by simp [settles_of_toleratesMissing h] at hsettles
      simp [htolerates]

/-! ## One step down -/

theorem optionalReferences_of_toleratesMissing (h : e.toleratesMissing = true) :
    e.optionalReferences bare = e.references := by
  fun_cases toleratesMissing e <;>
    simp_all [toleratesMissing, optionalReferences, references]

/-- Below an ancestor that tolerates no missing row a reference is optional as it is in the child
that it stands in, unless the ancestor settles the need. -/
theorem mem_optionalReferences_step (hsees : ∀ form, Node.of e ≠ .unsupported form)
    (h : e.toleratesMissing = false) :
    ref ∈ e.optionalReferences bare ↔ (.localized ref = e ∧ bare = true) ∨
      ((bare && e.settles) = false ∧ ∃ child ∈ e.children, ref ∈ child.optionalReferences bare) := by
  cases e with
  | localized other => cases bare <;> simp [optionalReferences, children]
  | binary op left right =>
    cases op <;> cases bare <;> simp_all [toleratesMissing, settles, optionalReferences, children]
  | isNull inner negated => simp_all [toleratesMissing, settles, optionalReferences, children]
  | caseOf => exact absurd rfl (hsees "CASE")
  | inList operand values negated =>
    cases bare <;> cases negated <;>
      simp [settles, optionalReferences, children, optionalReferencesOfList_eq_flatMap]
  | _ => simp [settles, optionalReferences, children, optionalReferencesOfList_eq_flatMap]

/-- Where the whole is no `CASE`, its outermost `CASE`s are those of its children. -/
theorem outermostCases_eq_flatMap (hsees : ∀ form, Node.of e ≠ .unsupported form) :
    e.outermostCases = e.children.flatMap outermostCases := by
  cases e with
  | caseOf => exact absurd rfl (hsees "CASE")
  | _ => simp [children, outermostCases, outermostCasesOfList_eq_flatMap]

/-! ## The whole way -/

/-- An owned reference stands in no `CASE` where nothing is hidden. -/
theorem Exposes.not_mem_references (h : e.Exposes owns) (howns : owns ref = true) :
    ∀ c ∈ e.outermostCases, ref ∉ c.references := by
  intro c hc href
  rw [hiddenReference_eq_none_iff.mp (h c hc) ref href] at howns
  exact absurd howns Bool.false_ne_true

theorem mem_optionalReferences_of_standsUnder (h : (Expr.localized ref).StandsUnder ancestors e)
    (hseen : ∀ c ∈ e.outermostCases, ref ∉ c.references)
    (hoptional : optionalUnder bare ancestors = true) : ref ∈ e.optionalReferences bare := by
  induction h with
  | here =>
    have hbare : bare = true := hoptional
    rw [optionalReferences, if_pos hbare]
    exact List.mem_singleton_self ref
  | @child ancestors e whole hchild h ih =>
    have hwhole : ref ∈ whole.references := mem_references_iff.mpr
      (isPart_iff_standsUnder.mpr ⟨_, .child hchild h⟩)
    have hsees : ∀ form, Node.of whole ≠ .unsupported form := by
      intro form hform
      obtain ⟨-, hcase⟩ := Node.outermostCases_of_unsupported hform
      exact hseen whole (by rw [hcase]; exact List.mem_singleton_self whole) hwhole
    by_cases htolerates : whole.toleratesMissing = true
    · rwa [optionalReferences_of_toleratesMissing htolerates]
    · rw [Bool.not_eq_true] at htolerates
      rw [optionalUnder, htolerates, Bool.false_or, Bool.and_eq_true, Bool.not_eq_true'] at hoptional
      refine (mem_optionalReferences_step hsees htolerates).mpr (.inr ⟨hoptional.1, e, hchild, ?_⟩)
      refine ih (fun c hc => hseen c ?_) hoptional.2
      rw [outermostCases_eq_flatMap hsees]
      exact List.mem_flatMap.mpr ⟨e, hchild, hc⟩

theorem exists_standsUnder_of_mem_optionalReferences (h : ref ∈ e.optionalReferences bare) :
    ∃ ancestors, (Expr.localized ref).StandsUnder ancestors e ∧
      optionalUnder bare ancestors = true := by
  induction e using induction_on_children with
  | h e ih =>
    by_cases htolerates : e.toleratesMissing = true
    · rw [optionalReferences_of_toleratesMissing htolerates, mem_references_iff,
        isPart_iff_standsUnder] at h
      obtain ⟨ancestors, hunder⟩ := h
      cases hunder with
      | here => exact absurd htolerates Bool.false_ne_true
      | child hchild hunder =>
        exact ⟨_, .child hchild hunder, by rw [optionalUnder, htolerates, Bool.true_or]⟩
    · rw [Bool.not_eq_true] at htolerates
      have hsees : ∀ form, Node.of e ≠ .unsupported form := by
        intro form hform
        rw [← Node.optionalReferences_of, hform] at h
        exact List.not_mem_nil h
      obtain ⟨rfl, hbare⟩ | ⟨hsettles, child, hchild, hmem⟩ :=
        (mem_optionalReferences_step hsees htolerates).mp h
      · exact ⟨[], .here, hbare⟩
      · obtain ⟨ancestors, hunder, hoptional⟩ := ih child hchild hmem
        exact ⟨e :: ancestors, .child hchild hunder,
          by rw [optionalUnder, htolerates, hsettles, hoptional]; rfl⟩

/-- **A reference is optional by its ancestors.** -/
theorem Exposes.mem_optionalReferences_iff (h : e.Exposes owns) (howns : owns ref = true) :
    ref ∈ e.optionalReferences bare ↔
      ∃ ancestors, (Expr.localized ref).StandsUnder ancestors e ∧
        optionalUnder bare ancestors = true := by
  constructor
  · exact exists_standsUnder_of_mem_optionalReferences
  · rintro ⟨ancestors, hunder, hoptional⟩
    exact mem_optionalReferences_of_standsUnder hunder (h.not_mem_references howns) hoptional

end Expr

end LocalizedQuery
