import LocalizedQuery.Proofs.Evaluation.Fragment
import LocalizedQuery.Proofs.Inference.Occurrences

/-!
# Where an inner join is safe

Inference makes a join inner if the references that it serves stand nowhere that it regards as
optional. For predicates without negation, over conditions on columns, literals and references, that
is right: such a predicate cannot hold where the row is missing.

A comparison with a reference is unknown where the row is missing, and so is everything that is
built upon it in a conjunction. What might still hold is what inference calls optional: the other
side of an `OR`, and the comparisons with `NULL`.

## Main results

* `Expr.Positive.holds_not_mem_outlook` — an inner join is found only where the row is needed
-/

namespace LocalizedQuery

variable {e left right : Expr} {op : BinaryOperator} {p : Reference → Bool} {bare : Bool}
  {joined : String}

namespace Expr

/-! ## Leaves -/

theorem IsPlain.references_eq (h : e.IsPlain) : e.references = [] := by
  cases h <;> rfl

/-- A leaf that refers to a missing row is unknown. -/
theorem IsLeaf.outlook_eq (h : e.IsLeaf)
    (hnames : ∀ ref ∈ e.references, p ref = true → ref.table = joined)
    (hany : e.references.any p = true) : e.outlook joined = {.unknown} := by
  cases h with
  | plain h => simp [h.references_eq] at hany
  | localized ref =>
    have hp : p ref = true := by simpa [references] using hany
    rw [outlook, if_pos (hnames ref (List.mem_singleton_self ref) hp)]

theorem IsLeaf.isNullLiteral_eq_false (h : e.IsLeaf) (hany : e.references.any p = true) :
    e.isNullLiteral = false := by
  cases h with
  | plain h => simp [h.references_eq] at hany
  | localized ref => rfl

end Expr

/-! ## What is unknown stays unknown -/

namespace Outlook

variable {a : Finset Truth}

theorem compared_unknown_left (a : Finset Truth) : compared {.unknown} a = {.unknown} := by
  ext t
  cases t <;> simp

/-- A comparison with what is unknown does not hold, unless it is a test for `NULL`. -/
theorem holds_not_mem_operated_left {nullRight : Bool} (hop : op.Compares)
    (hnull : op = .eq → nullRight = false) :
    .holds ∉ operated op false nullRight {.unknown} a := by
  obtain ⟨heq | hne, hright, houtlook, -⟩ | ⟨-, hleft, -⟩ | ⟨houtlook, -⟩ :=
    operated_forms hop false nullRight
  · rw [hnull heq] at hright
    exact absurd hright Bool.false_ne_true
  · rw [houtlook, hne]
    decide
  · exact absurd hleft Bool.false_ne_true
  · simp [houtlook]

theorem holds_not_mem_operated_right {nullLeft : Bool} (hop : op.Compares)
    (hnull : op = .eq → nullLeft = false) :
    .holds ∉ operated op nullLeft false a {.unknown} := by
  obtain ⟨-, hright, -⟩ | ⟨heq | hne, hleft, houtlook, -⟩ | ⟨houtlook, -⟩ :=
    operated_forms hop nullLeft false
  · exact absurd hright Bool.false_ne_true
  · rw [hnull heq] at hleft
    exact absurd hleft Bool.false_ne_true
  · rw [houtlook, hne]
    decide
  · simp [houtlook]

end Outlook

namespace Expr

/-- Whether something unknown is one of a list is unknown, if the list is not empty. -/
theorem outlookOfMember_unknown {values : List Expr} (h : values ≠ []) :
    outlookOfMember joined {.unknown} values = {.unknown} := by
  induction values with
  | nil => exact absurd rfl h
  | cons e rest ih =>
    rw [outlookOfMember, Outlook.compared_unknown_left]
    by_cases hrest : rest = []
    · rw [hrest]
      rfl
    · rw [ih hrest]
      rfl

/-! ## Simple conditions -/

theorem referencesOfList_plain {values : List Expr} (h : ∀ e ∈ values, e.IsPlain) :
    referencesOfList values = [] := by
  rw [referencesOfList_eq_flatMap, List.flatMap_eq_nil_iff]
  exact fun e he => (h e he).references_eq

/-- A comparison with `NULL` regards its references as optional. -/
theorem isNullLiteral_eq_false_of_optional
    (hany : (Expr.binary .eq left right).references.any p = true)
    (hoptional : ((Expr.binary .eq left right).optionalReferences bare).any p = false) :
    left.isNullLiteral = false ∧ right.isNullLiteral = false := by
  rw [← Bool.or_eq_false_iff, Bool.eq_false_iff]
  intro hnull
  rw [optionalReferences, if_pos hnull] at hoptional
  rw [references, hoptional] at hany
  exact absurd hany Bool.false_ne_true

/-- A simple condition whose references are not optional does not hold where their row is
missing. -/
theorem IsSimple.holds_not_mem_outlook (h : e.IsSimple)
    (hnames : ∀ ref ∈ e.references, p ref = true → ref.table = joined)
    (hany : e.references.any p = true) (hoptional : (e.optionalReferences bare).any p = false) :
    .holds ∉ e.outlook joined := by
  cases h with
  | leaf h => simp [h.outlook_eq hnames hany]
  | @comparison op left right hop hleft hright =>
    have hnull : op = .eq → left.isNullLiteral = false ∧ right.isNullLiteral = false := by
      rintro rfl
      exact isNullLiteral_eq_false_of_optional hany hoptional
    rw [references, List.any_append, Bool.or_eq_true] at hany
    rw [references, List.forall_mem_append] at hnames
    rw [outlook]
    rcases hany with hany | hany
    · rw [hleft.outlook_eq hnames.1 hany, hleft.isNullLiteral_eq_false hany]
      exact Outlook.holds_not_mem_operated_left hop fun heq => (hnull heq).2
    · rw [hright.outlook_eq hnames.2 hany, hright.isNullLiteral_eq_false hany]
      exact Outlook.holds_not_mem_operated_right hop fun heq => (hnull heq).1
  | @isNull e negated h =>
    cases negated with
    | false =>
      rw [optionalReferences] at hoptional
      rw [references, hoptional] at hany
      exact absurd hany Bool.false_ne_true
    | true =>
      rw [outlook, h.outlook_eq hnames hany]
      decide
  | @inList e values negated h hvalues =>
    rw [references, referencesOfList_plain hvalues.2, List.append_nil] at hany hnames
    rw [outlook, h.outlook_eq hnames hany, outlookOfMember_unknown hvalues.1]
    cases negated <;> decide
  | @between e low high negated h hlow hhigh =>
    rw [references, hlow.references_eq, hhigh.references_eq, List.append_nil, List.append_nil]
      at hany hnames
    rw [outlook, h.outlook_eq hnames hany, Outlook.compared_unknown_left,
      Outlook.compared_unknown_left]
    cases negated <;> decide

/-! ## Positive predicates -/

/-- **An inner join is found only where the row is needed.** -/
theorem Positive.holds_not_mem_outlook (h : e.Positive)
    (hnames : ∀ ref ∈ e.references, p ref = true → ref.table = joined)
    (hinner : kindAmong p e.references (e.optionalReferences bare) = some .inner) :
    .holds ∉ e.outlook joined := by
  rw [kindAmong_eq_inner_iff] at hinner
  obtain ⟨hany, hoptional⟩ := hinner
  induction h with
  | simple h => exact h.holds_not_mem_outlook hnames hany hoptional
  | @and left right _ _ ihl ihr =>
    have hsplit : (Expr.binary .and left right).optionalReferences bare
        = left.optionalReferences bare ++ right.optionalReferences bare := by
      simp [optionalReferences]
    rw [hsplit, List.any_append, Bool.or_eq_false_iff] at hoptional
    rw [references, List.any_append, Bool.or_eq_true] at hany
    rw [references, List.forall_mem_append] at hnames
    rw [outlook, Outlook.operated]
    intro hmem
    obtain ⟨x, hx, y, hy, hconj⟩ := Finset.mem_image₂.mp hmem
    obtain ⟨rfl, rfl⟩ := Truth.conj_eq_holds.mp hconj
    rcases hany with hany | hany
    · exact ihl hnames.1 hany hoptional.1 hx
    · exact ihr hnames.2 hany hoptional.2 hy
  | @or left right _ _ _ _ =>
    rw [optionalReferences] at hoptional
    rw [references, hoptional] at hany
    exact absurd hany Bool.false_ne_true
  | paren _ ih => exact ih hnames hany hoptional

end Expr

end LocalizedQuery
