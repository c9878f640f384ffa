import LocalizedQuery.Proofs.Evaluation.Instances
import LocalizedQuery.Proofs.Inference.Tolerance

/-!
# Inference does not look at data

What inference finds for a join depends on where its references stand and on where the literal
`NULL` stands. An instance of a predicate (`Expr.Instance`) changes neither, so the same is found
for it.

## Main results

* `Expr.Instance.equallyTolerant`, `Expr.Instance.kindAmong_eq` — the same kind is found for an
  instance
* `Expr.Instance.references_subset` — an instance has no further references
* `Expr.Instance.exposes` — nor does it hide further ones
-/

namespace LocalizedQuery

namespace Expr

variable {e e' : Expr} {p : Reference → Bool} {bare : Bool} {joined : String}

/-! ## What is collected -/

section

variable {β : Type} {f : Expr → List β}

/-- `f` collects something from the operands of an expression, and nothing from texts. -/
structure Collects (f : Expr → List β) : Prop where
  text : ∀ text, f (.text text) = []
  binary : ∀ op left right, f (.binary op left right) = f left ++ f right
  unary : ∀ op e, f (.unary op e) = f e
  isNull : ∀ e negated, f (.isNull e negated) = f e
  inList : ∀ e values negated, f (.inList e values negated) = f e ++ values.flatMap f
  between : ∀ e low high negated, f (.between e low high negated) = f e ++ f low ++ f high
  paren : ∀ e, f (.paren e) = f e

theorem collects_references : Collects references where
  text _ := rfl
  binary _ _ _ := rfl
  unary _ _ := rfl
  isNull _ _ := rfl
  inList e values _ := by rw [references, referencesOfList_eq_flatMap]
  between _ _ _ _ := rfl
  paren _ := rfl

theorem collects_outermostCases : Collects outermostCases where
  text _ := rfl
  binary _ _ _ := rfl
  unary _ _ := rfl
  isNull _ _ := rfl
  inList e values _ := by rw [outermostCases, outermostCasesOfList_eq_flatMap]
  between _ _ _ _ := rfl
  paren _ := rfl

theorem LeafInstance.collected_sublist (hf : Collects f) (h : LeafInstance joined e e') :
    (f e').Sublist (f e) := by
  cases h with
  | same => exact List.Sublist.refl _
  | text text hleaf hknown =>
    rw [hf.text]
    exact List.nil_sublist _

theorem collected_sublist_list (hf : Collects f) {values values' : List Expr}
    (h : List.Forall₂ (LeafInstance joined) values values') :
    (values'.flatMap f).Sublist (values.flatMap f) := by
  induction h with
  | nil => exact List.Sublist.refl _
  | cons hvalue _ ih => exact (hvalue.collected_sublist hf).append ih

/-- From an instance nothing new is collected. -/
theorem Instance.collected_sublist (hf : Collects f) (h : e.Instance joined e') :
    (f e').Sublist (f e) := by
  induction h with
  | leaf h => exact h.collected_sublist hf
  | comparison _ hleft hright =>
    rw [hf.binary, hf.binary]
    exact (hleft.collected_sublist hf).append (hright.collected_sublist hf)
  | isNull _ h =>
    rw [hf.isNull, hf.isNull]
    exact h.collected_sublist hf
  | inList _ h hvalues =>
    rw [hf.inList, hf.inList]
    exact (h.collected_sublist hf).append (collected_sublist_list hf hvalues)
  | between _ h hlow hhigh =>
    rw [hf.between, hf.between]
    exact ((h.collected_sublist hf).append (hlow.collected_sublist hf)).append
      (hhigh.collected_sublist hf)
  | and _ _ ihl ihr | or _ _ ihl ihr =>
    rw [hf.binary, hf.binary]
    exact ihl.append ihr
  | not _ ih =>
    rw [hf.unary, hf.unary]
    exact ih
  | paren _ ih =>
    rw [hf.paren, hf.paren]
    exact ih

end

/-- An instance has no further references. -/
theorem Instance.references_subset (h : e.Instance joined e') : e'.references ⊆ e.references :=
  (h.collected_sublist collects_references).subset

/-- An instance hides nothing further. -/
theorem Instance.exposes {owns : Reference → Bool} (h : e.Instance joined e')
    (hexposes : e.Exposes owns) : e'.Exposes owns :=
  fun c hc => hexposes c ((h.collected_sublist collects_outermostCases).subset hc)

/-! ## Kinds -/

/-- A text in place of a leaf of another join is not noticed. -/
theorem LeafInstance.equallyTolerant (h : LeafInstance joined e e')
    (hnames : ∀ ref ∈ e.references, p ref = true → ref.table = joined) :
    e.EquallyTolerant p e' := by
  cases h with
  | same => exact .refl e
  | text text hleaf hknown =>
    refine .of_not_owned (fun ref href => ?_) (List.forall_mem_nil _)
    obtain ⟨other, rfl, htable⟩ | ⟨table, name, rfl, -⟩ | ⟨l, rfl, -⟩ := hleaf.cases_of_known hknown
    · rw [Bool.eq_false_iff]
      intro hp
      exact htable (List.mem_singleton.mp href ▸ hnames ref href hp)
    · exact absurd href List.not_mem_nil
    · exact absurd href List.not_mem_nil

theorem forall₂_equallyTolerant {values values' : List Expr}
    (h : List.Forall₂ (LeafInstance joined) values values')
    (hnames : ∀ ref ∈ referencesOfList values, p ref = true → ref.table = joined) :
    List.Forall₂ (EquallyTolerant p) values values' := by
  induction h with
  | nil => exact .nil
  | cons hvalue _ ih =>
    rw [referencesOfList, List.forall_mem_append] at hnames
    exact .cons (hvalue.equallyTolerant hnames.1) (ih hnames.2)

/-- **Data is not noticed**: an instance is as tolerant as the predicate. -/
theorem Instance.equallyTolerant (h : e.Instance joined e')
    (hnames : ∀ ref ∈ e.references, p ref = true → ref.table = joined) :
    e.EquallyTolerant p e' := by
  -- The literal `NULL` is an instance of itself only, so no comparison with it comes or goes.
  induction h with
  | leaf h => exact h.equallyTolerant hnames
  | comparison _ hleft hright =>
    rw [references, List.forall_mem_append] at hnames
    refine .of_children rfl (fun _ => ?_)
      (.cons (hleft.equallyTolerant hnames.1) (.cons (hright.equallyTolerant hnames.2) .nil))
    simp only [children, List.map_cons, List.map_nil, hleft.isNullLiteral_eq,
      hright.isNullLiteral_eq]
  | isNull negated h =>
    exact .of_children rfl (absurd · Bool.false_ne_true) (.cons (h.equallyTolerant hnames) .nil)
  | inList negated h hvalues =>
    rw [references, List.forall_mem_append] at hnames
    refine .of_children ?_ (absurd · Bool.false_ne_true)
      (.cons (h.equallyTolerant hnames.1) (forall₂_equallyTolerant hvalues hnames.2))
    simp only [outline, mapChildren, mapChildrenIdx, mapIdx_const, List.map_const',
      hvalues.length_eq]
  | between negated h hlow hhigh =>
    rw [references, List.forall_mem_append, List.forall_mem_append] at hnames
    exact .of_children rfl (absurd · Bool.false_ne_true)
      (.cons (h.equallyTolerant hnames.1.1) (.cons (hlow.equallyTolerant hnames.1.2)
        (.cons (hhigh.equallyTolerant hnames.2) .nil)))
  | and _ _ ihl ihr | or _ _ ihl ihr =>
    rw [references, List.forall_mem_append] at hnames
    exact .of_children rfl (absurd · Bool.false_ne_true)
      (.cons (ihl hnames.1) (.cons (ihr hnames.2) .nil))
  | not _ ih | paren _ ih =>
    exact .of_children rfl (absurd · Bool.false_ne_true) (.cons (ih hnames) .nil)

/-- **The same kind is found for an instance.** -/
theorem Instance.kindAmong_eq (h : e.Instance joined e')
    (hnames : ∀ ref ∈ e.references, p ref = true → ref.table = joined) :
    kindAmong p e'.references (e'.optionalReferences bare)
      = kindAmong p e.references (e.optionalReferences bare) := by
  obtain ⟨hnarrow, hnarrow'⟩ := h.equallyTolerant hnames
  exact (hnarrow'.narrows_kindAmong bare fun _ hp => hp).antisymm
    (hnarrow.narrows_kindAmong bare fun _ hp => hp)

end Expr

end LocalizedQuery
