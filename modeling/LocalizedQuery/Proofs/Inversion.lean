import LocalizedQuery.Inversion
import LocalizedQuery.Proofs.Evaluation.Meaning
import LocalizedQuery.Proofs.Evaluation.Terms
import LocalizedQuery.Proofs.Parts

/-!
# What inversion does

`Expr.inverted` takes the direct opposite of a predicate where there is one. However it is written,
the outcome is the negation in three-valued logic: it holds where the predicate fails, and where the
predicate is unknown, it is unknown, too. This is so in every `Meaning`, the usual one among them.

Inverting twice gives back the predicate as it was written, with one kind of exception: a `NOT` in
front of something that has an opposite of its own is taken off and does not come back.

## Main results

* `Expr.references_inverted` — the references stay
* `Expr.judged_inverted`, `Expr.meant_inverted` — inversion is negation, in any meaning
* `Expr.inverted_inverted_eq_self_iff` — which predicates come back as they were written
-/

namespace LocalizedQuery

variable {α : Type}

namespace Expr

/-- Negation neither adds nor removes references. -/
@[simp] theorem references_inverted (e : Expr) : e.inverted.references = e.references := by
  fun_cases Expr.inverted e <;> rfl

/-- The forms that have an opposite other than a `NOT` in front. -/
def HasOpposite : Expr → Prop
  | .binary .eq _ _ | .binary .ne _ _ | .inList .. | .isNull .. | .unary .not _ => True
  | _ => False

/-- What has no opposite gets a `NOT`. -/
theorem inverted_of_not_hasOpposite {e : Expr} (h : ¬ e.HasOpposite) :
    e.inverted = .unary .not e := by
  fun_cases Expr.inverted e with
  | case6 => rfl
  | case1 | case2 | case3 | case4 | case5 => exact absurd trivial h

/-- **Which predicates come back** when they are inverted twice. -/
theorem inverted_inverted_eq_self_iff (e : Expr) :
    e.inverted.inverted = e ↔ ¬ ∃ operand, e = .unary .not operand ∧ operand.HasOpposite := by
  fun_cases Expr.inverted e with
  | case1 | case2 => simp [inverted]
  | case3 | case4 => simp [inverted]
  | case5 operand =>
    constructor
    · rintro hback ⟨_, heq, hopposite⟩
      rw [← (unary.inj heq).2] at hopposite
      -- No form with an opposite is inverted to itself under a `NOT`.
      fun_cases Expr.inverted operand with
      | case5 inner =>
        have hsize := congrArg sizeOf hback
        simp only [inverted, unary.sizeOf_spec] at hsize
        omega
      | case6 => simp_all [HasOpposite]
      | case1 | case2 | case3 | case4 => simp [inverted] at hback
    · intro h
      exact inverted_of_not_hasOpposite fun hopposite => h ⟨operand, rfl, hopposite⟩
  | case6 =>
    refine iff_of_true rfl ?_
    rintro ⟨operand, rfl, -⟩
    simp_all

/-! ## Negation -/

section

variable (M : Meaning α) (row : Row α)

theorem judged_not (e : Expr) : (Expr.unary .not e).judged M row = (e.judged M row).neg := by
  rw [judged, meant, M.truth_ofTruth]
  rfl

/-- The value of an inverted predicate. A `NOT` that is taken off must have stood in front of a
condition. -/
theorem meant_inverted {e : Expr}
    (h : ∀ operand, e = .unary .not operand → operand.IsCondition M row) :
    e.inverted.meant M row = M.ofTruth (e.judged M row).neg := by
  fun_cases Expr.inverted e with
  | case1 => rw [judged, meant, meant, M.truth_ofTruth, M.equality_true]
  | case2 => rw [judged, meant, meant, M.truth_ofTruth, M.equality_true, Truth.neg_neg]
  | case3 | case4 => rw [judged, meant, meant, M.truth_ofTruth, Truth.negatedIf_not]
  | case5 operand => rw [judged_not, Truth.neg_neg, ← h operand rfl]
  | case6 => rw [meant]; rfl

/-- **Inversion is negation.** What is unknown stays so. -/
theorem judged_inverted (e : Expr) : e.inverted.judged M row = (e.judged M row).neg := by
  by_cases hnot : ∃ operand, e = .unary .not operand
  · obtain ⟨operand, rfl⟩ := hnot
    rw [judged_not, Truth.neg_neg]
    rfl
  · rw [judged, meant_inverted M row fun operand heq => absurd ⟨operand, heq⟩ hnot, M.truth_ofTruth]

/-- Inverting a condition twice leaves its value, if what stands behind `NOT` are conditions. -/
theorem meant_inverted_inverted {e : Expr} (he : e.IsCondition M row)
    (hnot : ∀ operand, (Expr.unary .not operand).IsPart e → operand.IsCondition M row) :
    e.inverted.inverted.meant M row = e.meant M row := by
  have hoperand : ∀ operand, e.inverted = .unary .not operand → operand.IsCondition M row := by
    intro operand heq
    fun_cases Expr.inverted e with
    | case5 inner =>
      refine hnot operand (.under (List.mem_singleton_self _) ?_)
      exact heq ▸ .here
    | case6 =>
      rw [inverted_of_not_hasOpposite (by simp_all [HasOpposite])] at heq
      exact (unary.inj heq).2 ▸ he
    | case1 | case2 | case3 | case4 => cases heq
  rw [meant_inverted M row hoperand, judged_inverted, Truth.neg_neg, ← he]

end

/-- **Inversion is negation,** in the usual meaning. -/
theorem truth_inverted (I : Interpretation α) (row : Row α) (e : Expr) :
    e.inverted.truth I row = (e.truth I row).neg := by
  rw [← judged_meaning, judged_inverted, judged_meaning]

/-- **Inversion is exact.** In every meaning and every row, what it gives is the negation of the
predicate, and inverting twice gives back the predicate. If the predicate and whatever stands behind
a `NOT` are conditions, this is so of the values, and not only of what they say. The references are
the same, in the same order, and the predicate comes back as it was written unless it is a `NOT` in
front of something with an opposite. -/
theorem inverted_complements (p : Expr) :
    (∀ {α : Type} (M : Meaning α) (row : Row α),
      p.inverted.judged M row = (p.judged M row).neg ∧
      p.inverted.inverted.judged M row = p.judged M row ∧
      (p.IsCondition M row →
        (∀ operand, (Expr.unary .not operand).IsPart p → operand.IsCondition M row) →
        p.inverted.meant M row = M.ofTruth (p.judged M row).neg ∧
        p.inverted.inverted.meant M row = p.meant M row)) ∧
    p.inverted.references = p.references ∧
    p.inverted.inverted.references = p.references ∧
    (p.inverted.inverted = p ↔ ¬ ∃ operand, p = .unary .not operand ∧ operand.HasOpposite) := by
  refine ⟨fun M row => ⟨judged_inverted M row p, ?_, fun hp hnot => ⟨?_, ?_⟩⟩,
    references_inverted p, by simp, inverted_inverted_eq_self_iff p⟩
  · rw [judged_inverted, judged_inverted, Truth.neg_neg]
  · exact meant_inverted M row fun operand heq => hnot operand (heq ▸ .here)
  · exact meant_inverted_inverted M row hp hnot

/-- There is a title, said with `NOT` and `= NULL`. -/
def titlePresent : Expr := .unary .not (.binary .eq (.column none "title") (.literal .null))

/-- What stands behind the `NOT` is a condition. -/
theorem everywhere_titlePresent (M : Meaning α) (row : Row α) :
    titlePresent.Everywhere fun part =>
      ∀ operand, part = .unary .not operand → operand.IsCondition M row := by
  have hleaf : ∀ e : Expr, e.children = [] → e.Everywhere fun part =>
      ∀ operand, part = .unary .not operand → operand.IsCondition M row := by
    refine fun e he => everywhere_iff.mpr ⟨?_, by simp [he]⟩
    rintro operand rfl
    cases he
  refine everywhere_iff.mpr ⟨?_, List.forall_mem_singleton.mpr (everywhere_iff.mpr ⟨nofun, ?_⟩)⟩
  · rintro operand ⟨⟩
    exact isCondition_of_eq M row (by rw [meant])
  · exact List.forall_mem_cons.mpr ⟨hleaf _ rfl, List.forall_mem_singleton.mpr (hleaf _ rfl)⟩

/-- In a row with a title the inversion fails. The `NOT` that it took off does not come back, but
what comes back has the same value. -/
theorem inverted_titlePresent :
    titlePresent.inverted.meant (Interpretation.uniform "posts" (some true) true).meaning
      (Row.uniform "tags" (some true)) = some false ∧
    titlePresent.inverted.inverted.meant (Interpretation.uniform "posts" (some true) true).meaning
      (Row.uniform "tags" (some true)) = some true ∧
    titlePresent.inverted.inverted ≠ titlePresent := by
  obtain ⟨hmeaning, -, -, hback⟩ := inverted_complements titlePresent
  obtain ⟨-, -, hvalues⟩ := hmeaning (Interpretation.uniform "posts" (some true) true).meaning
    (Row.uniform "tags" (some true))
  obtain ⟨honce, htwice⟩ := hvalues (isCondition_of_eq _ _ (by rw [titlePresent, meant]))
    fun operand hpart => everywhere_titlePresent _ _ _ hpart operand rfl
  exact ⟨honce.trans rfl, htwice.trans rfl, fun h => hback.mp h ⟨_, rfl, trivial⟩⟩

end Expr

end LocalizedQuery
