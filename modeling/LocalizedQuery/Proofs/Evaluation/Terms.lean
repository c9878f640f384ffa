import LocalizedQuery.Proofs.Evaluation.Fragment

/-!
# Tests of terms

A term is built from leaves by arithmetic and by functions, of which nothing is known. A test is one
comparison, one `IN` or one `BETWEEN`. For tests of terms the outlook is exact: a test whose outlook
contains `holds` does hold in some database where the row is missing.

Two uniform databases are enough (`Interpretation.uniform`). In the one, whatever is not read from
the missing row has a datum, and comparisons come to what is wanted. In the other, there is nothing
but `NULL`, apart from the literals.

## Main results

* `Expr.IsTest.needsRow_iff` — a test of terms needs a row exactly if its outlook excludes `holds`
-/

namespace LocalizedQuery

/-- The operators that calculate. -/
def BinaryOperator.Calculates (op : BinaryOperator) : Prop :=
  op ∈ [.plus, .minus, .times, .divide, .modulo, .concat]

namespace Expr

/-- Leaves, and what arithmetic and functions make of them. The arguments of a function may be
anything. -/
inductive IsTerm : Expr → Prop
  | leaf {e : Expr} : e.IsLeaf → IsTerm e
  | paren {e : Expr} : IsTerm e → IsTerm (.paren e)
  | minus {e : Expr} : IsTerm e → IsTerm (.unary .minus e)
  | calculation {op : BinaryOperator} {left right : Expr} : op.Calculates → IsTerm left →
      IsTerm right → IsTerm (.binary op left right)
  | call (function : String) (args : List Expr) : IsTerm (.call function args)

/-- A comparison, an `IN` or a `BETWEEN` over certain operands. -/
inductive IsTest (operand : Expr → Prop) : Expr → Prop
  | comparison {op : BinaryOperator} {left right : Expr} : op.Compares → operand left →
      operand right → IsTest operand (.binary op left right)
  | inList {e : Expr} {values : List Expr} (negated : Bool) : operand e →
      (∀ value ∈ values, operand value) → IsTest operand (.inList e values negated)
  | between {e low high : Expr} (negated : Bool) : operand e → operand low → operand high →
      IsTest operand (.between e low high negated)

end Expr

/-- The database in which calculations and functions give `result` and all data compare as `answer`
says. -/
def Interpretation.uniform (home : String) (result : Option Bool) (answer : Bool) :
    Interpretation Bool where
  ofBool b := b
  isTrue b := b
  isTrue_ofBool _ := rfl
  datum _ := true
  compare op _ _ := if op = .ne then !answer else answer
  compare_ne _ _ := by simp
  calculate _ _ _ := result
  negate _ := result
  call _ _ := result
  home _ := home

/-- The row in which every column is `result`, except that the row of `joined` is missing. -/
def Row.uniform (joined : String) (result : Option Bool) : Row Bool :=
  Function.update (fun _ _ => result) joined Record.missing

theorem Row.uniform_of_ne {joined table : String} (h : table ≠ joined) (result : Option Bool)
    (column : String) : Row.uniform joined result table column = result := by
  rw [Row.uniform, Function.update_of_ne h]

theorem Row.uniform_none (joined table column : String) :
    Row.uniform joined none table column = none := by
  by_cases h : table = joined
  · rw [h, Row.uniform, Function.update_self, Record.missing]
  · exact Row.uniform_of_ne h none column

namespace Expr

variable {e : Expr} {joined home : String} {answer : Bool}

/-! ## Terms -/

/-- A term that may be known has a datum where everything has. -/
theorem IsTerm.exists_value (h : e.IsTerm) (hhome : home ≠ joined)
    (hknown : Outlook.Known (e.outlook joined)) :
    ∃ b, e.value (.uniform home (some true) answer) (Row.uniform joined (some true)) = some b := by
  induction h with
  | leaf h =>
    obtain ⟨ref, rfl, htable⟩ | ⟨table, name, rfl, htable⟩ | ⟨l, rfl, hl⟩ :=
      h.cases_of_known hknown
    · exact ⟨true, Row.uniform_of_ne htable _ _⟩
    · have hother : table.getD home ≠ joined := by
        cases table with
        | none => exact hhome
        | some table => exact fun h => htable (congrArg some h)
      exact ⟨true, Row.uniform_of_ne hother _ _⟩
    · cases l with
      | null => exact absurd rfl hl
      | bool b => exact ⟨b, rfl⟩
      | int _ | float _ | string _ => exact ⟨true, rfl⟩
  | paren _ ih => exact ih hknown
  | minus _ ih =>
    obtain ⟨b, hb⟩ := ih (Outlook.known_calculated.mp hknown).1
    exact ⟨true, by rw [value, hb]; rfl⟩
  | @calculation op left right hop _ _ ihl ihr =>
    have hboth : Outlook.Known (left.outlook joined) ∧ Outlook.Known (right.outlook joined) := by
      cases op with
      | plus | minus | times | divide | modulo | concat => exact Outlook.known_calculated.mp hknown
      | _ => simp [BinaryOperator.Calculates] at hop
    obtain ⟨b, hb⟩ := ihl hboth.1
    obtain ⟨c, hc⟩ := ihr hboth.2
    refine ⟨true, ?_⟩
    rw [value, hb, hc]
    cases op with
    | plus | minus | times | divide | modulo | concat => rfl
    | _ => simp [BinaryOperator.Calculates] at hop
  | call function args => exact ⟨true, rfl⟩

/-- A term that may be unknown is `NULL` where nothing has a datum. -/
theorem IsTerm.value_eq_none (h : e.IsTerm) (hunknown : .unknown ∈ e.outlook joined) :
    e.value (.uniform home none answer) (Row.uniform joined none) = none := by
  induction h with
  | leaf h =>
    cases h with
    | localized ref => exact Row.uniform_none ..
    | plain h =>
      cases h with
      | column table name => exact Row.uniform_none ..
      | literal l =>
        cases l with
        | null => rfl
        | _ => simp [outlook] at hunknown
  | paren _ ih => exact ih hunknown
  | @minus e _ _ =>
    rw [value]
    cases e.value (.uniform home none answer) (Row.uniform joined none) <;> rfl
  | @calculation op left right hop _ _ _ _ =>
    have hnone : ∀ v w : Option Bool,
        (Option.map₂ ((Interpretation.uniform home none answer).calculate op) v w).join = none := by
      intro v w
      cases v <;> cases w <;> rfl
    cases op with
    | plus | minus | times | divide | modulo | concat => exact hnone _ _
    | _ => simp [BinaryOperator.Calculates] at hop
  | call function args => rfl

/-! ## Tests -/

/-- The value of a term in a uniform database. -/
def uniformValue (joined : String) (result : Option Bool) (answer : Bool) (e : Expr) :
    Option Bool :=
  e.value (.uniform (joined ++ "_") result answer) (Row.uniform joined result)

/-- The truth of a condition in a uniform database. -/
def uniformTruth (joined : String) (result : Option Bool) (answer : Bool) (e : Expr) : Truth :=
  e.truth (.uniform (joined ++ "_") result answer) (Row.uniform joined result)

theorem IsTerm.exists_uniformValue (h : e.IsTerm) (hknown : Outlook.Known (e.outlook joined))
    (answer : Bool) : ∃ b, e.uniformValue joined (some true) answer = some b := by
  refine h.exists_value (fun hhome => ?_) hknown
  have hlength := congrArg String.length hhome
  rw [String.length_append] at hlength
  simp at hlength

theorem IsTerm.uniformValue_eq_none (h : e.IsTerm) (hunknown : .unknown ∈ e.outlook joined)
    (answer : Bool) : e.uniformValue joined none answer = none :=
  h.value_eq_none hunknown

theorem not_needsRow_of_uniformTruth {result : Option Bool}
    (h : e.uniformTruth joined result answer = .holds) : ¬e.NeedsRow joined :=
  fun hneeds => hneeds _ _ (Function.update_self ..) h

/-- Where both sides are known, a comparison comes to what is wanted. -/
theorem compared_uniformValue {op : BinaryOperator} {left right : Expr} (hleft : left.IsTerm)
    (hright : right.IsTerm) (hknown : Outlook.Known (left.outlook joined))
    (hknown' : Outlook.Known (right.outlook joined)) :
    (Interpretation.uniform (joined ++ "_") (some true) answer).compared op
        (left.uniformValue joined (some true) answer) (right.uniformValue joined (some true) answer)
      = .ofBool (if op = .ne then !answer else answer) := by
  obtain ⟨b, hb⟩ := hleft.exists_uniformValue hknown answer
  obtain ⟨c, hc⟩ := hright.exists_uniformValue hknown' answer
  rw [hb, hc]
  rfl

/-- A test for `NULL` comes to what its outlook contains. -/
theorem IsTerm.exists_nullTest (h : e.IsTerm) {negated : Bool}
    (hmem : .holds ∈ Outlook.negatedIf negated (Outlook.nullTest (e.outlook joined))) :
    ∃ result, (Interpretation.nullTest (e.uniformValue joined result true)).negatedIf negated
      = .holds := by
  cases negated with
  | false =>
    rw [Outlook.holds_mem_negatedIf_false, Outlook.holds_mem_nullTest] at hmem
    exact ⟨none, by rw [h.uniformValue_eq_none hmem]; rfl⟩
  | true =>
    rw [Outlook.holds_mem_negatedIf_true, Outlook.fails_mem_nullTest] at hmem
    obtain ⟨b, hb⟩ := h.exists_uniformValue hmem true
    exact ⟨some true, by rw [hb]; rfl⟩

theorem not_needsRow_comparison {op : BinaryOperator} {left right : Expr} (hop : op.Compares)
    (hleft : left.IsTerm) (hright : right.IsTerm)
    (h : .holds ∈ (Expr.binary op left right).outlook joined) :
    ¬(Expr.binary op left right).NeedsRow joined := by
  rw [outlook] at h
  obtain ⟨-, -, houtlook, htruth⟩ | ⟨-, -, houtlook, htruth⟩ | ⟨houtlook, htruth⟩ :=
    Outlook.operated_forms hop left.isNullLiteral right.isNullLiteral
  · rw [houtlook] at h
    obtain ⟨result, htest⟩ := hleft.exists_nullTest h
    refine not_needsRow_of_uniformTruth
      (show uniformTruth joined result true (.binary op left right) = .holds from ?_)
    rw [uniformTruth, truth, value, htruth]
    exact htest
  · rw [houtlook] at h
    obtain ⟨result, htest⟩ := hright.exists_nullTest h
    refine not_needsRow_of_uniformTruth
      (show uniformTruth joined result true (.binary op left right) = .holds from ?_)
    rw [uniformTruth, truth, value, htruth]
    exact htest
  · rw [houtlook] at h
    obtain ⟨hknown, hknown'⟩ := Outlook.holds_mem_compared.mp h
    refine not_needsRow_of_uniformTruth (show uniformTruth joined (some true) (decide (op ≠ .ne))
      (.binary op left right) = .holds from ?_)
    rw [uniformTruth, truth, value, htruth]
    refine (compared_uniformValue hleft hright hknown hknown').trans ?_
    by_cases hne : op = .ne <;> simp [hne, Truth.ofBool]

/-- Where all data are equal, a known value is one of a list with a known value. -/
theorem member_uniform_holds {values : List Expr} (he : e.IsTerm)
    (hvalues : ∀ value ∈ values, value.IsTerm)
    (h : .holds ∈ outlookOfMember joined (e.outlook joined) values) :
    (Interpretation.uniform (joined ++ "_") (some true) true).member
      (e.uniformValue joined (some true) true)
      (valueOfList (.uniform (joined ++ "_") (some true) true) (Row.uniform joined (some true))
        values) = .holds := by
  induction values with
  | nil => simp [outlookOfMember] at h
  | cons value rest ih =>
    rw [List.forall_mem_cons] at hvalues
    obtain ⟨x, hx, y, hy, hdisj⟩ := Finset.mem_image₂.mp h
    refine Truth.disj_eq_holds.mpr ?_
    rcases Truth.disj_eq_holds.mp hdisj with rfl | rfl
    · obtain ⟨hknown, hknown'⟩ := Outlook.holds_mem_compared.mp hx
      exact .inl (compared_uniformValue he hvalues.1 hknown hknown')
    · exact .inr (ih hvalues.2 hy)

/-- Where no two data are equal, a known value is none of a list of known values. -/
theorem member_uniform_fails {values : List Expr} (he : e.IsTerm)
    (hvalues : ∀ value ∈ values, value.IsTerm)
    (h : .fails ∈ outlookOfMember joined (e.outlook joined) values) :
    (Interpretation.uniform (joined ++ "_") (some true) false).member
      (e.uniformValue joined (some true) false)
      (valueOfList (.uniform (joined ++ "_") (some true) false) (Row.uniform joined (some true))
        values) = .fails := by
  induction values with
  | nil => rfl
  | cons value rest ih =>
    rw [List.forall_mem_cons] at hvalues
    obtain ⟨x, hx, y, hy, hdisj⟩ := Finset.mem_image₂.mp h
    obtain ⟨rfl, rfl⟩ := Truth.disj_eq_fails.mp hdisj
    obtain ⟨hknown, hknown'⟩ := Outlook.fails_mem_compared.mp hx
    exact Truth.disj_eq_fails.mpr
      ⟨compared_uniformValue he hvalues.1 hknown hknown', ih hvalues.2 hy⟩

theorem not_needsRow_inList {values : List Expr} {negated : Bool} (he : e.IsTerm)
    (hvalues : ∀ value ∈ values, value.IsTerm)
    (h : .holds ∈ (Expr.inList e values negated).outlook joined) :
    ¬(Expr.inList e values negated).NeedsRow joined := by
  rw [outlook] at h
  cases negated with
  | false =>
    rw [Outlook.holds_mem_negatedIf_false] at h
    refine not_needsRow_of_uniformTruth
      (show uniformTruth joined (some true) true (.inList e values false) = .holds from ?_)
    rw [uniformTruth, truth_inList]
    exact member_uniform_holds he hvalues h
  | true =>
    rw [Outlook.holds_mem_negatedIf_true] at h
    refine not_needsRow_of_uniformTruth
      (show uniformTruth joined (some true) false (.inList e values true) = .holds from ?_)
    rw [uniformTruth, truth_inList]
    exact Truth.neg_eq_holds.mpr (member_uniform_fails he hvalues h)

theorem not_needsRow_between {low high : Expr} {negated : Bool} (he : e.IsTerm)
    (hlow : low.IsTerm) (hhigh : high.IsTerm)
    (h : .holds ∈ (Expr.between e low high negated).outlook joined) :
    ¬(Expr.between e low high negated).NeedsRow joined := by
  rw [outlook] at h
  cases negated with
  | false =>
    rw [Outlook.holds_mem_negatedIf_false] at h
    obtain ⟨x, hx, y, hy, hconj⟩ := Finset.mem_image₂.mp h
    obtain ⟨rfl, rfl⟩ := Truth.conj_eq_holds.mp hconj
    obtain ⟨hknown, hknownLow⟩ := Outlook.holds_mem_compared.mp hx
    obtain ⟨-, hknownHigh⟩ := Outlook.holds_mem_compared.mp hy
    refine not_needsRow_of_uniformTruth
      (show uniformTruth joined (some true) true (.between e low high false) = .holds from ?_)
    rw [uniformTruth, truth_between]
    exact Truth.conj_eq_holds.mpr ⟨compared_uniformValue he hlow hknown hknownLow,
      compared_uniformValue he hhigh hknown hknownHigh⟩
  | true =>
    rw [Outlook.holds_mem_negatedIf_true] at h
    obtain ⟨x, hx, y, hy, hconj⟩ := Finset.mem_image₂.mp h
    refine not_needsRow_of_uniformTruth
      (show uniformTruth joined (some true) false (.between e low high true) = .holds from ?_)
    rw [uniformTruth, truth_between]
    refine Truth.neg_eq_holds.mpr (Truth.conj_eq_fails.mpr ?_)
    -- One end that is missed is enough, whatever the other is.
    rcases Truth.conj_eq_fails.mp hconj with rfl | rfl
    · obtain ⟨hknown, hknownLow⟩ := Outlook.fails_mem_compared.mp hx
      exact .inl (compared_uniformValue he hlow hknown hknownLow)
    · obtain ⟨hknown, hknownHigh⟩ := Outlook.fails_mem_compared.mp hy
      exact .inr (compared_uniformValue he hhigh hknown hknownHigh)

/-- **A test of terms needs a row exactly if its outlook excludes `holds`.** -/
theorem IsTest.needsRow_iff (h : e.IsTest IsTerm) :
    e.NeedsRow joined ↔ .holds ∉ e.outlook joined := by
  refine ⟨fun hneeds hmem => ?_, needsRow_of_outlook⟩
  cases h with
  | comparison hop hleft hright => exact not_needsRow_comparison hop hleft hright hmem hneeds
  | inList negated he hvalues => exact not_needsRow_inList he hvalues hmem hneeds
  | between negated he hlow hhigh => exact not_needsRow_between he hlow hhigh hmem hneeds

end Expr

end LocalizedQuery
