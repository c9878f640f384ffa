import LocalizedQuery.Proofs.Evaluation.Fragment
import Mathlib.Data.List.Forall2

/-!
# Outlooks promise no more than they keep

An outlook may contain what a condition never comes to, since it does not hold two uses of one
column against each other. It is exact up to that: if the outlook of a logical predicate contains
`holds` or `fails`, then that is what the predicate comes to for some choice of texts in place of
the leaves that may be known (`Expr.Logical.exists_instance`).

The choice is made in a database of texts (`Interpretation.texts`), in a row in which all tables are
missing.

## Main results

* `Expr.Instance.outlook_subset` — an instance may come to no more than the predicate
* `Expr.Logical.exists_instance` — what an outlook contains is what an instance comes to
-/

namespace LocalizedQuery

/-- A database of texts. Comparisons go by the order of texts, and `LIKE` knows no wildcards. -/
def Interpretation.texts : Interpretation String where
  ofBool b := if b then "1" else "0"
  isTrue s := s == "1"
  isTrue_ofBool b := by cases b <;> rfl
  datum
    | .string s => s
    | .int n => toString n
    | _ => ""
  compare
    | .eq, a, b | .like, a, b => a == b
    | .ne, a, b => a != b
    | .lt, a, b => a < b
    | .gt, a, b => b < a
    | .le, a, b => !(b < a)
    | .ge, a, b => !(a < b)
    | _, _, _ => false
  compare_ne _ _ := rfl
  calculate
    | .concat, a, b => some (a ++ b)
    | _, _, _ => none
  negate _ := none
  call
    | "COALESCE", args => args.findSome? id
    | _, _ => none
  home := id

open Interpretation (texts)

/-- The row in which all tables are missing. -/
def Row.missing {α : Type} : Row α := fun _ => Record.missing

/-! ## Values that an outlook admits -/

namespace Outlook

/-- The values that a leaf with this outlook may have. -/
def Admits (a : Finset Truth) : Option String → Prop
  | none => .unknown ∈ a
  | some _ => Known a

variable {a b c : Finset Truth} {t : Truth} {op : BinaryOperator}

theorem exists_admits (h : a.Nonempty) : ∃ v, Admits a v := by
  obtain ⟨t, ht⟩ := h
  by_cases hunknown : t = .unknown
  · rw [hunknown] at ht
    exact ⟨none, ht⟩
  · exact ⟨some "", known_iff.mpr ⟨t, ht, hunknown⟩⟩

theorem exists_nullTest (h : t ∈ nullTest a) :
    ∃ v, Admits a v ∧ Interpretation.nullTest v = t := by
  obtain ⟨x, hx, rfl⟩ := Finset.mem_image.mp h
  by_cases hunknown : x = .unknown
  · rw [hunknown] at hx
    exact ⟨none, hx, by simp [Interpretation.nullTest, hunknown]⟩
  · exact ⟨some "", known_iff.mpr ⟨x, hx, hunknown⟩, by simp [Interpretation.nullTest, hunknown]⟩

theorem exists_compare (hop : op.Compares) (c : Bool) : ∃ x y, texts.compare op x y = c := by
  cases op with
  | and | or | plus | minus | times | divide | modulo | concat =>
    simp [BinaryOperator.Compares] at hop
  | _ =>
    cases c <;> first
      | exact ⟨"0", "0", by decide⟩
      | exact ⟨"0", "1", by decide⟩
      | exact ⟨"1", "0", by decide⟩

theorem known_of_mem_compared (ht : t ≠ .unknown) (h : t ∈ compared a b) : Known a ∧ Known b :=
  known_compared.mp (known_iff.mpr ⟨t, h, ht⟩)

theorem exists_compared (hop : op.Compares) (ht : t ≠ .unknown) (h : t ∈ compared a b) :
    ∃ v w, Admits a v ∧ Admits b w ∧ texts.compared op v w = t := by
  obtain ⟨ha, hb⟩ := known_of_mem_compared ht h
  obtain ⟨x, y, hxy⟩ := exists_compare hop (t == .holds)
  refine ⟨some x, some y, ha, hb, ?_⟩
  rw [Interpretation.compared, hxy]
  cases t with
  | holds | fails => rfl
  | unknown => exact absurd rfl ht

theorem exists_operate (hop : op.Compares) {nullLeft nullRight : Bool} (ha : a.Nonempty)
    (hb : b.Nonempty) (ht : t ≠ .unknown) (h : t ∈ operated op nullLeft nullRight a b) :
    ∃ v w, Admits a v ∧ Admits b w ∧
      texts.truth (texts.operate op nullLeft nullRight v w) = t := by
  obtain ⟨-, -, houtlook, htruth⟩ | ⟨-, -, houtlook, htruth⟩ | ⟨houtlook, htruth⟩ :=
    operated_forms hop nullLeft nullRight
  · rw [houtlook] at h
    obtain ⟨x, hx, rfl⟩ := Finset.mem_image.mp h
    obtain ⟨v, hv, rfl⟩ := exists_nullTest hx
    obtain ⟨w, hw⟩ := exists_admits hb
    exact ⟨v, w, hv, hw, htruth texts v w⟩
  · rw [houtlook] at h
    obtain ⟨x, hx, rfl⟩ := Finset.mem_image.mp h
    obtain ⟨w, hw, rfl⟩ := exists_nullTest hx
    obtain ⟨v, hv⟩ := exists_admits ha
    exact ⟨v, w, hv, hw, htruth texts v w⟩
  · rw [houtlook] at h
    obtain ⟨v, w, hv, hw, hvw⟩ := exists_compared hop ht h
    exact ⟨v, w, hv, hw, (htruth texts v w).trans hvw⟩

theorem Known.mono (hab : a ⊆ b) (h : Known a) : Known b :=
  h.imp (fun h => hab h) fun h => hab h

theorem compared_subset {a' b' : Finset Truth} (ha : a ⊆ a') (hb : b ⊆ b') :
    compared a b ⊆ compared a' b' := by
  intro t ht
  cases t with
  | holds | fails =>
    simp only [holds_mem_compared, fails_mem_compared] at ht ⊢
    exact ⟨ht.1.mono ha, ht.2.mono hb⟩
  | unknown =>
    rw [unknown_mem_compared] at ht ⊢
    exact ht.imp (fun h => ha h) fun h => hb h

theorem operated_subset (hop : op.Compares) {nullLeft nullRight : Bool} {a' b' : Finset Truth}
    (ha : a ⊆ a') (hb : b ⊆ b') :
    operated op nullLeft nullRight a b ⊆ operated op nullLeft nullRight a' b' := by
  obtain ⟨-, -, houtlook, -⟩ | ⟨-, -, houtlook, -⟩ | ⟨houtlook, -⟩ :=
    operated_forms hop nullLeft nullRight
  · rw [houtlook, houtlook]
    exact Finset.image_subset_image (Finset.image_subset_image ha)
  · rw [houtlook, houtlook]
    exact Finset.image_subset_image (Finset.image_subset_image hb)
  · rw [houtlook, houtlook]
    exact compared_subset ha hb

/-- Both comparisons of a range can be decided at once. -/
theorem exists_within (hb : b.Nonempty) (hc : c.Nonempty) (ht : t ≠ .unknown)
    (h : t ∈ Finset.image₂ Truth.conj (compared a b) (compared a c)) :
    ∃ v low high, Admits a v ∧ Admits b low ∧ Admits c high ∧ texts.within v low high = t := by
  obtain ⟨x, hx, y, hy, rfl⟩ := Finset.mem_image₂.mp h
  cases hconj : x.conj y with
  | unknown => exact absurd hconj ht
  | holds =>
    obtain ⟨rfl, rfl⟩ := Truth.conj_eq_holds.mp hconj
    obtain ⟨ha, hb⟩ := holds_mem_compared.mp hx
    obtain ⟨-, hc⟩ := holds_mem_compared.mp hy
    exact ⟨some "0", some "0", some "0", ha, hb, hc, by decide⟩
  | fails =>
    rcases Truth.conj_eq_fails.mp hconj with rfl | rfl
    · obtain ⟨ha, hb⟩ := fails_mem_compared.mp hx
      obtain ⟨high, hhigh⟩ := exists_admits hc
      refine ⟨some "0", some "1", high, ha, hb, hhigh, ?_⟩
      exact Truth.conj_eq_fails.mpr (.inl (by decide))
    · obtain ⟨ha, hc⟩ := fails_mem_compared.mp hy
      obtain ⟨low, hlow⟩ := exists_admits hb
      refine ⟨some "1", low, some "0", ha, hlow, hc, ?_⟩
      exact Truth.conj_eq_fails.mpr (.inr (by decide))

end Outlook

namespace Expr

variable {e : Expr} {joined : String} {t : Truth}

/-- No outlook is empty. -/
theorem outlook_nonempty (e : Expr) (joined : String) : (e.outlook joined).Nonempty := by
  have hmissing : (Row.missing : Row String) joined = Record.missing := rfl
  exact ⟨_, truth_mem_outlook (I := texts) hmissing e⟩

/-- Values that the outlooks of a list admit. -/
theorem exists_admits_list (values : List Expr) (joined : String) :
    ∃ ws, List.Forall₂ (fun (e : Expr) w => Outlook.Admits (e.outlook joined) w) values ws := by
  induction values with
  | nil => exact ⟨[], .nil⟩
  | cons e rest ih =>
    obtain ⟨w, hw⟩ := Outlook.exists_admits (e.outlook_nonempty joined)
    obtain ⟨ws, hws⟩ := ih
    exact ⟨w :: ws, .cons hw hws⟩

theorem exists_member_holds {a : Finset Truth} {values : List Expr}
    (h : .holds ∈ outlookOfMember joined a values) :
    Outlook.Known a ∧ ∃ ws,
      List.Forall₂ (fun (e : Expr) w => Outlook.Admits (e.outlook joined) w) values ws ∧
        texts.member (some "0") ws = .holds := by
  induction values with
  | nil => simp [outlookOfMember] at h
  | cons e rest ih =>
    obtain ⟨x, hx, y, hy, hdisj⟩ := Finset.mem_image₂.mp h
    rcases Truth.disj_eq_holds.mp hdisj with rfl | rfl
    · obtain ⟨ha, he⟩ := Outlook.holds_mem_compared.mp hx
      obtain ⟨ws, hws⟩ := exists_admits_list rest joined
      exact ⟨ha, some "0" :: ws, .cons he hws, Truth.disj_eq_holds.mpr (.inl (by decide))⟩
    · obtain ⟨ha, ws, hws, hmember⟩ := ih hy
      obtain ⟨w, hw⟩ := Outlook.exists_admits (e.outlook_nonempty joined)
      exact ⟨ha, w :: ws, .cons hw hws, Truth.disj_eq_holds.mpr (.inr hmember)⟩

theorem exists_member_fails {a : Finset Truth} {values : List Expr}
    (h : .fails ∈ outlookOfMember joined a values) :
    (values ≠ [] → Outlook.Known a) ∧ ∃ ws,
      List.Forall₂ (fun (e : Expr) w => Outlook.Admits (e.outlook joined) w) values ws ∧
        texts.member (some "0") ws = .fails := by
  induction values with
  | nil => exact ⟨fun h => absurd rfl h, [], .nil, rfl⟩
  | cons e rest ih =>
    obtain ⟨x, hx, y, hy, hdisj⟩ := Finset.mem_image₂.mp h
    obtain ⟨rfl, rfl⟩ := Truth.disj_eq_fails.mp hdisj
    obtain ⟨ha, he⟩ := Outlook.fails_mem_compared.mp hx
    obtain ⟨-, ws, hws, hmember⟩ := ih hy
    exact ⟨fun _ => ha, some "1" :: ws, .cons he hws,
      Truth.disj_eq_fails.mpr ⟨by decide, hmember⟩⟩

/-- Membership can be decided by one value of the operand. -/
theorem exists_member {a : Finset Truth} {values : List Expr} (ha : a.Nonempty)
    (ht : t ≠ .unknown) (h : t ∈ outlookOfMember joined a values) :
    ∃ v ws, Outlook.Admits a v ∧
      List.Forall₂ (fun (e : Expr) w => Outlook.Admits (e.outlook joined) w) values ws ∧
      texts.member v ws = t := by
  cases t with
  | unknown => exact absurd rfl ht
  | holds =>
    obtain ⟨hknown, ws, hws, hmember⟩ := exists_member_holds h
    exact ⟨some "0", ws, hknown, hws, hmember⟩
  | fails =>
    obtain ⟨hknown, ws, hws, hmember⟩ := exists_member_fails h
    by_cases hempty : values = []
    · obtain ⟨v, hv⟩ := Outlook.exists_admits ha
      subst hempty
      exact ⟨v, [], hv, .nil, rfl⟩
    · exact ⟨some "0", ws, hknown hempty, hws, hmember⟩

/-! ## Instances -/

/-- `e'` is `e`, or a text in place of a leaf that may be known. -/
inductive LeafInstance (joined : String) : Expr → Expr → Prop
  | same (e : Expr) : LeafInstance joined e e
  | text {e : Expr} (text : String) : e.IsLeaf → Outlook.Known (e.outlook joined) →
      LeafInstance joined e (.text text)

/-- `e'` is `e` with texts in place of some leaves that may be known where the row of the table
`joined` is missing. Each place is filled by itself. -/
inductive Instance (joined : String) : Expr → Expr → Prop
  | leaf {e e' : Expr} : LeafInstance joined e e' → Instance joined e e'
  | comparison {op : BinaryOperator} {left left' right right' : Expr} : op.Compares →
      LeafInstance joined left left' → LeafInstance joined right right' →
      Instance joined (.binary op left right) (.binary op left' right')
  | isNull {e e' : Expr} (negated : Bool) : LeafInstance joined e e' →
      Instance joined (.isNull e negated) (.isNull e' negated)
  | inList {e e' : Expr} {values values' : List Expr} (negated : Bool) :
      LeafInstance joined e e' → List.Forall₂ (LeafInstance joined) values values' →
      Instance joined (.inList e values negated) (.inList e' values' negated)
  | between {e e' low low' high high' : Expr} (negated : Bool) : LeafInstance joined e e' →
      LeafInstance joined low low' → LeafInstance joined high high' →
      Instance joined (.between e low high negated) (.between e' low' high' negated)
  | and {left left' right right' : Expr} : Instance joined left left' →
      Instance joined right right' →
      Instance joined (.binary .and left right) (.binary .and left' right')
  | or {left left' right right' : Expr} : Instance joined left left' →
      Instance joined right right' →
      Instance joined (.binary .or left right) (.binary .or left' right')
  | not {e e' : Expr} : Instance joined e e' → Instance joined (.unary .not e) (.unary .not e')
  | paren {e e' : Expr} : Instance joined e e' → Instance joined (.paren e) (.paren e')

theorem LeafInstance.isNullLiteral_eq {e' : Expr} (h : LeafInstance joined e e') :
    e'.isNullLiteral = e.isNullLiteral := by
  cases h with
  | same => rfl
  | text text hleaf hknown =>
    obtain ⟨ref, rfl, -⟩ | ⟨table, name, rfl, -⟩ | ⟨l, rfl, hl⟩ := hleaf.cases_of_known hknown
    · rfl
    · rfl
    · cases l with
      | null => exact absurd rfl hl
      | int _ | float _ | string _ | bool _ => rfl

/-- A leaf has an instance with any value that its outlook admits. -/
theorem IsLeaf.exists_instance (h : e.IsLeaf) {v : Option String}
    (hv : Outlook.Admits (e.outlook joined) v) :
    ∃ e', LeafInstance joined e e' ∧ e'.value texts Row.missing = v := by
  cases v with
  | some s => exact ⟨.text s, .text s h hv, rfl⟩
  | none =>
    refine ⟨e, .same e, ?_⟩
    cases h with
    | localized ref => rfl
    | plain h =>
      cases h with
      | column table name => rfl
      | literal l =>
        cases l with
        | null => rfl
        | _ => simp [Outlook.Admits, outlook] at hv

theorem exists_instance_list {values : List Expr} (h : ∀ e ∈ values, e.IsLeaf)
    {ws : List (Option String)}
    (hws : List.Forall₂ (fun (e : Expr) w => Outlook.Admits (e.outlook joined) w) values ws) :
    ∃ values', List.Forall₂ (LeafInstance joined) values values' ∧
      valueOfList texts Row.missing values' = ws := by
  induction hws with
  | nil => exact ⟨[], .nil, rfl⟩
  | cons hw _ ih =>
    rw [List.forall_mem_cons] at h
    obtain ⟨e', he', rfl⟩ := h.1.exists_instance hw
    obtain ⟨values', hvalues', rfl⟩ := ih h.2
    exact ⟨e' :: values', .cons he' hvalues', rfl⟩

theorem Instance.refl (e : Expr) : e.Instance joined e := .leaf (.same e)

/-! ## Instances are logical, too -/

theorem LeafInstance.isLeaf {e' : Expr} (h : LeafInstance joined e e') (he : e.IsLeaf) :
    e'.IsLeaf := by
  cases h with
  | same => exact he
  | text => exact .plain (.literal _)

theorem isLeaf_of_instances {values values' : List Expr}
    (h : List.Forall₂ (LeafInstance joined) values values') (hvalues : ∀ e ∈ values, e.IsLeaf) :
    ∀ e ∈ values', e.IsLeaf := by
  induction h with
  | nil => exact hvalues
  | cons hvalue _ ih =>
    rw [List.forall_mem_cons] at hvalues ⊢
    exact ⟨hvalue.isLeaf hvalues.1, ih hvalues.2⟩

theorem LeafInstance.logical {e' : Expr} (h : LeafInstance joined e e') (he : e.Logical) :
    e'.Logical := by
  cases h with
  | same => exact he
  | text => exact .atom (.leaf (.plain (.literal _)))

theorem Instance.logical_of_isAtom {e' : Expr} (h : e.Instance joined e')
    (he : e.IsAtom (fun values => ∀ e ∈ values, e.IsLeaf) IsLeaf) : e'.Logical := by
  cases he with
  | leaf he =>
    cases h with
    | leaf h => exact .atom (.leaf (h.isLeaf he))
    | _ => obtain ⟨⟨⟩⟩ := he
  | comparison hop hl hr =>
    cases h with
    | leaf h => exact h.logical (.atom (.comparison hop hl hr))
    | comparison _ hleft hright =>
      exact .atom (.comparison hop (hleft.isLeaf hl) (hright.isLeaf hr))
    | and | or => simp [BinaryOperator.Compares] at hop
  | isNull negated he =>
    cases h with
    | leaf h => exact h.logical (.atom (.isNull negated he))
    | isNull _ h => exact .atom (.isNull negated (h.isLeaf he))
  | inList negated he hlist =>
    cases h with
    | leaf h => exact h.logical (.atom (.inList negated he hlist))
    | inList _ h hvalues =>
      exact .atom (.inList negated (h.isLeaf he) (isLeaf_of_instances hvalues hlist))
  | between negated he hl hu =>
    cases h with
    | leaf h => exact h.logical (.atom (.between negated he hl hu))
    | between _ h hlow hhigh =>
      exact .atom (.between negated (h.isLeaf he) (hlow.isLeaf hl) (hhigh.isLeaf hu))

/-- An instance of a logical predicate is a logical predicate. -/
theorem Instance.logical {e' : Expr} (h : e.Instance joined e') (he : e.Logical) :
    e'.Logical := by
  induction he generalizing e' with
  | atom he => exact h.logical_of_isAtom he
  | and hl hr ihl ihr =>
    cases h with
    | leaf h => exact h.logical (.and hl hr)
    | comparison hop => simp [BinaryOperator.Compares] at hop
    | and hleft hright => exact .and (ihl hleft) (ihr hright)
  | or hl hr ihl ihr =>
    cases h with
    | leaf h => exact h.logical (.or hl hr)
    | comparison hop => simp [BinaryOperator.Compares] at hop
    | or hleft hright => exact .or (ihl hleft) (ihr hright)
  | not he ih =>
    cases h with
    | leaf h => exact h.logical (.not he)
    | not h => exact .not (ih h)
  | paren he ih =>
    cases h with
    | leaf h => exact h.logical (.paren he)
    | paren h => exact .paren (ih h)

/-! ## Instances have narrower outlooks -/

theorem LeafInstance.outlook_subset {e' : Expr} (h : LeafInstance joined e e') :
    e'.outlook joined ⊆ e.outlook joined := by
  cases h with
  | same => exact Finset.Subset.refl _
  | text text hleaf hknown =>
    obtain ⟨ref, rfl, htable⟩ | ⟨table, name, rfl, htable⟩ | ⟨l, rfl, hl⟩ :=
      hleaf.cases_of_known hknown
    · have hall : (Expr.localized ref).outlook joined = Finset.univ := if_neg htable
      rw [hall]
      exact Finset.subset_univ _
    · have hall : (Expr.column table name).outlook joined = Finset.univ := if_neg htable
      rw [hall]
      exact Finset.subset_univ _
    · cases l with
      | null => exact absurd rfl hl
      | int _ | float _ | string _ | bool _ => exact Finset.Subset.refl _

theorem outlookOfMember_subset {a b : Finset Truth} (hab : a ⊆ b) {values values' : List Expr}
    (h : List.Forall₂ (LeafInstance joined) values values') :
    outlookOfMember joined a values' ⊆ outlookOfMember joined b values := by
  induction h with
  | nil => exact Finset.Subset.refl _
  | cons hvalue _ ih =>
    exact Finset.image₂_subset (Outlook.compared_subset hab hvalue.outlook_subset) ih

/-- An instance may come to no more than the predicate. -/
theorem Instance.outlook_subset {e' : Expr} (h : e.Instance joined e') :
    e'.outlook joined ⊆ e.outlook joined := by
  induction h with
  | leaf h => exact h.outlook_subset
  | comparison hop hleft hright =>
    rw [outlook, outlook, hleft.isNullLiteral_eq, hright.isNullLiteral_eq]
    exact Outlook.operated_subset hop hleft.outlook_subset hright.outlook_subset
  | isNull _ h =>
    exact Finset.image_subset_image (Finset.image_subset_image h.outlook_subset)
  | inList _ h hvalues =>
    exact Finset.image_subset_image (outlookOfMember_subset h.outlook_subset hvalues)
  | between _ h hlow hhigh =>
    exact Finset.image_subset_image (Finset.image₂_subset
      (Outlook.compared_subset h.outlook_subset hlow.outlook_subset)
      (Outlook.compared_subset h.outlook_subset hhigh.outlook_subset))
  | and _ _ ihl ihr | or _ _ ihl ihr => exact Finset.image₂_subset ihl ihr
  | not _ ih => exact Finset.image_subset_image ih
  | paren _ ih => exact ih

/-! ## Outlooks are kept -/

/-- What the outlook of an atom contains is what an instance comes to. -/
theorem IsAtom.exists_instance
    (h : e.IsAtom (fun values => ∀ e ∈ values, e.IsLeaf) IsLeaf) (ht : t ≠ .unknown)
    (hmem : t ∈ e.outlook joined) :
    ∃ e', e.Instance joined e' ∧ e'.truth texts Row.missing = t := by
  cases h with
  | leaf h =>
    have hknown := Outlook.known_iff.mpr ⟨t, hmem, ht⟩
    cases t with
    | holds => exact ⟨.text "1", .leaf (.text "1" h hknown), by decide⟩
    | fails => exact ⟨.text "0", .leaf (.text "0" h hknown), by decide⟩
    | unknown => exact absurd rfl ht
  | @comparison op left right hop hleft hright =>
    obtain ⟨v, w, hv, hw, hvw⟩ := Outlook.exists_operate hop (left.outlook_nonempty joined)
      (right.outlook_nonempty joined) ht hmem
    obtain ⟨left', hleft', rfl⟩ := hleft.exists_instance hv
    obtain ⟨right', hright', rfl⟩ := hright.exists_instance hw
    refine ⟨.binary op left' right', .comparison hop hleft' hright', ?_⟩
    rw [truth, value, hleft'.isNullLiteral_eq, hright'.isNullLiteral_eq, hvw]
  | isNull negated h =>
    obtain ⟨x, hx, rfl⟩ := Finset.mem_image.mp hmem
    obtain ⟨v, hv, rfl⟩ := Outlook.exists_nullTest hx
    obtain ⟨e', he', rfl⟩ := h.exists_instance hv
    exact ⟨.isNull e' negated, .isNull negated he', texts.truth_ofTruth _⟩
  | @inList e values negated h hvalues =>
    obtain ⟨x, hx, rfl⟩ := Finset.mem_image.mp hmem
    have hxt : x ≠ .unknown := fun hx => ht (by rw [hx]; cases negated <;> rfl)
    obtain ⟨v, ws, hv, hws, rfl⟩ := exists_member (e.outlook_nonempty joined) hxt hx
    obtain ⟨e', he', rfl⟩ := h.exists_instance hv
    obtain ⟨values', hvalues', rfl⟩ := exists_instance_list hvalues hws
    exact ⟨.inList e' values' negated, .inList negated he' hvalues', texts.truth_ofTruth _⟩
  | @between e low high negated h hlow hhigh =>
    obtain ⟨x, hx, rfl⟩ := Finset.mem_image.mp hmem
    have hxt : x ≠ .unknown := fun hx => ht (by rw [hx]; cases negated <;> rfl)
    obtain ⟨v, l, u, hv, hl, hu, rfl⟩ := Outlook.exists_within (low.outlook_nonempty joined)
      (high.outlook_nonempty joined) hxt hx
    obtain ⟨e', he', rfl⟩ := h.exists_instance hv
    obtain ⟨low', hlow', rfl⟩ := hlow.exists_instance hl
    obtain ⟨high', hhigh', rfl⟩ := hhigh.exists_instance hu
    exact ⟨.between e' low' high' negated, .between negated he' hlow' hhigh',
      texts.truth_ofTruth _⟩

/-- **What an outlook contains is what an instance comes to.** -/
theorem Logical.exists_instance (h : e.Logical) (ht : t ≠ .unknown)
    (hmem : t ∈ e.outlook joined) :
    ∃ e', e.Instance joined e' ∧ e'.truth texts Row.missing = t := by
  induction h generalizing t with
  | atom h => exact h.exists_instance ht hmem
  | @and left right _ _ ihl ihr =>
    obtain ⟨x, hx, y, hy, hconj⟩ := Finset.mem_image₂.mp hmem
    cases t with
    | unknown => exact absurd rfl ht
    | holds =>
      obtain ⟨rfl, rfl⟩ := Truth.conj_eq_holds.mp hconj
      obtain ⟨left', hleft', htruth⟩ := ihl (by simp) hx
      obtain ⟨right', hright', htruth'⟩ := ihr (by simp) hy
      exact ⟨_, .and hleft' hright', by simp [htruth, htruth']⟩
    | fails =>
      -- One side that fails is enough, so the other may stay as it is.
      rcases Truth.conj_eq_fails.mp hconj with rfl | rfl
      · obtain ⟨left', hleft', htruth⟩ := ihl (by simp) hx
        exact ⟨_, .and hleft' (.refl right), by simp [htruth]⟩
      · obtain ⟨right', hright', htruth⟩ := ihr (by simp) hy
        exact ⟨_, .and (.refl left) hright', by simp [htruth]⟩
  | @or left right _ _ ihl ihr =>
    obtain ⟨x, hx, y, hy, hdisj⟩ := Finset.mem_image₂.mp hmem
    cases t with
    | unknown => exact absurd rfl ht
    | holds =>
      rcases Truth.disj_eq_holds.mp hdisj with rfl | rfl
      · obtain ⟨left', hleft', htruth⟩ := ihl (by simp) hx
        exact ⟨_, .or hleft' (.refl right), by simp [htruth]⟩
      · obtain ⟨right', hright', htruth⟩ := ihr (by simp) hy
        exact ⟨_, .or (.refl left) hright', by simp [htruth]⟩
    | fails =>
      obtain ⟨rfl, rfl⟩ := Truth.disj_eq_fails.mp hdisj
      obtain ⟨left', hleft', htruth⟩ := ihl (by simp) hx
      obtain ⟨right', hright', htruth'⟩ := ihr (by simp) hy
      exact ⟨_, .or hleft' hright', by simp [htruth, htruth']⟩
  | not _ ih =>
    obtain ⟨x, hx, rfl⟩ := Finset.mem_image.mp hmem
    have hxt : x ≠ .unknown := fun hx => ht (by rw [hx]; rfl)
    obtain ⟨e', he', htruth⟩ := ih hxt hx
    exact ⟨_, .not he', by simp [htruth]⟩
  | paren _ ih =>
    obtain ⟨e', he', htruth⟩ := ih ht hmem
    exact ⟨_, .paren he', htruth⟩

end Expr

end LocalizedQuery
