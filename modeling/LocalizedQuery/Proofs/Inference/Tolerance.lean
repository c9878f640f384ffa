import LocalizedQuery.Backend.Basic
import LocalizedQuery.Proofs.Inference.HiddenReferences
import LocalizedQuery.Proofs.Outline

/-!
# What inference does not tell apart

When may one expression stand for another without inference noticing? Inference sees three things of
an expression: its owned references in their order, which of these are optional, and whether it is
refused. `Expr.NoMoreTolerant` compares them, in one direction: where the second expression needs a
row, so does the first. Expressions that compare both ways are equally tolerant
(`Expr.EquallyTolerant`).

The comparison passes from the children to the whole as long as the outline stays. There is one
thing that it does not see: an `=` also looks at whether a side is the literal `NULL`. So this has
to be compared, too, of what stands directly below an `=` (`Expr.toleratesMissing_of_children`).

## Main results

* `Expr.NoMoreTolerant.of_children` — from the children to the whole
* `Backend.infersNarrower_of_noMoreTolerant` — joins only become inner, and all else stays
* `Backend.infersAlike_of_equallyTolerant` — what is equally tolerant is inferred alike
-/

namespace LocalizedQuery

variable {owns p : Reference → Bool}

/-- Lists that agree under a function element by element. -/
theorem map_eq_of_forall₂ {α β : Type} {f : α → β} {l l' : List α}
    (h : List.Forall₂ (fun a a' => f a = f a') l l') : l.map f = l'.map f := by
  rw [← List.forall₂_eq_eq_eq, List.forall₂_map_left_iff, List.forall₂_map_right_iff]
  exact h

/-- Steps that agree element by element agree one after the other. -/
theorem forM_of_forall₂ {α ε : Type} {f : α → Except ε Unit} {l l' : List α}
    (h : List.Forall₂ (fun a a' => f a = f a') l l') : l.forM f = l'.forM f := by
  induction h with
  | nil => rfl
  | cons hfirst _ ih => rw [forM_cons, forM_cons, hfirst, ih]

theorem exists_of_forall₂ {α β : Type} {R : α → β → Prop} {l : List α} {l' : List β}
    (h : List.Forall₂ R l l') {a : α} (ha : a ∈ l) : ∃ b ∈ l', R a b := by
  induction h with
  | nil => exact absurd ha List.not_mem_nil
  | cons hfirst _ ih =>
    rcases List.mem_cons.mp ha with rfl | ha
    · exact ⟨_, List.mem_cons_self, hfirst⟩
    · obtain ⟨b, hb, hab⟩ := ih ha
      exact ⟨b, List.mem_cons_of_mem _ hb, hab⟩

namespace Expr

variable {e e' e'' : Expr}

/-- An expression needs every owned row that another one needs, and is otherwise like it. -/
structure NoMoreTolerant (owns : Reference → Bool) (e e' : Expr) : Prop where
  references_eq : e.references.filter owns = e'.references.filter owns
  optional : ∀ bare ref, owns ref = true →
    ref ∈ e.optionalReferences bare → ref ∈ e'.optionalReferences bare
  refused_eq : rejectUnsupported owns e = rejectUnsupported owns e'

/-- Two expressions need the same owned rows, and are otherwise alike. -/
def EquallyTolerant (owns : Reference → Bool) (e e' : Expr) : Prop :=
  e.NoMoreTolerant owns e' ∧ e'.NoMoreTolerant owns e

namespace NoMoreTolerant

theorem refl (e : Expr) : e.NoMoreTolerant owns e := ⟨rfl, fun _ _ _ => id, rfl⟩

theorem trans (h : e.NoMoreTolerant owns e') (h' : e'.NoMoreTolerant owns e'') :
    e.NoMoreTolerant owns e'' where
  references_eq := h.references_eq.trans h'.references_eq
  optional bare ref howns href := h'.optional bare ref howns (h.optional bare ref howns href)
  refused_eq := h.refused_eq.trans h'.refused_eq

theorem mem_references (h : e.NoMoreTolerant owns e') {ref : Reference} (howns : owns ref = true) :
    ref ∈ e.references ↔ ref ∈ e'.references := by
  have hfilter : ref ∈ e.references.filter owns ↔ ref ∈ e'.references.filter owns := by
    rw [h.references_eq]
  rwa [List.mem_filter, List.mem_filter, and_iff_left howns, and_iff_left howns] at hfilter

/-- What owns nothing may stand for what owns nothing. -/
theorem of_not_owned (h : ∀ ref ∈ e.references, owns ref = false)
    (h' : ∀ ref ∈ e'.references, owns ref = false) : e.NoMoreTolerant owns e' where
  references_eq := by
    rw [List.filter_eq_nil_iff.mpr fun ref href => Bool.eq_false_iff.mp (h ref href),
      List.filter_eq_nil_iff.mpr fun ref href => Bool.eq_false_iff.mp (h' ref href)]
  optional bare ref howns href := by
    rw [h ref (e.optionalReferences_subset bare href)] at howns
    exact absurd howns Bool.false_ne_true
  refused_eq := by
    rw [rejectUnsupported_eq_ok.mpr (exposes_of_not_owned h),
      rejectUnsupported_eq_ok.mpr (exposes_of_not_owned h')]

end NoMoreTolerant

/-! ## From the children to the whole -/

@[simp] theorem isCase_outline (e : Expr) : e.outline.isCase = e.isCase := by
  cases e <;> rfl

@[simp] theorem settles_outline (e : Expr) : e.outline.settles = e.settles := by
  cases e with
  | binary op => cases op <;> rfl
  | _ => rfl

/-- Whether an expression compares by `=`. -/
def isEquality : Expr → Bool
  | .binary .eq _ _ => true
  | _ => false

@[simp] theorem isEquality_outline (e : Expr) : e.outline.isEquality = e.isEquality := by
  cases e with
  | binary op => cases op <;> rfl
  | _ => rfl

/-- Which missing rows an expression tolerates shows in its outline, but for an `=`, where the
literal `NULL` among the children decides. -/
theorem toleratesMissing_eq (e : Expr) : e.toleratesMissing
    = (e.outline.toleratesMissing || (e.isEquality && e.children.any isNullLiteral)) := by
  cases e with
  | binary op left right =>
    cases op <;>
      simp [toleratesMissing, isEquality, children, outline, mapChildren, mapChildrenIdx,
        isNullLiteral]
  | _ => simp [toleratesMissing, isEquality, outline, mapChildren, mapChildrenIdx]

/-- Nothing is optional in a `CASE`. -/
theorem isCase_of_mem_optionalReferences {bare : Bool} {ref : Reference}
    (h : ref ∈ e.optionalReferences bare) : e.isCase = false := by
  cases e with
  | caseOf => exact absurd h List.not_mem_nil
  | _ => rfl

/-- Where no `NULL` beside an `=` goes away, no missing row does that is tolerated. -/
theorem toleratesMissing_of_children (houtline : e.outline = e'.outline)
    (hnull : e.isEquality = true → e.children.any isNullLiteral = true →
      e'.children.any isNullLiteral = true)
    (h : e.toleratesMissing = true) : e'.toleratesMissing = true := by
  have hequality : e.isEquality = e'.isEquality := by
    rw [← isEquality_outline e, houtline, isEquality_outline]
  rw [toleratesMissing_eq, Bool.or_eq_true, Bool.and_eq_true] at h ⊢
  rw [← houtline, ← hequality]
  exact h.imp_right fun ⟨hself, hany⟩ => ⟨hself, hnull hself hany⟩

namespace NoMoreTolerant

theorem references_of_children (houtline : e.outline = e'.outline)
    (h : List.Forall₂ (NoMoreTolerant owns) e.children e'.children) :
    e.references.filter owns = e'.references.filter owns := by
  by_cases hlocalized : ∃ ref, e = .localized ref
  · obtain ⟨ref, href⟩ := hlocalized
    rw [href, (eq_localized_of_outline houtline).mp href]
  · have hne : ∀ ref, e ≠ .localized ref := fun ref href => hlocalized ⟨ref, href⟩
    have hne' : ∀ ref, e' ≠ .localized ref :=
      fun ref href => hne ref ((eq_localized_of_outline houtline).mpr href)
    rw [references_eq_flatMap_children hne, references_eq_flatMap_children hne',
      List.filter_flatMap, List.filter_flatMap, List.flatMap_def, List.flatMap_def,
      map_eq_of_forall₂ (h.imp fun _ _ hchild => hchild.references_eq)]

theorem refused_of_children (houtline : e.outline = e'.outline)
    (h : List.Forall₂ (NoMoreTolerant owns) e.children e'.children) :
    rejectUnsupported owns e = rejectUnsupported owns e' := by
  have hcase : e.isCase = e'.isCase := by
    rw [← isCase_outline e, houtline, isCase_outline]
  rw [rejectUnsupported_eq, rejectUnsupported_eq]
  cases hsees : e.isCase with
  | true =>
    -- A `CASE` is refused for its first owned reference.
    rw [hsees, eq_comm] at hcase
    have hfind : e.findReference owns = e'.findReference owns := by
      rw [findReference, findReference, ← List.head?_filter, ← List.head?_filter,
        references_of_children houtline h]
    rw [outermostCases_of_isCase hsees, outermostCases_of_isCase hcase, refuseHidden, refuseHidden,
      List.findSome?_singleton, List.findSome?_singleton, hiddenReference, hiddenReference, hfind]
  | false =>
    rw [hsees, eq_comm] at hcase
    rw [outermostCases_eq_flatMap (Node.of_ne_unsupported_iff.mpr hsees),
      outermostCases_eq_flatMap (Node.of_ne_unsupported_iff.mpr hcase), refuseHidden_flatMap,
      refuseHidden_flatMap]
    exact forM_of_forall₂ (h.imp fun _ _ hchild => hchild.refused_eq)

theorem optional_of_children (houtline : e.outline = e'.outline)
    (htolerates : e.toleratesMissing = true → e'.toleratesMissing = true)
    (h : List.Forall₂ (NoMoreTolerant owns) e.children e'.children) {bare : Bool} {ref : Reference}
    (howns : owns ref = true) (href : ref ∈ e.optionalReferences bare) :
    ref ∈ e'.optionalReferences bare := by
  by_cases htolerant : e'.toleratesMissing = true
  · rw [optionalReferences_of_toleratesMissing htolerant]
    have hmem := List.mem_filter.mpr ⟨e.optionalReferences_subset bare href, howns⟩
    rw [references_of_children houtline h] at hmem
    exact (List.mem_filter.mp hmem).1
  · have hstrict : e.toleratesMissing = false := Bool.eq_false_iff.mpr (htolerant ∘ htolerates)
    rw [Bool.not_eq_true] at htolerant
    have hsees : e.isCase = false := isCase_of_mem_optionalReferences href
    have hsees' : e'.isCase = false := by
      rw [← isCase_outline e', ← houtline, isCase_outline, hsees]
    have hsettles : e'.settles = e.settles := by
      rw [← settles_outline e', ← houtline, settles_outline]
    rw [mem_optionalReferences_step (Node.of_ne_unsupported_iff.mpr hsees') htolerant, hsettles]
    rcases (mem_optionalReferences_step (Node.of_ne_unsupported_iff.mpr hsees) hstrict).mp href with
      ⟨hself, hbare⟩ | ⟨hunsettled, child, hchild, hoptional⟩
    · exact .inl ⟨((eq_localized_of_outline houtline).mp hself.symm).symm, hbare⟩
    · obtain ⟨child', hchild', hcompare⟩ := exists_of_forall₂ h hchild
      exact .inr ⟨hunsettled, child', hchild', hcompare.optional bare ref howns hoptional⟩

/-- **From the children to the whole.** -/
theorem of_children (houtline : e.outline = e'.outline)
    (htolerates : e.toleratesMissing = true → e'.toleratesMissing = true)
    (h : List.Forall₂ (NoMoreTolerant owns) e.children e'.children) :
    e.NoMoreTolerant owns e' where
  references_eq := references_of_children houtline h
  refused_eq := refused_of_children houtline h
  optional _ _ howns href := optional_of_children houtline htolerates h howns href

end NoMoreTolerant

namespace EquallyTolerant

theorem refl (e : Expr) : e.EquallyTolerant owns e := ⟨.refl e, .refl e⟩

theorem trans (h : e.EquallyTolerant owns e') (h' : e'.EquallyTolerant owns e'') :
    e.EquallyTolerant owns e'' :=
  ⟨h.1.trans h'.1, h'.2.trans h.2⟩

/-- What owns nothing may stand for what owns nothing, both ways. -/
theorem of_not_owned (h : ∀ ref ∈ e.references, owns ref = false)
    (h' : ∀ ref ∈ e'.references, owns ref = false) : e.EquallyTolerant owns e' :=
  ⟨.of_not_owned h h', .of_not_owned h' h⟩

/-- **From the children to the whole, both ways.** -/
theorem of_children (houtline : e.outline = e'.outline)
    (hnull : e.isEquality = true →
      e.children.map isNullLiteral = e'.children.map isNullLiteral)
    (h : List.Forall₂ (EquallyTolerant owns) e.children e'.children) :
    e.EquallyTolerant owns e' := by
  have hany : e.isEquality = true →
      e.children.any isNullLiteral = e'.children.any isNullLiteral := by
    intro heq
    simpa only [List.any_map, Function.id_comp] using congrArg (List.any · id) (hnull heq)
  have hequality : e'.isEquality = e.isEquality := by
    rw [← isEquality_outline e', ← houtline, isEquality_outline]
  refine ⟨.of_children houtline (toleratesMissing_of_children houtline fun heq htrue => ?_)
      (h.imp fun _ _ => And.left),
    .of_children houtline.symm (toleratesMissing_of_children houtline.symm fun heq htrue => ?_)
      (.flip (h.imp fun _ _ => And.right))⟩
  · rwa [← hany heq]
  · rwa [hany (hequality ▸ heq)]

end EquallyTolerant

end Expr

/-! ## What inference finds -/

/-- A kind is another one, or inner instead of outer. -/
def Narrows (kind kind' : Option JoinKind) : Prop :=
  kind = kind' ∨ kind = some .inner ∧ kind' = some .outer

theorem Narrows.antisymm {kind kind' : Option JoinKind} (h : Narrows kind kind')
    (h' : Narrows kind' kind) : kind = kind' := by
  rcases h with h | ⟨rfl, rfl⟩
  · exact h
  · rcases h' with h' | ⟨h', -⟩
    · exact h'.symm
    · cases h'

/-- Maps that give kinds to the same names, where joins only become inner. -/
def JoinMap.Narrows (joins joins' : JoinMap) : Prop :=
  ∀ name, LocalizedQuery.Narrows (joins.get? name) (joins'.get? name)

theorem JoinMap.Narrows.antisymm {joins joins' : JoinMap} (h : joins.Narrows joins')
    (h' : joins'.Narrows joins) : joins = joins' :=
  NameMap.ext_get? fun name => (h name).antisymm (h' name)

variable {e e' : Expr} {locale : Locale}

theorem Expr.NoMoreTolerant.narrows_kindAmong (h : e.NoMoreTolerant owns e') (bare : Bool)
    (hp : ∀ ref, p ref = true → owns ref = true) :
    Narrows (kindAmong p e.references (e.optionalReferences bare))
      (kindAmong p e'.references (e'.optionalReferences bare)) := by
  have hall : e.references.any p = e'.references.any p := by
    rw [Bool.eq_iff_iff, List.any_eq_true, List.any_eq_true]
    exact exists_congr fun ref => and_congr_left fun href => h.mem_references (hp ref href)
  have hoptional : (e.optionalReferences bare).any p = true →
      (e'.optionalReferences bare).any p = true := by
    rw [List.any_eq_true, List.any_eq_true]
    rintro ⟨ref, hmem, href⟩
    exact ⟨ref, h.optional bare ref (hp ref href) hmem, href⟩
  by_cases houter : (e'.optionalReferences bare).any p = true
  · rw [kindAmong_eq_outer_iff.mpr houter]
    by_cases houter' : (e.optionalReferences bare).any p = true
    · exact .inl (kindAmong_eq_outer_iff.mpr houter')
    · refine .inr ⟨kindAmong_eq_inner_iff.mpr ⟨?_, Bool.eq_false_iff.mpr houter'⟩, rfl⟩
      rw [hall]
      exact any_of_subset (e'.optionalReferences_subset bare) houter
  · rw [kindAmong, kindAmong, if_neg houter, if_neg (houter ∘ hoptional), hall]
    exact .inl rfl

namespace Backend

variable {b : Backend}

/-- A backend infers the same for two predicates, a result or an error. -/
def InfersAlike (b : Backend) (locale : Locale) (e e' : Expr) : Prop :=
  match b with
  | .keyValue b => b.infer e locale = b.infer e' locale
  | .table b => b.infer e locale = b.infer e' locale

/-- A backend infers the same for two predicates, but that joins may become inner. -/
def InfersNarrower (b : Backend) (locale : Locale) (e e' : Expr) : Prop :=
  match b with
  | .keyValue b => FareAlike JoinMap.Narrows (b.infer e locale) (b.infer e' locale)
  | .table b => FareAlike Narrows (b.infer e locale) (b.infer e' locale)

theorem InfersNarrower.antisymm (h : b.InfersNarrower locale e e')
    (h' : b.InfersNarrower locale e' e) : b.InfersAlike locale e e' := by
  cases b with
  | keyValue b => exact FareAlike.antisymm (fun _ _ => JoinMap.Narrows.antisymm) h h'
  | table b => exact FareAlike.antisymm (fun _ _ => Narrows.antisymm) h h'

/-- **Where every row stays needed, joins only become inner.** -/
theorem infersNarrower_of_noMoreTolerant
    (h : e.NoMoreTolerant (Reference.belongsTo b.id locale) e') : b.InfersNarrower locale e e' := by
  cases b with
  | keyValue b =>
    have hverdict := (KeyValueBackend.failsInOrder b.id locale).verdict_accept
    refine FareAlike.of_verdict ((hverdict e).trans (h.refused_eq.trans (hverdict e').symm)) ?_
    intro joins joins' hjoins hjoins' name
    rw [KeyValueBackend.get?_infer hjoins, KeyValueBackend.get?_infer hjoins']
    exact h.narrows_kindAmong false fun ref href => (Bool.and_eq_true_iff.mp href).1
  | table b =>
    have hverdict := (TableBackend.failsInOrder b.id locale).verdict_accept
    refine FareAlike.of_verdict ((hverdict e).trans (h.refused_eq.trans (hverdict e').symm)) ?_
    intro found found' hfound hfound'
    rw [TableBackend.infer_eq hfound, TableBackend.infer_eq hfound']
    exact h.narrows_kindAmong true fun _ href => href

/-- **What is equally tolerant is inferred alike.** -/
theorem infersAlike_of_equallyTolerant
    (h : e.EquallyTolerant (Reference.belongsTo b.id locale) e') : b.InfersAlike locale e e' :=
  (infersNarrower_of_noMoreTolerant h.1).antisymm (infersNarrower_of_noMoreTolerant h.2)

/-- What is inferred alike is planned alike. -/
theorem InfersAlike.planJoins_eq (h : b.InfersAlike locale e e') (invert : Bool) :
    b.planJoins e locale invert = b.planJoins e' locale invert := by
  cases b with
  | keyValue b => exact congrArg (Except.map _) h
  | table b => exact congrArg (Except.map _) h

end Backend

end LocalizedQuery
