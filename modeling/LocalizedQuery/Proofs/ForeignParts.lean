import LocalizedQuery.Proofs.Inference.Tolerance
import LocalizedQuery.Proofs.LocalizedModel

/-!
# Backends and locales do not interfere

A predicate may speak of several backends and locales at once. For one of them, the parts that
belong to the others are foreign (`Expr.IsForeign`): no reference in them is its own. What such a
part looks like makes no difference to the joins that are planned, nor to the error, even if it
brings an `AND`, an `OR`, a comparison or a `CASE` with it: the parts may be replaced by other ones
at any number of places (`Expr.Replaced`).

The literal `NULL` is not foreign. It holds no reference either, but an `=` beside it is a test for
a missing row.

## Main results

* `Backend.planJoins_of_replaced` — foreign parts may be replaced
-/

namespace LocalizedQuery

namespace Expr

variable {owns : Reference → Bool} {R : Expr → Expr → Prop} {e e' : Expr}

/-- Nothing of what `owns` chooses, and not the literal `NULL`. -/
structure IsForeign (owns : Reference → Bool) (e : Expr) : Prop where
  not_owned : ∀ ref ∈ e.references, owns ref = false
  not_null : e.isNullLiteral = false

/-- Two expressions that differ only in parts that are related. -/
inductive Replaced (R : Expr → Expr → Prop) : Expr → Expr → Prop
  | swap {part part' : Expr} : R part part' → Replaced R part part'
  | inside {e e' : Expr} : e.outline = e'.outline →
      List.Forall₂ (Replaced R) e.children e'.children → Replaced R e e'

/-- A foreign part and another one in its place. -/
def ForeignPair (owns : Reference → Bool) (part part' : Expr) : Prop :=
  part.IsForeign owns ∧ part'.IsForeign owns

/-- Parts may stay as they are. -/
theorem Replaced.refl (e : Expr) : Replaced R e e := by
  induction e using induction_on_children with
  | h e ih => exact .inside rfl (List.forall₂_same.mpr ih)

/-- Replacing foreign parts neither makes nor removes the literal `NULL`. -/
theorem Replaced.isNullLiteral_eq (h : Replaced (ForeignPair owns) e e') :
    e.isNullLiteral = e'.isNullLiteral := by
  cases h with
  | swap h => rw [h.1.not_null, h.2.not_null]
  | inside houtline _ => exact isNullLiteral_of_outline houtline

/-- **Foreign parts are equally tolerant**, wherever they stand. -/
theorem Replaced.equallyTolerant (h : Replaced (ForeignPair owns) e e') :
    e.EquallyTolerant owns e' := by
  -- The relation is nested in a list, so the induction is on the expression.
  induction e using induction_on_children generalizing e' with
  | h e ih =>
    cases h with
    | swap h => exact .of_not_owned h.1.not_owned h.2.not_owned
    | inside houtline hchildren =>
      refine .of_children houtline (fun _ => ?_) ?_
      · exact map_eq_of_forall₂ (hchildren.imp fun _ _ => isNullLiteral_eq)
      · exact ((List.forall₂_and_left _ _).mpr ⟨ih, hchildren⟩).imp fun _ _ h => h.1 h.2

end Expr

namespace Backend

/-- **Backends and locales do not interfere.** Whatever foreign parts of a predicate are replaced by
other ones, a backend plans the same joins for a locale, or fails with the same error. -/
theorem planJoins_of_replaced {b : Backend} {locale : Locale} {e e' : Expr}
    (h : Expr.Replaced (Expr.ForeignPair (Reference.belongsTo b.id locale)) e e') (invert : Bool) :
    b.planJoins e locale invert = b.planJoins e' locale invert :=
  (infersAlike_of_equallyTolerant h.equallyTolerant).planJoins_eq invert

/-- The body in English, which another backend keeps. -/
def foreignBody : Expr := .localized (LocalizedModel.postBodies.reference "body" ⟨"en"⟩)

/-- The title in English, and nothing foreign but a comparison with the body. -/
def titleAndBody : Expr :=
  (LocalizedModel.postTitle.equals (.text "x")).both (foreignBody.equals (.text "y"))

/-- The same of the title, and a `CASE` over the body and the title in German. -/
def titleAndCase : Expr :=
  (LocalizedModel.postTitle.equals (.text "x")).both (.caseOf none
    [(.binary .or (.isNull foreignBody false)
        (.localized (LocalizedModel.postTitles.reference "title" ⟨"de"⟩)), .literal (.bool true))]
    none)

/-- The titles are joined alike with either of them. -/
theorem planJoins_titleAndCase :
    Expr.Replaced (Expr.ForeignPair (Reference.belongsTo LocalizedModel.postTitles.id ⟨"en"⟩))
        titleAndBody titleAndCase ∧
      (Backend.keyValue LocalizedModel.postTitles).planJoins titleAndBody ⟨"en"⟩ true
        = (Backend.keyValue LocalizedModel.postTitles).planJoins titleAndCase ⟨"en"⟩ true := by
  have h : Expr.Replaced
      (Expr.ForeignPair (Reference.belongsTo LocalizedModel.postTitles.id ⟨"en"⟩))
      titleAndBody titleAndCase :=
    .inside rfl (.cons (.refl _) (.cons (.swap ⟨⟨by decide, rfl⟩, ⟨by decide, rfl⟩⟩) .nil))
  exact ⟨h, planJoins_of_replaced (b := .keyValue LocalizedModel.postTitles) h true⟩

end Backend

end LocalizedQuery
