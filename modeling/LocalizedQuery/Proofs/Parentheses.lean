import LocalizedQuery.Proofs.Inference.Tolerance
import LocalizedQuery.Proofs.LocalizedModel

/-!
# Parentheses and inference

Parentheses put around a part of a predicate change no meaning, and inference sees through them: a
parenthesized part has the references, the optional ones and the hidden ones of what it holds. But
an `=` also asks of its sides whether they are the literal `NULL`, and a `NULL` in parentheses is
none (`Expr.isNullLiteral`). So there is one place where parentheses do matter
(`Expr.ComparesNull`): around a `NULL` directly beside an `=` that holds an owned reference. There
the test for a missing row is lost, and inference goes on as with any other literal.

What is lost is the outer kind of a join only. Whichever part is put in parentheses, the same joins
are found, or the same error.

## Main results

* `Backend.infers_parenthesized` — what parentheses change
* `Backend.parenthesized_null_demotes_outer` — the place where they matter
-/

namespace LocalizedQuery

/-- Two ways to change the elements of a list. -/
theorem forall₂_mapIdx {α β : Type} {R : β → β → Prop} {F G : Nat → α → β} {l : List α}
    (h : ∀ i a, l[i]? = some a → R (F i a) (G i a)) :
    List.Forall₂ R (l.mapIdx F) (l.mapIdx G) := by
  induction l generalizing F G with
  | nil => exact .nil
  | cons a rest ih =>
    rw [List.mapIdx_cons, List.mapIdx_cons]
    exact .cons (h 0 a rfl) (ih fun i a ha => h (i + 1) a ha)

theorem any_of_forall₂ {α : Type} {p : α → Bool} {l l' : List α}
    (h : List.Forall₂ (fun a a' => p a = true → p a' = true) l l') (hany : l.any p = true) :
    l'.any p = true := by
  induction h with
  | nil => exact hany
  | cons hfirst _ ih =>
    rw [List.any_cons, Bool.or_eq_true] at hany ⊢
    exact hany.imp hfirst ih

namespace Expr

variable {owns : Reference → Bool} {f g : Expr → Expr} {path : List Nat} {e : Expr}

/-! ## Changing one part -/

/-- Two changes at one place differ in one child only. -/
theorem forall₂_children_modifyAt {R : Expr → Expr → Prop} {i : Nat}
    (hrefl : ∀ child, R child child)
    (h : ∀ child, e.children[i]? = some child → R (child.modifyAt f path) (child.modifyAt g path)) :
    List.Forall₂ R (e.modifyAt f (i :: path)).children (e.modifyAt g (i :: path)).children := by
  rw [modifyAt, modifyAt, children_mapChildrenIdx, children_mapChildrenIdx]
  refine forall₂_mapIdx fun j child hchild => ?_
  by_cases hj : j = i
  · subst hj
    rw [if_pos rfl, if_pos rfl]
    exact h child hchild
  · rw [if_neg hj, if_neg hj]
    exact hrefl child

/-- A change below an expression does not make it `NULL`. -/
theorem isNullLiteral_modifyAt (h : ∀ part, e.partAt? path = some part →
      (f part).isNullLiteral = true → (g part).isNullLiteral = true)
    (hnull : (e.modifyAt f path).isNullLiteral = true) :
    (e.modifyAt g path).isNullLiteral = true := by
  cases path with
  | nil => exact h e rfl hnull
  | cons i path =>
    rw [isNullLiteral_of_outline (outline_modifyAt_cons _ i path e)] at hnull ⊢
    exact hnull

/-- **From one part to the whole.** -/
theorem NoMoreTolerant.modifyAt
    (h : ∀ part, e.partAt? path = some part → (f part).NoMoreTolerant owns (g part))
    (hnull : ∀ part, e.partAt? path = some part →
      (f part).isNullLiteral = true → (g part).isNullLiteral = true) :
    (e.modifyAt f path).NoMoreTolerant owns (e.modifyAt g path) := by
  induction path generalizing e with
  | nil => exact h e rfl
  | cons i path ih =>
    have hpart : ∀ {child part : Expr}, e.children[i]? = some child →
        child.partAt? path = some part → e.partAt? (i :: path) = some part :=
      fun hchild hpart => partAt?_cons_eq_some_iff.mpr ⟨_, hchild, hpart⟩
    have houtline : (e.modifyAt f (i :: path)).outline = (e.modifyAt g (i :: path)).outline := by
      rw [outline_modifyAt_cons, outline_modifyAt_cons]
    refine .of_children houtline (toleratesMissing_of_children houtline fun _ => ?_) ?_
    · refine any_of_forall₂ (forall₂_children_modifyAt (fun _ => id) fun child hchild => ?_)
      exact isNullLiteral_modifyAt fun part hp => hnull part (hpart hchild hp)
    · refine forall₂_children_modifyAt .refl fun child hchild => ?_
      exact ih (fun part hp => h part (hpart hchild hp)) fun part hp => hnull part (hpart hchild hp)

/-- From one part to the whole, both ways. -/
theorem EquallyTolerant.modifyAt
    (h : ∀ part, e.partAt? path = some part → (f part).EquallyTolerant owns (g part))
    (hnull : ∀ part, e.partAt? path = some part →
      (f part).isNullLiteral = (g part).isNullLiteral) :
    (e.modifyAt f path).EquallyTolerant owns (e.modifyAt g path) :=
  ⟨.modifyAt (fun part hpart => (h part hpart).1) fun part hpart htrue => hnull part hpart ▸ htrue,
    .modifyAt (fun part hpart => (h part hpart).2) fun part hpart htrue => hnull part hpart ▸ htrue⟩

/-! ## Parentheses -/

/-- Inference sees through parentheses. -/
theorem equallyTolerant_paren (e : Expr) : (Expr.paren e).EquallyTolerant owns e :=
  ⟨⟨rfl, fun _ _ _ => id, rfl⟩, ⟨rfl, fun _ _ _ => id, rfl⟩⟩

/-- Parentheses never make a missing row tolerable. -/
theorem noMoreTolerant_modifyAt_paren (path : List Nat) (e : Expr) :
    (e.modifyAt .paren path).NoMoreTolerant owns e := by
  have h : (e.modifyAt .paren path).NoMoreTolerant owns (e.modifyAt id path) :=
    .modifyAt (fun part _ => (equallyTolerant_paren part).1)
      fun _ _ hnull => absurd hnull Bool.false_ne_true
  rwa [modifyAt_id] at h

/-- The place of a `NULL` directly beside an `=` that holds a reference chosen by `owns`. -/
def ComparesNull (owns : Reference → Bool) (e : Expr) (path : List Nat) : Prop :=
  e.partAt? path = some (.literal .null) ∧
    ∃ whole, e.partAt? path.dropLast = some whole ∧ whole.isEquality = true ∧
      ∃ ref ∈ whole.references, owns ref = true

/-- Parentheses around the child of anything but an `=` with an owned reference. -/
theorem equallyTolerant_parenthesized_child {i : Nat}
    (h : e.isEquality = true → ∀ ref ∈ e.references, owns ref = false) :
    (e.modifyAt .paren [i]).EquallyTolerant owns e := by
  by_cases hequality : e.isEquality = true
  · have hnone := h hequality
    refine .of_not_owned (fun ref href => ?_) hnone
    rw [Bool.eq_false_iff]
    intro howns
    have hmem := ((noMoreTolerant_modifyAt_paren [i] e).mem_references howns).mp href
    rw [hnone ref hmem] at howns
    exact Bool.false_ne_true howns
  · have houtline := outline_modifyAt_cons .paren i [] e
    refine .of_children houtline (fun heq => ?_) ?_
    · rw [← isEquality_outline, houtline, isEquality_outline] at heq
      exact absurd heq hequality
    · have hchildren : List.Forall₂ (EquallyTolerant owns) (e.modifyAt .paren [i]).children
          (e.modifyAt id [i]).children :=
        forall₂_children_modifyAt .refl fun child _ => equallyTolerant_paren child
      rwa [modifyAt_id] at hchildren

/-- **Parentheses are seen through**, but around a `NULL` beside an `=`. -/
theorem equallyTolerant_parenthesized (h : ¬e.ComparesNull owns path) :
    (e.modifyAt .paren path).EquallyTolerant owns e := by
  by_cases hnull : e.partAt? path = some (.literal .null)
  · obtain rfl | ⟨above, i, rfl⟩ := path.eq_nil_or_concat'
    · exact equallyTolerant_paren e
    · -- What changes for the expression above is not the expression itself but a child of it.
      have hwhole : (e.modifyAt (Expr.modifyAt .paren [i]) above).EquallyTolerant owns
          (e.modifyAt id above) := by
        refine .modifyAt (fun whole hwhole => ?_) fun whole _ => ?_
        · refine equallyTolerant_parenthesized_child fun hequality ref href => ?_
          rw [Bool.eq_false_iff]
          intro howns
          refine h ⟨hnull, whole, ?_, hequality, ref, href, howns⟩
          rwa [List.dropLast_concat]
        · exact isNullLiteral_of_outline (outline_modifyAt_cons _ i [] whole)
      rwa [modifyAt_id, ← modifyAt_append] at hwhole
  · have hpart : (e.modifyAt .paren path).EquallyTolerant owns (e.modifyAt id path) := by
      refine .modifyAt (fun part _ => equallyTolerant_paren part) fun part hpart => ?_
      change false = part.isNullLiteral
      rw [eq_comm, Bool.eq_false_iff]
      intro htrue
      rw [eq_null_of_isNullLiteral htrue] at hpart
      exact hnull hpart
    rwa [modifyAt_id] at hpart

/-- **A `NULL` in parentheses is inferred as any other literal** in its place. -/
theorem equallyTolerant_parenthesized_null {value : Literal} (hvalue : value ≠ .null)
    (h : e.partAt? path = some (.literal .null)) :
    (e.modifyAt .paren path).EquallyTolerant owns (e.modifyAt (fun _ => .literal value) path) := by
  refine .modifyAt (fun part hpart => ?_) fun part _ => ?_
  · rw [h, Option.some_inj] at hpart
    subst hpart
    exact .of_not_owned (List.forall_mem_nil _) (List.forall_mem_nil _)
  · cases value with
    | null => exact absurd rfl hvalue
    | _ => rfl

end Expr

namespace Backend

variable {b : Backend} {locale : Locale}

/-- **What parentheses change.** Unless they stand around a `NULL` beside an `=` with an owned
reference, the same is inferred, a result or an error. There the same is inferred as if any other
literal stood in place of the `NULL`. In any case the same joins are found, or the same error, and
joins may only become inner. -/
theorem infers_parenthesized (b : Backend) (locale : Locale) (e : Expr) (path : List Nat) :
    (¬e.ComparesNull (Reference.belongsTo b.id locale) path →
        b.InfersAlike locale (e.modifyAt .paren path) e) ∧
      (e.ComparesNull (Reference.belongsTo b.id locale) path → ∀ value, value ≠ .null →
        b.InfersAlike locale (e.modifyAt .paren path)
          (e.modifyAt (fun _ => .literal value) path)) ∧
      b.InfersNarrower locale (e.modifyAt .paren path) e := by
  refine ⟨fun h => ?_, fun h value hvalue => ?_, ?_⟩
  · exact infersAlike_of_equallyTolerant (Expr.equallyTolerant_parenthesized h)
  · exact infersAlike_of_equallyTolerant (Expr.equallyTolerant_parenthesized_null hvalue h.1)
  · exact infersNarrower_of_noMoreTolerant (Expr.noMoreTolerant_modifyAt_paren path e)

/-- There is no title. -/
def titleMissing : Expr := LocalizedModel.postTitle.equals (.literal .null)

/-- There is no body. -/
def bodyMissing : Expr :=
  (Expr.localized (LocalizedModel.postBodies.reference "body" ⟨"en"⟩)).equals (.literal .null)

/-- Parentheses around the title change nothing, and parentheses around the `NULL` make the
comparison one with any text. -/
theorem infers_parenthesized_titleMissing :
    (Backend.keyValue LocalizedModel.postTitles).InfersAlike ⟨"en"⟩
        (titleMissing.modifyAt .paren [0]) titleMissing ∧
      (Backend.keyValue LocalizedModel.postTitles).InfersAlike ⟨"en"⟩
        (titleMissing.modifyAt .paren [1]) (LocalizedModel.postTitle.equals (.text "x")) ∧
      (Backend.keyValue LocalizedModel.postTitles).InfersNarrower ⟨"en"⟩
        (titleMissing.modifyAt .paren [1]) titleMissing := by
  have htitle := infers_parenthesized (.keyValue LocalizedModel.postTitles) ⟨"en"⟩ titleMissing [0]
  have hnull := infers_parenthesized (.keyValue LocalizedModel.postTitles) ⟨"en"⟩ titleMissing [1]
  refine ⟨htitle.1 ?_, hnull.2.1 ⟨rfl, titleMissing, rfl, rfl, ?_⟩ (.string "x") (by decide),
    hnull.2.2⟩
  · rintro ⟨hpart, -⟩
    cases hpart
  · exact ⟨LocalizedModel.postTitles.reference "title" ⟨"en"⟩, by decide, rfl⟩

/-- **A `NULL` in parentheses is not recognized**: beside an `=` it makes the join inner, of titles
and of bodies, which the `NULL` by itself makes outer. -/
theorem parenthesized_null_demotes_outer :
    titleMissing.modifyAt .paren [1]
        = LocalizedModel.postTitle.equals (.paren (.literal .null)) ∧
      (LocalizedModel.postTitles.infer titleMissing ⟨"en"⟩).map NameMap.entries
        = .ok [("title", .outer)] ∧
      (LocalizedModel.postTitles.infer (titleMissing.modifyAt .paren [1]) ⟨"en"⟩).map
        NameMap.entries = .ok [("title", .inner)] ∧
      LocalizedModel.postBodies.infer bodyMissing ⟨"en"⟩ = .ok (some .outer) ∧
      LocalizedModel.postBodies.infer (bodyMissing.modifyAt .paren [1]) ⟨"en"⟩
        = .ok (some .inner) := by
  refine ⟨rfl, ?_, ?_, TableBackend.infer_eq_ok (rejectUnsupported_eq_ok.mp rfl),
    TableBackend.infer_eq_ok (rejectUnsupported_eq_ok.mp rfl)⟩
  · rw [KeyValueBackend.infer_eq_ok (rejectUnsupported_eq_ok.mp rfl)]
    rfl
  · rw [KeyValueBackend.infer_eq_ok (rejectUnsupported_eq_ok.mp rfl)]
    rfl

end Backend

end LocalizedQuery
