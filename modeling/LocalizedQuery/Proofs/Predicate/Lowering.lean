import LocalizedQuery.Predicate.Parse
import LocalizedQuery.Proofs.Parts
import LocalizedQuery.Proofs.Results

/-!
# What the expressions of texts consist of

A text denotes an expression whose parts are of two kinds: what the resolver put in place of names,
with all its parts, and what lowering made itself. The latter has no localized attribute, no `CASE`
and no `*`, and its doubles are real numbers (`Expr.Lowered`). Anything that holds of both kinds
holds of all parts (`Tree.everywhere_lower`).

## Main results

* `Tree.everywhere_lower`, `everywhere_parsePredicate` — what holds of all parts
* `references_parsePredicate` — the references of a text are the resolver's
-/

namespace LocalizedQuery

/-- Forms that lowering makes itself. -/
def Expr.Lowered : Expr → Prop
  | .localized _ | .caseOf .. | .star _ => False
  | .literal (.float x) => x.isFinite = true
  | _ => True

namespace Tree

variable {resolve : String → Option Expr} {P : Expr → Prop}

theorem lowered_lowerNumber {digits : String} {e : Expr} (h : lowerNumber digits = .ok e) :
    e.Lowered ∧ e.children = [] := by
  fun_cases lowerNumber digits with
  | case1 value hvalue =>
    rw [lowerNumber, hvalue, Except.ok.injEq] at h
    subst h
    exact ⟨trivial, rfl⟩
  | case2 hvalue x hx =>
    rw [lowerNumber, hvalue, hx, Except.ok.injEq] at h
    subst h
    exact ⟨(Option.filter_eq_some_iff.mp hx).2, rfl⟩
  | case3 hvalue hnone =>
    rw [lowerNumber, hvalue, hnone] at h
    cases h

/-- Something that lowering makes, in whose children the property holds. -/
theorem everywhere_lowered (hlowered : ∀ e : Expr, e.Lowered → P e) {e : Expr} (he : e.Lowered)
    (hchildren : ∀ child ∈ e.children, child.Everywhere P) : e.Everywhere P :=
  Expr.everywhere_iff.mpr ⟨hlowered e he, hchildren⟩

mutual

/-- **What holds of all parts of a lowered tree.** -/
theorem everywhere_lower (hresolve : ∀ name e, resolve name = some e → e.Everywhere P)
    (hlowered : ∀ e : Expr, e.Lowered → P e) (tree : Tree) {e : Expr}
    (h : tree.lower resolve = .ok e) : e.Everywhere P := by
  match tree with
  | .name ident =>
    rw [lower, Except.ok.injEq] at h
    cases hname : resolve ident.text with
    | none =>
      rw [hname, Option.getD_none] at h
      exact everywhere_lowered hlowered (h ▸ trivial) (by simp [← h, Expr.children])
    | some resolved =>
      rw [hname, Option.getD_some] at h
      exact h ▸ hresolve _ _ hname
  | .path parts =>
    match parts with
    | [table, column] =>
      rw [lower, Except.ok.injEq] at h
      exact everywhere_lowered hlowered (h ▸ trivial) (by simp [← h, Expr.children])
    | [] | [_] | _ :: _ :: _ :: _ => simp [lower] at h
  | .number digits _ =>
    rw [lower] at h
    obtain ⟨he, hchildren⟩ := lowered_lowerNumber h
    exact everywhere_lowered hlowered he (by simp [hchildren])
  | .text _ | .bool _ | .null =>
    rw [lower, Except.ok.injEq] at h
    exact everywhere_lowered hlowered (h ▸ trivial) (by simp [← h, Expr.children])
  | .subquery _ | .foreign _ => simp [lower] at h
  | .signed .plus operand =>
    rw [lower] at h
    exact everywhere_lower hresolve hlowered operand h
  | .nested inner | .signed .minus inner | .signed .not inner | .isNull inner _ =>
    rw [lower] at h
    obtain ⟨inner', hinner, h⟩ := bind_eq_ok.mp h
    rw [pure_eq_ok] at h
    subst h
    exact everywhere_lowered hlowered trivial
      (List.forall_mem_singleton.mpr (everywhere_lower hresolve hlowered inner hinner))
  | .binary left op right =>
    rw [lower] at h
    obtain ⟨left', hleft, h⟩ := bind_eq_ok.mp h
    cases op with
    | foreign spelling => simp [throw, throwThe, MonadExceptOf.throw] at h
    | known op =>
      obtain ⟨right', hright, h⟩ := bind_eq_ok.mp h
      rw [pure_eq_ok] at h
      subst h
      exact everywhere_lowered hlowered trivial (List.forall_mem_cons.mpr
        ⟨everywhere_lower hresolve hlowered left hleft, List.forall_mem_singleton.mpr
          (everywhere_lower hresolve hlowered right hright)⟩)
  | .like operand pattern negated _ _ =>
    rw [lower] at h
    obtain ⟨operand', hoperand, h⟩ := bind_eq_ok.mp h
    obtain ⟨pattern', hpattern, h⟩ := bind_eq_ok.mp h
    rw [pure_eq_ok] at h
    have hlike : (Expr.binary .like operand' pattern').Everywhere P :=
      everywhere_lowered hlowered trivial (List.forall_mem_cons.mpr
        ⟨everywhere_lower hresolve hlowered operand hoperand, List.forall_mem_singleton.mpr
          (everywhere_lower hresolve hlowered pattern hpattern)⟩)
    cases negated with
    | false => exact h ▸ hlike
    | true =>
      rw [← h]
      exact everywhere_lowered hlowered trivial (List.forall_mem_singleton.mpr hlike)
  | .inList operand values _ =>
    rw [lower] at h
    obtain ⟨operand', hoperand, h⟩ := bind_eq_ok.mp h
    obtain ⟨values', hvalues, h⟩ := bind_eq_ok.mp h
    rw [pure_eq_ok] at h
    subst h
    exact everywhere_lowered hlowered trivial (List.forall_mem_cons.mpr
      ⟨everywhere_lower hresolve hlowered operand hoperand,
        everywhere_lowerList hresolve hlowered values hvalues⟩)
  | .between operand low high _ =>
    rw [lower] at h
    obtain ⟨operand', hoperand, h⟩ := bind_eq_ok.mp h
    obtain ⟨low', hlow, h⟩ := bind_eq_ok.mp h
    obtain ⟨high', hhigh, h⟩ := bind_eq_ok.mp h
    rw [pure_eq_ok] at h
    subst h
    exact everywhere_lowered hlowered trivial (List.forall_mem_cons.mpr
      ⟨everywhere_lower hresolve hlowered operand hoperand, List.forall_mem_cons.mpr
        ⟨everywhere_lower hresolve hlowered low hlow, List.forall_mem_singleton.mpr
          (everywhere_lower hresolve hlowered high hhigh)⟩⟩)
  | .call form args =>
    rw [lower] at h
    obtain ⟨args', hargs, h⟩ := bind_eq_ok.mp h
    rw [pure_eq_ok] at h
    subst h
    exact everywhere_lowered hlowered trivial
      (everywhere_lowerArguments hresolve hlowered args hargs)

/-- What holds of all parts of lowered trees. -/
theorem everywhere_lowerList (hresolve : ∀ name e, resolve name = some e → e.Everywhere P)
    (hlowered : ∀ e : Expr, e.Lowered → P e) (trees : List Tree) {es : List Expr}
    (h : lowerList resolve trees = .ok es) : ∀ e ∈ es, e.Everywhere P := by
  match trees with
  | [] =>
    rw [lowerList, Except.ok.injEq] at h
    exact h ▸ List.forall_mem_nil _
  | tree :: rest =>
    rw [lowerList] at h
    obtain ⟨first, hfirst, h⟩ := bind_eq_ok.mp h
    obtain ⟨others, hothers, h⟩ := bind_eq_ok.mp h
    rw [pure_eq_ok] at h
    rw [← h]
    exact List.forall_mem_cons.mpr ⟨everywhere_lower hresolve hlowered tree hfirst,
      everywhere_lowerList hresolve hlowered rest hothers⟩

/-- What holds of all parts of lowered arguments. -/
theorem everywhere_lowerArguments (hresolve : ∀ name e, resolve name = some e → e.Everywhere P)
    (hlowered : ∀ e : Expr, e.Lowered → P e) {call : UnsupportedForm} (args : List Argument)
    {es : List Expr} (h : lowerArguments resolve call args = .ok es) :
    ∀ e ∈ es, e.Everywhere P := by
  match args with
  | [] =>
    rw [lowerArguments, Except.ok.injEq] at h
    exact h ▸ List.forall_mem_nil _
  | .special _ :: _ => simp [lowerArguments] at h
  | .positional value :: rest =>
    rw [lowerArguments] at h
    obtain ⟨first, hfirst, h⟩ := bind_eq_ok.mp h
    obtain ⟨others, hothers, h⟩ := bind_eq_ok.mp h
    rw [pure_eq_ok] at h
    rw [← h]
    exact List.forall_mem_cons.mpr ⟨everywhere_lower hresolve hlowered value hfirst,
      everywhere_lowerArguments hresolve hlowered rest hothers⟩

end

end Tree

/-- **What holds of all parts of what a text denotes.** -/
theorem everywhere_parsePredicate {resolve : String → Option Expr} {P : Expr → Prop}
    (hresolve : ∀ name e, resolve name = some e → e.Everywhere P)
    (hlowered : ∀ e : Expr, e.Lowered → P e) {text : String} {e : Expr}
    (h : parsePredicate resolve text = .ok e) : e.Everywhere P := by
  obtain ⟨tree, -, hlower⟩ := bind_eq_ok.mp h
  exact Tree.everywhere_lower hresolve hlowered tree (mapError_eq_ok.mp hlower)

/-- **The references of a text are the resolver's.** -/
theorem references_parsePredicate {resolve : String → Option Expr} {P : Reference → Prop}
    (hresolve : ∀ name e, resolve name = some e → ∀ ref ∈ e.references, P ref)
    {text : String} {e : Expr} (h : parsePredicate resolve text = .ok e) :
    ∀ ref ∈ e.references, P ref := by
  have hresolved : ∀ name resolved, resolve name = some resolved →
      resolved.Everywhere fun part => ∀ ref, part = .localized ref → P ref := by
    rintro name resolved hname part hpart ref rfl
    exact hresolve name resolved hname ref (Expr.mem_references_iff.mpr hpart)
  have hlowered : ∀ lowered : Expr, lowered.Lowered → ∀ ref, lowered = .localized ref → P ref := by
    rintro lowered hlowered ref rfl
    exact hlowered.elim
  have hparts := everywhere_parsePredicate hresolved hlowered h
  exact fun ref href => hparts _ (Expr.mem_references_iff.mp href) ref rfl

end LocalizedQuery
