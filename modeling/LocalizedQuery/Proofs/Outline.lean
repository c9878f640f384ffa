import LocalizedQuery.Proofs.Parts

/-!
# Expressions with other parts

An expression is its outline, which is what is left when its children are blotted out
(`Expr.outline`), together with the list of its children. Changing the children
(`Expr.mapChildrenIdx`, `Expr.mapChildren`) keeps the outline, and what is found of an expression by
its outline alone does not notice the change.

A place in an expression is the list of the child numbers on the way down to it. `Expr.partAt?` is
the part at a place and `Expr.modifyAt` changes this part only.

## Main results

* `Expr.children_mapChildrenIdx`, `Expr.outline_mapChildrenIdx` — children and outline apart
* `Expr.isPart_iff_partAt?` — the parts of an expression are what stands at its places
* `Expr.modifyAt_append` — a change further down, as a change of what stands above it
-/

namespace LocalizedQuery

namespace Expr

variable {e e' part : Expr} {f g : Expr → Expr} {path : List Nat}

/-! ## Other children -/

/-- Changes every child, by its number among the children. -/
def mapChildrenIdx (f : Nat → Expr → Expr) : Expr → Expr
  | .binary op left right => .binary op (f 0 left) (f 1 right)
  | .unary op e => .unary op (f 0 e)
  | .isNull e negated => .isNull (f 0 e) negated
  | .paren e => .paren (f 0 e)
  | .call function args => .call function (args.mapIdx f)
  | .caseOf operand branches otherwise =>
    let start := operand.toList.length
    .caseOf (operand.map (f 0))
      (branches.mapIdx fun i branch => (f (start + 2 * i) branch.1, f (start + 2 * i + 1) branch.2))
      (otherwise.map (f (start + 2 * branches.length)))
  | .inList operand values negated =>
    .inList (f 0 operand) (values.mapIdx fun i => f (i + 1)) negated
  | .between operand low high negated => .between (f 0 operand) (f 1 low) (f 2 high) negated
  | e => e

/-- Changes every child in the same way. -/
def mapChildren (f : Expr → Expr) : Expr → Expr := mapChildrenIdx fun _ => f

/-- An expression with its children blotted out. -/
def outline : Expr → Expr := mapChildren fun _ => .star none

theorem mapIdx_const {α β : Type} (f : α → β) (l : List α) : l.mapIdx (fun _ => f) = l.map f := by
  induction l with
  | nil => rfl
  | cons a rest ih => rw [List.mapIdx_cons, List.map_cons, ih]

/-- The branches of a `CASE`, as the children they are. -/
theorem flatMap_mapIdx_branches (f : Nat → Expr → Expr) (start : Nat)
    (branches : List (Expr × Expr)) :
    (branches.mapIdx fun i branch =>
        (f (start + 2 * i) branch.1, f (start + 2 * i + 1) branch.2)).flatMap
        (fun branch => [branch.1, branch.2])
      = (branches.flatMap fun branch => [branch.1, branch.2]).mapIdx fun i => f (i + start) := by
  induction branches generalizing start with
  | nil => rfl
  | cons branch rest ih =>
    have hrest := ih (start + 2)
    simp only [List.mapIdx_cons, List.flatMap_cons, List.cons_append, List.nil_append]
    have hplace : ∀ i, start + 2 * (i + 1) = start + 2 + 2 * i := fun i => by omega
    have hplace' : ∀ i, i + 1 + 1 + start = i + (start + 2) := fun i => by omega
    simp only [hplace, hplace', hrest]
    simp [Nat.add_comm]

theorem length_flatMap_branches (branches : List (Expr × Expr)) :
    (branches.flatMap fun branch => [branch.1, branch.2]).length = 2 * branches.length := by
  induction branches with
  | nil => rfl
  | cons branch rest ih =>
    simp only [List.flatMap_cons, List.length_append, List.length_cons, List.length_nil, ih]
    omega

/-- **The children after a change are the changed children.** -/
@[simp] theorem children_mapChildrenIdx (f : Nat → Expr → Expr) (e : Expr) :
    (e.mapChildrenIdx f).children = e.children.mapIdx f := by
  cases e with
  | caseOf operand branches otherwise =>
    simp only [mapChildrenIdx, children]
    rw [List.mapIdx_append, List.mapIdx_append, flatMap_mapIdx_branches, List.length_append,
      length_flatMap_branches]
    cases operand <;> cases otherwise <;> simp
  | _ => simp [mapChildrenIdx, children]

/-- **A change of the children keeps the outline.** -/
@[simp] theorem outline_mapChildrenIdx (f : Nat → Expr → Expr) (e : Expr) :
    (e.mapChildrenIdx f).outline = e.outline := by
  cases e with
  | caseOf operand branches otherwise =>
    cases operand <;> cases otherwise <;>
      simp [outline, mapChildren, mapChildrenIdx, List.mapIdx_mapIdx, Function.comp_def]
  | _ => simp [outline, mapChildren, mapChildrenIdx, List.mapIdx_mapIdx, Function.comp_def]

@[simp] theorem children_mapChildren (f : Expr → Expr) (e : Expr) :
    (e.mapChildren f).children = e.children.map f :=
  (children_mapChildrenIdx _ e).trans (mapIdx_const f e.children)

@[simp] theorem outline_mapChildren (f : Expr → Expr) (e : Expr) :
    (e.mapChildren f).outline = e.outline :=
  outline_mapChildrenIdx _ e

/-! ## What shows in the outline -/

theorem eq_localized_of_outline {ref : Reference} (h : e.outline = e'.outline) :
    e = .localized ref ↔ e' = .localized ref := by
  cases e <;> cases e' <;> simp_all [outline, mapChildren, mapChildrenIdx]

@[simp] theorem isNullLiteral_outline (e : Expr) : e.outline.isNullLiteral = e.isNullLiteral := by
  cases e <;> rfl

theorem isNullLiteral_of_outline (h : e.outline = e'.outline) :
    e.isNullLiteral = e'.isNullLiteral := by
  rw [← isNullLiteral_outline e, h, isNullLiteral_outline]

theorem flatMap_branches_inj {branches branches' : List (Expr × Expr)}
    (h : (branches.flatMap fun branch => [branch.1, branch.2])
      = branches'.flatMap fun branch => [branch.1, branch.2]) : branches = branches' := by
  induction branches generalizing branches' with
  | nil => cases branches' <;> simp_all
  | cons branch rest ih =>
    cases branches' with
    | nil => simp at h
    | cons branch' rest' =>
      simp only [List.flatMap_cons, List.cons_append, List.nil_append, List.cons.injEq] at h
      rw [ih h.2.2, Prod.ext h.1 h.2.1]

/-- **An expression is its outline together with its children.** -/
theorem eq_of_outline_of_children (houtline : e.outline = e'.outline)
    (hchildren : e.children = e'.children) : e = e' := by
  cases e with
  | caseOf operand branches otherwise =>
    cases e' with
    | caseOf operand' branches' otherwise' =>
      simp only [outline, mapChildren, mapChildrenIdx, caseOf.injEq] at houtline
      obtain ⟨hoperand, hbranches, hotherwise⟩ := houtline
      replace hbranches := congrArg List.length hbranches
      rw [List.length_mapIdx, List.length_mapIdx] at hbranches
      simp only [children, List.append_assoc] at hchildren
      obtain ⟨hfirst, hrest⟩ := List.append_inj hchildren
        (by cases operand <;> cases operand' <;> simp_all)
      obtain ⟨hmiddle, hlast⟩ := List.append_inj hrest
        (by rw [length_flatMap_branches, length_flatMap_branches, hbranches])
      rw [flatMap_branches_inj hmiddle]
      congr 1
      · cases operand <;> cases operand' <;> simp_all
      · cases otherwise <;> cases otherwise' <;> simp_all
    | _ => simp [outline, mapChildren, mapChildrenIdx] at houtline
  | _ =>
    cases e' <;> simp_all [outline, mapChildren, mapChildrenIdx, children]

/-- Nothing is changed where every child stays. -/
theorem mapChildrenIdx_eq_self {f : Nat → Expr → Expr} (h : e.children.mapIdx f = e.children) :
    e.mapChildrenIdx f = e :=
  eq_of_outline_of_children (outline_mapChildrenIdx f e) ((children_mapChildrenIdx f e).trans h)

/-! ## Places -/

/-- The part at a place. -/
def partAt? : List Nat → Expr → Option Expr
  | [], e => some e
  | i :: path, e => e.children[i]?.bind (partAt? path)

/-- Changes the part at a place. -/
def modifyAt (f : Expr → Expr) : List Nat → Expr → Expr
  | [], e => f e
  | i :: path, e => e.mapChildrenIdx fun j child => if j = i then modifyAt f path child else child

@[simp] theorem outline_modifyAt_cons (f : Expr → Expr) (i : Nat) (path : List Nat) (e : Expr) :
    (e.modifyAt f (i :: path)).outline = e.outline :=
  outline_mapChildrenIdx _ e

theorem partAt?_cons_eq_some_iff {i : Nat} :
    e.partAt? (i :: path) = some part ↔
      ∃ child, e.children[i]? = some child ∧ child.partAt? path = some part := by
  rw [partAt?, Option.bind_eq_some_iff]

/-- **The parts of an expression are what stands at its places.** -/
theorem isPart_iff_partAt? : part.IsPart e ↔ ∃ path, e.partAt? path = some part := by
  constructor
  · intro h
    induction h with
    | here => exact ⟨[], rfl⟩
    | under hchild _ ih =>
      obtain ⟨path, hpath⟩ := ih
      obtain ⟨i, hi⟩ := List.mem_iff_getElem?.mp hchild
      exact ⟨i :: path, partAt?_cons_eq_some_iff.mpr ⟨_, hi, hpath⟩⟩
  · rintro ⟨path, hpath⟩
    induction path generalizing e with
    | nil =>
      rw [partAt?, Option.some_inj] at hpath
      exact hpath ▸ .here
    | cons i path ih =>
      obtain ⟨child, hchild, hpath⟩ := partAt?_cons_eq_some_iff.mp hpath
      exact .under (List.mem_of_getElem? hchild) (ih hpath)

/-- **A change further down is a change of the part above it.** -/
theorem modifyAt_append (f : Expr → Expr) (path rest : List Nat) (e : Expr) :
    e.modifyAt f (path ++ rest) = e.modifyAt (modifyAt f rest) path := by
  induction path generalizing e with
  | nil => rfl
  | cons i path ih =>
    rw [List.cons_append, modifyAt, modifyAt]
    simp only [ih]

/-- What is not changed stays. -/
@[simp] theorem modifyAt_id (path : List Nat) (e : Expr) : e.modifyAt id path = e := by
  induction path generalizing e with
  | nil => rfl
  | cons i path ih =>
    simp only [modifyAt, ih, ite_self]
    exact mapChildrenIdx_eq_self ((mapIdx_const id e.children).trans (List.map_id _))

end Expr

end LocalizedQuery
