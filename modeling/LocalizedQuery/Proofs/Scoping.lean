import LocalizedQuery.Proofs.Confluence

/-!
# What the conditions of joins may look at

The joins of a query are made in order, so the condition of a join may name the source, the targets
before it and its own (`Query.WellScoped`); a database refuses any other.

To attach a target keeps this as long as the join stays where it is or comes new to the end. But an
outer join that has to be inner is taken out and put behind the others. Whatever joins there were
after it and named its columns are then in front of it. `Query.wellScoped_applyJoin_iff` says that
nothing else goes wrong: the new query is well scoped unless a join is moved that another one names.

## Main results

* `Query.wellScoped_applyJoin_iff` — when attaching a target keeps a query well scoped
* `Query.not_wellScoped_upgraded_values` — a join that is moved behind one that names it
* `Query.wellScoped_applyPlan` — joins that name no other joined table may be attached in any order
-/

namespace LocalizedQuery

namespace Expr

mutual

/-- The tables by which the columns of an expression are qualified. -/
def tables : Expr → List String
  | .column table _ | .star table => table.toList
  | .localized reference => [reference.table]
  | .literal _ => []
  | .binary _ left right => left.tables ++ right.tables
  | .unary _ e | .isNull e _ | .paren e => e.tables
  | .call _ args => tablesOfList args
  | .caseOf operand branches otherwise =>
    tablesOfOption operand ++ tablesOfBranches branches ++ tablesOfOption otherwise
  | .inList operand values _ => operand.tables ++ tablesOfList values
  | .between operand low high _ => operand.tables ++ low.tables ++ high.tables

/-- The tables of a list of expressions. -/
def tablesOfList : List Expr → List String
  | [] => []
  | e :: rest => e.tables ++ tablesOfList rest

/-- The tables of an expression that may be missing. -/
def tablesOfOption : Option Expr → List String
  | none => []
  | some e => e.tables

/-- The tables of the branches of a `CASE`. -/
def tablesOfBranches : List (Expr × Expr) → List String
  | [] => []
  | (condition, result) :: rest => condition.tables ++ result.tables ++ tablesOfBranches rest

end

end Expr

namespace Join

/-- The conditions of joins name only what is `known` before them, the targets of the joins before
them in the list, and their own targets. -/
def Scoped (known : List String) : List Join → Prop
  | [] => True
  | join :: rest =>
    (∀ name ∈ join.on.tables, name = join.target ∨ name ∈ known) ∧
      Scoped (join.target :: known) rest

instance decidableScoped : (known : List String) → (joins : List Join) →
    Decidable (Scoped known joins)
  | _, [] => isTrue trivial
  | known, join :: rest =>
    have := decidableScoped (join.target :: known) rest
    inferInstanceAs (Decidable (_ ∧ _))

variable {known known' : List String} {joins : List Join} {removed : String}

/-- A join at the end may name everything before it. -/
theorem scoped_append_singleton {last : Join} :
    Scoped known (joins ++ [last]) ↔ Scoped known joins ∧
      ∀ name ∈ last.on.tables, name = last.target ∨ name ∈ joins.map target ∨ name ∈ known := by
  induction joins generalizing known with
  | nil => simp [Scoped]
  | cons join rest ih =>
    have horder : ∀ name : String,
        (name ∈ rest.map target ∨ name ∈ join.target :: known) ↔
          (name ∈ (join :: rest).map target ∨ name ∈ known) := by
      intro name
      simp only [List.map_cons, List.mem_cons]
      constructor
      · rintro (h | h | h)
        · exact .inl (.inr h)
        · exact .inl (.inl h)
        · exact .inr h
      · rintro ((h | h) | h)
        · exact .inr (.inl h)
        · exact .inl h
        · exact .inr (.inr h)
    rw [List.cons_append, Scoped, ih, Scoped, and_assoc]
    simp only [horder]

/-- The joins of one target may be taken out if no other join names it. -/
theorem Scoped.remove (h : Scoped known joins)
    (hknown : ∀ name ∈ known, name ≠ removed → name ∈ known')
    (hfree : ∀ join ∈ joins, join.target ≠ removed → removed ∈ join.on.tables →
      removed ∈ known') :
    Scoped known' (joins.filter fun join => join.target != removed) := by
  induction joins generalizing known known' with
  | nil => trivial
  | cons join rest ih =>
    obtain ⟨hjoin, hrest⟩ := h
    rw [List.forall_mem_cons] at hfree
    by_cases htarget : join.target = removed
    · rw [List.filter_cons_of_neg (by simp [htarget])]
      refine ih hrest (fun name hname hne => ?_) hfree.2
      rcases List.mem_cons.mp hname with heq | hname
      · exact absurd (heq.trans htarget) hne
      · exact hknown name hname hne
    · rw [List.filter_cons_of_pos (by simpa using htarget)]
      refine ⟨fun name hname => ?_,
        ih hrest (fun name hname hne => ?_) fun later hlater hne hmem => ?_⟩
      · rcases hjoin name hname with heq | hmem
        · exact .inl heq
        · by_cases hremoved : name = removed
          · subst hremoved
            exact .inr (hfree.1 htarget hname)
          · exact .inr (hknown name hmem hremoved)
      · rcases List.mem_cons.mp hname with heq | hname
        · exact heq ▸ List.mem_cons_self
        · exact List.mem_cons_of_mem _ (hknown name hname hne)
      · exact List.mem_cons_of_mem _ (hfree.2 later hlater hne hmem)

/-- What is neither known nor joined is not named. -/
theorem Scoped.not_mem_tables (h : Scoped known joins) (hknown : removed ∉ known)
    (htargets : ∀ join ∈ joins, join.target ≠ removed) :
    ∀ join ∈ joins, removed ∉ join.on.tables := by
  induction joins generalizing known with
  | nil => simp
  | cons join rest ih =>
    obtain ⟨hjoin, hrest⟩ := h
    rw [List.forall_mem_cons] at htargets ⊢
    refine ⟨fun hmem => ?_, ih hrest ?_ htargets.2⟩
    · rcases hjoin removed hmem with heq | hmem
      · exact htargets.1 heq.symm
      · exact hknown hmem
    · rw [List.mem_cons, not_or]
      exact ⟨Ne.symm htargets.1, hknown⟩

/-- Joins that name no other joined table may stand in any order. -/
theorem scoped_of_independent
    (h : ∀ join ∈ joins, ∀ name ∈ join.on.tables, name = join.target ∨ name ∈ known) :
    Scoped known joins := by
  induction joins generalizing known with
  | nil => trivial
  | cons join rest ih =>
    rw [List.forall_mem_cons] at h
    refine ⟨h.1, ih fun later hlater name hname => ?_⟩
    exact (h.2 later hlater name hname).imp_right (List.mem_cons_of_mem _)

end Join

namespace Query

variable {q : Query} {target : JoinTarget} {kind : JoinKind} {plan : List JoinRequirement}

/-- The name by which the source of a query is known, if it has one. -/
def sourceNames (q : Query) : List String := (q.source.map TableRef.referenceName).toList

/-- The condition of each join names only the source, targets joined before it and its own. -/
def WellScoped (q : Query) : Prop := Join.Scoped q.sourceNames q.joins

instance (q : Query) : Decidable q.WellScoped := Join.decidableScoped _ _

@[simp] theorem sourceNames_applyJoin : (q.applyJoin target kind).sourceNames = q.sourceNames := by
  rw [sourceNames, source_applyJoin, sourceNames]

@[simp] theorem sourceNames_applyPlan : (q.applyPlan plan).sourceNames = q.sourceNames := by
  rw [sourceNames, source_applyPlan, sourceNames]

/-- A target that looks at itself and the source may come to the end. -/
theorem scoped_append_target {joins : List Join} (h : Join.Scoped q.sourceNames joins)
    (htarget : ∀ name ∈ target.on.tables, name = target.aliasName ∨ name ∈ q.sourceNames) :
    Join.Scoped q.sourceNames (joins ++ [target.join kind]) :=
  Join.scoped_append_singleton.mpr ⟨h, fun name hname => (htarget name hname).imp_right .inr⟩

/-- **When attaching a target keeps a query well scoped.** It does unless a join that is too weak is
moved to the end although another join names it. -/
theorem wellScoped_applyJoin_iff (hq : q.WellScoped)
    (htarget : ∀ name ∈ target.on.tables, name = target.aliasName ∨ name ∈ q.sourceNames) :
    (q.applyJoin target kind).WellScoped ↔
      (∀ existing, q.findJoin target.aliasName = some existing →
        existing.kind.satisfies kind = true) ∨
      target.aliasName ∈ q.sourceNames ∨
      ∀ join ∈ q.joins, join.target ≠ target.aliasName →
        target.aliasName ∉ join.on.tables := by
  rw [WellScoped, sourceNames_applyJoin]
  cases hfind : q.findJoin target.aliasName with
  | none =>
    have hadd : (q.applyJoin target kind).joins = q.joins ++ [target.join kind] := by
      simp only [applyJoin, hfind, Query.join, JoinTarget.join]
    rw [hadd]
    refine iff_of_true (scoped_append_target hq htarget) (.inl fun existing hexisting => ?_)
    exact absurd hexisting (Option.some_ne_none existing).symm
  | some existing =>
    by_cases hserves : existing.kind.satisfies kind = true
    · have hkeep : q.applyJoin target kind = q := by
        simp only [applyJoin, hfind, hserves, if_true]
      rw [hkeep]
      refine iff_of_true hq (.inl fun other hother => ?_)
      rw [← Option.some.inj hother]
      exact hserves
    · have hmove : (q.applyJoin target kind).joins
          = q.joins.filter (fun join => join.target != target.aliasName)
            ++ [target.join kind] := by
        simp [applyJoin, hfind, hserves, removeJoin, Query.join, JoinTarget.join]
      rw [hmove]
      constructor
      · intro hscoped
        refine .inr ?_
        by_cases hsource : target.aliasName ∈ q.sourceNames
        · exact .inl hsource
        · refine .inr fun join hjoin hne => ?_
          obtain ⟨hothers, -⟩ := Join.scoped_append_singleton.mp hscoped
          refine hothers.not_mem_tables hsource (fun other hother => ?_) join ?_
          · exact bne_iff_ne.mp (List.mem_filter.mp hother).2
          · exact List.mem_filter.mpr ⟨hjoin, bne_iff_ne.mpr hne⟩
      · rintro (hserved | hnamed)
        · exact absurd (hserved existing rfl) hserves
        · refine scoped_append_target (hq.remove (fun name hname _ => hname) ?_) htarget
          intro join hjoin hne hmem
          rcases hnamed with hsource | hfree
          · exact hsource
          · exact absurd hmem (hfree join hjoin hne)

/-- The English values of posts may become inner where no other join names them. -/
theorem wellScoped_upgraded_values :
    (postsWithTags.applyJoin (postValues "en") .inner).joins.map Join.target = ["tags", "en"] ∧
      (postsWithTags.applyJoin (postValues "en") .inner).WellScoped :=
  ⟨by decide, (wellScoped_applyJoin_iff (by decide) (by decide)).mpr (.inr (.inr (by decide)))⟩

/-- Posts with their English values, which are joined outer, and the tags that their titles name. -/
def postsWithTitleTags : Query where
  source := some { table := "posts" }
  joins := [(postValues "en").join .outer,
    ⟨.inner, { table := "tags" },
      (Expr.qualified "tags" "name").equals (.qualified "en" "title")⟩]

/-- Inner, the English values come to stand behind the tags, whose condition names them. -/
theorem not_wellScoped_upgraded_values :
    postsWithTitleTags.WellScoped ∧ (postsWithTitleTags.joins.map Join.target).Nodup ∧
      (∀ name ∈ (postValues "en").on.tables,
        name = (postValues "en").aliasName ∨ name ∈ postsWithTitleTags.sourceNames) ∧
      (postsWithTitleTags.applyJoin (postValues "en") .inner).joins.map Join.target
        = ["tags", "en"] ∧
      ¬(postsWithTitleTags.applyJoin (postValues "en") .inner).WellScoped := by
  decide

/-- **Joins that name no other joined table may be attached in any order.** -/
theorem wellScoped_applyPlan
    (hq : ∀ join ∈ q.joins, ∀ name ∈ join.on.tables, name = join.target ∨ name ∈ q.sourceNames)
    (hplan : ∀ requirement ∈ plan, ∀ name ∈ requirement.target.on.tables,
      name = requirement.target.aliasName ∨ name ∈ q.sourceNames) :
    (q.applyPlan plan).WellScoped := by
  rw [WellScoped, sourceNames_applyPlan]
  refine Join.scoped_of_independent fun join hjoin => ?_
  rcases mem_joins_applyPlan hjoin with hold | ⟨requirement, hmem, rfl⟩
  · exact hq join hold
  · exact hplan requirement hmem

end Query

end LocalizedQuery
