import LocalizedQuery.Proofs.Closure
import LocalizedQuery.Proofs.Configuration.Build
import LocalizedQuery.Proofs.InvertedQueries

/-!
# Reported joins

Compiling a text reports the joins that were found necessary. The report lists what the backends
ask for, while the query keeps a join that serves already, so a report of two joins under one alias
would tell of one that is not made. For models built from settings that name no tables this does not
happen: a report tells the joins of the query, in their order.

## Main results

* `LocalizedModel.reported_of_compile` — what a report lists
* `ModelSettings.reported_joins_applied` — what is reported is what is joined
-/

namespace LocalizedQuery

namespace LocalizedModel

variable {t : LocalizedModel} {text : String} {options : CompileOptions} {c : Compilation}

/-- What a report lists is the plan of the predicate that was read. -/
theorem reported_of_compile (h : t.compile text options = .ok c) :
    ∃ predicate plan, t.parse text options.locale = .ok predicate ∧
      t.plan predicate options.locale options.invert = .ok plan ∧
      t.whereClause t.model.baseQuery predicate options.locale options.invert = .ok c.query ∧
      c.joins.map (fun join => (join.aliasName, join.kind))
        = plan.map fun requirement => (requirement.target.aliasName, requirement.kind) := by
  obtain ⟨predicate, hparse, hcompiled⟩ := bind_eq_ok.mp h
  obtain ⟨parts, hparts, hcompiled⟩ := bind_eq_ok.mp hcompiled
  obtain ⟨predicate', hparse', hquery⟩ := whereClause_of_compile h
  have hsame : predicate' = predicate :=
    Except.ok.inj (hparse'.symm.trans (mapError_eq_ok.mp hparse))
  rw [hsame] at hquery
  refine ⟨predicate, parts.flatMap Prod.snd, mapError_eq_ok.mp hparse,
    map_eq_ok.mpr ⟨parts, mapError_eq_ok.mp hparts, rfl⟩, hquery, ?_⟩
  rw [← pure_eq_ok.mp hcompiled]
  simp only [List.map_flatMap, List.map_map]
  rfl

/-- A text is compiled if nothing of what it denotes is hidden. -/
theorem compile_ok {predicate : Expr} (hparse : t.parse text options.locale = .ok predicate)
    (h : ∀ b ∈ t.backends, predicate.Exposes (Reference.belongsTo b.id options.locale)) :
    ∃ c, t.compile text options = .ok c := by
  obtain ⟨plan, hplan⟩ := plan_ok h options.invert
  exact compile_of_plan hparse hplan

end LocalizedModel

namespace ModelSettings

variable {settings : ModelSettings} {table : String} {first : Nat} {t : LocalizedModel}

/-- **What is reported is what is joined,** in the same order, and no alias is reported twice. -/
theorem reported_joins_applied (hleaves : settings.LeavesTables)
    (hbuild : settings.build table first = .ok t) {text : String} {options : CompileOptions}
    {c : Compilation} (h : t.compile text options = .ok c) :
    c.joins.map (fun join => (join.aliasName, join.kind))
        = c.query.joins.map (fun join => (join.target, join.kind)) ∧
      (c.joins.map PlannedJoin.aliasName).Nodup := by
  have hattached := (built_of_build hbuild).attached
  have haliases := nodup_aliases_build hleaves hbuild options.locale
  obtain ⟨predicate, plan, hparse, hplan, hquery, hreported⟩ :=
    LocalizedModel.reported_of_compile h
  have hlocalizes := LocalizedModel.localizes_parse hparse
  constructor
  · rw [hreported,
      LocalizedModel.joins_whereClause hattached haliases hlocalizes hplan hquery, List.map_map]
    rfl
  · have hnames := congrArg (List.map Prod.fst) hreported
    rw [List.map_map, List.map_map] at hnames
    change c.joins.map PlannedJoin.aliasName
      = plan.map fun requirement => requirement.target.aliasName at hnames
    rw [hnames]
    exact LocalizedModel.nodup_aliases_plan hattached haliases hlocalizes hplan

/-- Posts with titles and bodies in two kinds of key-value tables and a slug in a table. -/
def ofPosts : ModelSettings where
  keyValue :=
    [{ typeName := "string", attributeNames := ["title"] },
      { typeName := "text", attributeNames := ["body"] }]
  table := some { attributeNames := ["slug"] }

/-- A text that needs all three tables of posts has all three reported and joined. -/
theorem reported_joins_ofPosts :
    ∃ t c, ofPosts.build "posts" 0 = .ok t ∧
      t.compile "title = 'x' AND body IS NULL OR slug <> 'y'" { locale := ⟨"pt-BR"⟩ } = .ok c ∧
      c.joins.map (fun join => (join.aliasName, join.kind))
        = c.query.joins.map (fun join => (join.target, join.kind)) ∧
      (c.joins.map PlannedJoin.aliasName).Nodup ∧
      ∀ name ∈ ["post_title_pt_br_string_translations", "post_body_pt_br_text_translations",
        "post_translations_pt_br"], name ∈ c.query.joins.map Join.target := by
  have hread : ((ofPosts.build "posts" 0).toOption.bind fun t =>
      (t.parse "title = 'x' AND body IS NULL OR slug <> 'y'" ⟨"pt-BR"⟩).toOption.map fun e =>
        (e.references.map Reference.table, e.outermostCases.isEmpty))
      = some (["post_title_pt_br_string_translations", "post_body_pt_br_text_translations",
        "post_translations_pt_br"], true) := by
    decide +kernel
  cases hbuild : ofPosts.build "posts" 0 with
  | error e => simp [hbuild, Except.toOption] at hread
  | ok t =>
    cases hparse : t.parse "title = 'x' AND body IS NULL OR slug <> 'y'" ⟨"pt-BR"⟩ with
    | error e => simp [hbuild, hparse, Except.toOption] at hread
    | ok predicate =>
      simp only [hbuild, hparse, Except.toOption, Option.bind_some, Option.map_some,
        Option.some.injEq, Prod.mk.injEq, List.isEmpty_iff] at hread
      obtain ⟨htables, hcases⟩ := hread
      have hexposes : ∀ b ∈ t.backends,
          predicate.Exposes (Reference.belongsTo b.id ⟨"pt-BR"⟩) := by
        intro b _
        simp [Expr.Exposes, hcases]
      obtain ⟨c, hc⟩ : ∃ c, t.compile "title = 'x' AND body IS NULL OR slug <> 'y'"
          { locale := ⟨"pt-BR"⟩ } = .ok c :=
        LocalizedModel.compile_ok hparse hexposes
      obtain ⟨happlied, hnodup⟩ :=
        reported_joins_applied (by simp [LeavesTables, ofPosts]) hbuild hc
      refine ⟨t, c, rfl, hc, happlied, hnodup, fun name hname => ?_⟩
      obtain ⟨predicate', -, hparse', -, hquery, -⟩ := LocalizedModel.reported_of_compile hc
      rw [← Except.ok.inj (hparse.symm.trans hparse')] at hquery
      obtain ⟨plan', hplan', hquery⟩ := LocalizedModel.whereClause_eq_ok.mp hquery
      rw [← hquery]
      refine Query.target_mem_applyPlan.mpr (.inr ?_)
      refine (LocalizedModel.aliases_plan (built_of_build hbuild).attached
        (LocalizedModel.localizes_parse hparse) hplan').mpr ?_
      rw [← htables] at hname
      exact List.mem_map.mp hname

end ModelSettings

end LocalizedQuery
