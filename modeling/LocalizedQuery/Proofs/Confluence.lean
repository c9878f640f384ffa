import LocalizedQuery.Proofs.JoinPlan
import Mathlib.Data.List.Perm.Basic

/-!
# The order of a plan does not matter

A plan may ask for one target several times and in any order, and the query may have joined it
before. What becomes of a target depends on two things only: the join that it had, and whether one
of the requirements for it is inner.

The proof follows a single target through the plan. `Query.findJoin` reads its join,
`JoinTarget.settle` says what one requirement makes of it, and to settle twice is to settle once for
both kinds together (`JoinTarget.settle_settle`). So a whole plan settles each target once, for the
kind that its requirements demand together (`Query.findJoin_applyPlan`). This does not depend on the
order of the plan, and a second run of the plan finds everything settled.

## Main results

* `Query.findJoin_applyJoin`, `Query.findJoin_applyPlan` — what becomes of one target
* `Query.filter_applyPlan` — the other joins stay as they are, in their order
* `Query.perm_of_findJoin` — targets that are apart determine the joins up to order
* `Query.applyPlan_exact` — what a plan makes of a query, in any order and run again
-/

namespace LocalizedQuery

/-! ## Kinds that are asked for together -/

namespace JoinKind

/-- The kind that serves two requirements at once: outer only if both are. -/
def demand : JoinKind → JoinKind → JoinKind
  | .outer, .outer => .outer
  | _, _ => .inner

@[simp] theorem demand_eq_inner {first second : JoinKind} :
    first.demand second = .inner ↔ first = .inner ∨ second = .inner := by
  cases first <;> cases second <;> decide

@[simp] theorem demand_outer (kind : JoinKind) : kind.demand .outer = kind := by
  cases kind <;> rfl

theorem satisfies_iff {kind required : JoinKind} :
    kind.satisfies required = true ↔ (required = .inner → kind = .inner) := by
  cases kind <;> cases required <;> decide

end JoinKind

/-! ## One requirement for one target -/

namespace JoinTarget

variable {target : JoinTarget} {kind first second : JoinKind} {found : Option Join}

/-- The join of a target after a requirement for it, from the join that it had. -/
def settle (target : JoinTarget) (kind : JoinKind) : Option Join → Join
  | some existing => if existing.kind.satisfies kind then existing else target.join kind
  | none => target.join kind

theorem kind_settle :
    (target.settle kind found).kind = .inner ↔
      (∃ existing, found = some existing ∧ existing.kind = .inner) ∨ kind = .inner := by
  cases found with
  | none => simp [settle, join]
  | some existing =>
    obtain ⟨old, table, on⟩ := existing
    cases old <;> cases kind <;> simp [settle, join, JoinKind.satisfies]

/-- **To settle twice is to settle once for both kinds.** -/
theorem settle_settle :
    target.settle second (some (target.settle first found))
      = target.settle (first.demand second) found := by
  cases found with
  | none => cases first <;> cases second <;> rfl
  | some existing =>
    obtain ⟨old, table, on⟩ := existing
    cases old <;> cases first <;> cases second <;> rfl

end JoinTarget

namespace Query

variable {q q' : Query} {target : JoinTarget} {kind : JoinKind} {plan plan' : List JoinRequirement}

theorem findJoin_join (q : Query) (kind : JoinKind) (table : TableRef) (on : Expr) (name : String) :
    (q.join kind table on).findJoin name
      = (q.findJoin name).or
          (if table.referenceName = name then some ⟨kind, table, on⟩ else none) := by
  rw [findJoin, Query.join, List.find?_append]
  by_cases hname : table.referenceName = name <;> simp [findJoin, Join.target, hname]

theorem findJoin_removeJoin (q : Query) (other name : String) :
    (q.removeJoin other).findJoin name = if name = other then none else q.findJoin name := by
  rw [findJoin, removeJoin, List.find?_filter]
  by_cases hname : name = other
  · simp [hname]
  · rw [if_neg hname, findJoin]
    congr 1
    funext join
    by_cases htarget : join.target = name <;> simp [htarget, hname]

/-- **What becomes of one target by one requirement.** -/
theorem findJoin_applyJoin (q : Query) (target : JoinTarget) (kind : JoinKind) (name : String) :
    (q.applyJoin target kind).findJoin name
      = if name = target.aliasName then some (target.settle kind (q.findJoin name))
        else q.findJoin name := by
  cases hfind : q.findJoin target.aliasName with
  | none =>
    have hadd : q.applyJoin target kind = q.join kind target.table target.on := by
      simp only [applyJoin, hfind]
    rw [hadd, findJoin_join]
    by_cases hname : name = target.aliasName
    · rw [if_pos hname, hname, hfind]
      simp [JoinTarget.settle, JoinTarget.join, JoinTarget.aliasName]
    · have hother : target.table.referenceName ≠ name := Ne.symm hname
      rw [if_neg hname, if_neg hother, Option.or_none]
  | some existing =>
    by_cases hserves : existing.kind.satisfies kind = true
    · have hkeep : q.applyJoin target kind = q := by
        simp only [applyJoin, hfind, hserves, if_true]
      rw [hkeep]
      by_cases hname : name = target.aliasName
      · rw [if_pos hname, hname, hfind]
        simp [JoinTarget.settle, hserves]
      · rw [if_neg hname]
    · have hreplace : q.applyJoin target kind
          = (q.removeJoin target.aliasName).join kind target.table target.on := by
        simp [applyJoin, hfind, hserves]
      rw [hreplace, findJoin_join, findJoin_removeJoin]
      by_cases hname : name = target.aliasName
      · rw [if_pos hname, if_pos hname, hname, hfind]
        simp [JoinTarget.settle, JoinTarget.join, JoinTarget.aliasName, hserves]
      · have hother : target.table.referenceName ≠ name := Ne.symm hname
        rw [if_neg hname, if_neg hname, if_neg hother, Option.or_none]

/-- A requirement that is served changes nothing. -/
theorem applyJoin_of_served {existing : Join} (hfind : q.findJoin target.aliasName = some existing)
    (hserves : existing.kind.satisfies kind = true) : q.applyJoin target kind = q := by
  simp only [applyJoin, hfind, hserves, if_true]

/-! ## A whole plan for one target -/

/-- The kind that the requirements of a plan for a name demand together. -/
def demanded (plan : List JoinRequirement) (name : String) : JoinKind :=
  plan.foldr
    (fun requirement kind =>
      if requirement.target.aliasName = name then requirement.kind.demand kind else kind) .outer

theorem demanded_eq_inner {name : String} :
    demanded plan name = .inner ↔
      ∃ requirement ∈ plan, requirement.target.aliasName = name ∧ requirement.kind = .inner := by
  induction plan with
  | nil => simp [demanded]
  | cons requirement rest ih =>
    rw [List.exists_mem_cons_iff, ← ih]
    by_cases hname : requirement.target.aliasName = name <;> simp [demanded, hname]

/-- Where no requirement is for a name, nothing happens to it. -/
theorem findJoin_applyPlan_of_not_mentioned {name : String}
    (h : ∀ requirement ∈ plan, requirement.target.aliasName ≠ name) :
    (q.applyPlan plan).findJoin name = q.findJoin name := by
  induction plan generalizing q with
  | nil => rfl
  | cons requirement rest ih =>
    rw [List.forall_mem_cons] at h
    have hrest : ((q.applyJoin requirement.target requirement.kind).applyPlan rest).findJoin name
        = (q.applyJoin requirement.target requirement.kind).findJoin name := ih h.2
    rw [findJoin_applyJoin, if_neg (Ne.symm h.1)] at hrest
    exact hrest

theorem demanded_of_not_mentioned {name : String}
    (h : ∀ requirement ∈ plan, requirement.target.aliasName ≠ name) :
    demanded plan name = .outer := by
  cases hkind : demanded plan name with
  | outer => rfl
  | inner =>
    obtain ⟨requirement, hmem, hname, -⟩ := demanded_eq_inner.mp hkind
    exact absurd hname (h requirement hmem)

/-- **What becomes of one target by a whole plan.** It is settled once, for the kind that its
requirements demand together. -/
theorem findJoin_applyPlan
    (hsame : ∀ requirement ∈ plan, requirement.target.aliasName = target.aliasName →
      requirement.target = target)
    (hmentioned : ∃ requirement ∈ plan, requirement.target.aliasName = target.aliasName) :
    (q.applyPlan plan).findJoin target.aliasName
      = some (target.settle (demanded plan target.aliasName) (q.findJoin target.aliasName)) := by
  induction plan generalizing q with
  | nil => simp at hmentioned
  | cons requirement rest ih =>
    rw [List.forall_mem_cons] at hsame
    have hrun : q.applyPlan (requirement :: rest)
        = (q.applyJoin requirement.target requirement.kind).applyPlan rest := rfl
    have hfirst := findJoin_applyJoin q requirement.target requirement.kind target.aliasName
    by_cases hlater : ∃ later ∈ rest, later.target.aliasName = target.aliasName
    · rw [hrun, ih hsame.2 hlater, hfirst]
      by_cases hname : requirement.target.aliasName = target.aliasName
      · rw [if_pos hname.symm, hsame.1 hname, JoinTarget.settle_settle]
        simp [demanded, hname]
      · rw [if_neg (Ne.symm hname)]
        simp [demanded, hname]
    · -- This requirement is the last one for the target.
      have hrest : ∀ later ∈ rest, later.target.aliasName ≠ target.aliasName :=
        fun later hmem hname => hlater ⟨later, hmem, hname⟩
      have hname : requirement.target.aliasName = target.aliasName := by
        obtain ⟨later, hmem, hname⟩ := hmentioned
        rcases List.mem_cons.mp hmem with rfl | hmem
        · exact hname
        · exact absurd hname (hrest later hmem)
      have hdemanded : demanded (requirement :: rest) target.aliasName
          = requirement.kind.demand (demanded rest target.aliasName) := by
        simp [demanded, hname]
      rw [hrun, findJoin_applyPlan_of_not_mentioned hrest, hfirst, if_pos hname.symm,
        hsame.1 hname, hdemanded, demanded_of_not_mentioned hrest, JoinKind.demand_outer]

/-! ## Other joins -/

theorem filter_applyJoin {p : Join → Bool}
    (hp : ∀ join, p join = true → join.target ≠ target.aliasName) :
    (q.applyJoin target kind).joins.filter p = q.joins.filter p := by
  rcases q.joins_applyJoin target kind with ⟨-, -, -, -, hsame⟩ | hjoins
  · rw [hsame]
  · have hnew : p (target.join kind) = false := by
      rw [Bool.eq_false_iff]
      intro h
      exact hp _ h rfl
    rw [hjoins, List.filter_append, List.filter_filter, List.filter_cons_of_neg (by simp [hnew]),
      List.filter_nil, List.append_nil]
    refine List.filter_congr fun join _ => ?_
    cases hjoin : p join with
    | false => rfl
    | true => simpa using hp join hjoin

/-- **The other joins stay as they are, in their order.** -/
theorem filter_applyPlan {p : Join → Bool}
    (hp : ∀ join, p join = true →
      ∀ requirement ∈ plan, requirement.target.aliasName ≠ join.target) :
    (q.applyPlan plan).joins.filter p = q.joins.filter p := by
  induction plan generalizing q with
  | nil => rfl
  | cons requirement rest ih =>
    have hrest := ih (q := q.applyJoin requirement.target requirement.kind)
      fun join hjoin => (List.forall_mem_cons.mp (hp join hjoin)).2
    refine hrest.trans (filter_applyJoin fun join hjoin => ?_)
    exact Ne.symm (List.forall_mem_cons.mp (hp join hjoin)).1

/-! ## Joins whose targets are apart -/

theorem findJoin_eq_some (h : (q.joins.map Join.target).Nodup) {name : String} {join : Join} :
    q.findJoin name = some join ↔ join ∈ q.joins ∧ join.target = name := by
  constructor
  · intro hfind
    exact ⟨List.mem_of_find?_eq_some hfind, by simpa using List.find?_some hfind⟩
  · rintro ⟨hjoin, rfl⟩
    cases hfind : q.findJoin join.target with
    | none =>
      have hnot := List.find?_eq_none.mp hfind join hjoin
      simp at hnot
    | some first =>
      have hfirst : first ∈ q.joins := List.mem_of_find?_eq_some hfind
      have htarget : first.target = join.target := by simpa using List.find?_some hfind
      exact congrArg some (List.inj_on_of_nodup_map h hfirst hjoin htarget)

/-- **Targets that are apart determine the joins up to order.** -/
theorem perm_of_findJoin (h : (q.joins.map Join.target).Nodup)
    (h' : (q'.joins.map Join.target).Nodup)
    (hfind : ∀ name, q.findJoin name = q'.findJoin name) : q.joins.Perm q'.joins := by
  refine (List.perm_ext_iff_of_nodup h.of_map h'.of_map).mpr fun join => ?_
  have hmem : q.findJoin join.target = some join ↔ join ∈ q.joins := by
    simp [findJoin_eq_some h]
  have hmem' : q'.findJoin join.target = some join ↔ join ∈ q'.joins := by
    simp [findJoin_eq_some h']
  rw [← hmem, ← hmem', hfind]

/-! ## Whole plans -/

/-- Requirements with one alias have one table and one condition. -/
def Coherent (plan : List JoinRequirement) : Prop :=
  ∀ requirement ∈ plan, ∀ other ∈ plan,
    requirement.target.aliasName = other.target.aliasName →
      requirement.target.table = other.target.table ∧ requirement.target.on = other.target.on

theorem Coherent.target_eq (h : Coherent plan) {requirement other : JoinRequirement}
    (hmem : requirement ∈ plan) (hother : other ∈ plan)
    (hname : requirement.target.aliasName = other.target.aliasName) :
    requirement.target = other.target := by
  obtain ⟨htable, hon⟩ := h requirement hmem other hother hname
  cases hrequirement : requirement.target
  cases hotherTarget : other.target
  rw [hrequirement, hotherTarget] at htable hon
  simp only at htable hon
  rw [htable, hon]

/-- What becomes of a target that a coherent plan asks for. -/
theorem Coherent.findJoin_applyPlan (h : Coherent plan) {requirement : JoinRequirement}
    (hmem : requirement ∈ plan) :
    (q.applyPlan plan).findJoin requirement.target.aliasName
      = some (requirement.target.settle (demanded plan requirement.target.aliasName)
          (q.findJoin requirement.target.aliasName)) :=
  Query.findJoin_applyPlan (fun _ hother hname => h.target_eq hother hmem hname)
    ⟨requirement, hmem, rfl⟩

/-- A target is demanded alike in any order of the plan. -/
theorem demanded_perm (hperm : plan.Perm plan') (name : String) :
    demanded plan name = demanded plan' name := by
  have hinner : demanded plan name = .inner ↔ demanded plan' name = .inner := by
    rw [demanded_eq_inner, demanded_eq_inner]
    simp only [hperm.mem_iff]
  cases hkind : demanded plan name <;> cases hkind' : demanded plan' name <;> simp_all

theorem findJoin_applyPlan_perm (h : Coherent plan) (hperm : plan.Perm plan') (name : String) :
    (q.applyPlan plan').findJoin name = (q.applyPlan plan).findJoin name := by
  have h' : Coherent plan' := fun requirement hmem other hother =>
    h requirement (hperm.mem_iff.mpr hmem) other (hperm.mem_iff.mpr hother)
  by_cases hmentioned : ∃ requirement ∈ plan, requirement.target.aliasName = name
  · obtain ⟨requirement, hmem, rfl⟩ := hmentioned
    rw [h.findJoin_applyPlan hmem, h'.findJoin_applyPlan (hperm.mem_iff.mp hmem),
      demanded_perm hperm]
  · have hnone : ∀ requirement ∈ plan, requirement.target.aliasName ≠ name :=
      fun requirement hmem hname => hmentioned ⟨requirement, hmem, hname⟩
    have hnone' : ∀ requirement ∈ plan', requirement.target.aliasName ≠ name :=
      fun requirement hmem => hnone requirement (hperm.mem_iff.mpr hmem)
    rw [findJoin_applyPlan_of_not_mentioned hnone, findJoin_applyPlan_of_not_mentioned hnone']

/-- A plan that is served changes nothing. -/
theorem applyPlan_of_served
    (h : ∀ requirement ∈ plan, ∃ existing,
      q.findJoin requirement.target.aliasName = some existing ∧
        existing.kind.satisfies requirement.kind = true) : q.applyPlan plan = q := by
  induction plan with
  | nil => rfl
  | cons requirement rest ih =>
    rw [List.forall_mem_cons] at h
    obtain ⟨⟨existing, hfind, hserves⟩, hrest⟩ := h
    have hfirst := applyJoin_of_served hfind hserves
    calc q.applyPlan (requirement :: rest)
        = (q.applyJoin requirement.target requirement.kind).applyPlan rest := rfl
      _ = q.applyPlan rest := by rw [hfirst]
      _ = q := ih hrest

/-- A coherent plan serves all of its requirements. -/
theorem Coherent.served (h : Coherent plan) {requirement : JoinRequirement}
    (hmem : requirement ∈ plan) :
    ∃ existing, (q.applyPlan plan).findJoin requirement.target.aliasName = some existing ∧
      existing.kind.satisfies requirement.kind = true := by
  refine ⟨_, h.findJoin_applyPlan hmem, JoinKind.satisfies_iff.mpr fun hkind => ?_⟩
  have hdemanded : demanded plan requirement.target.aliasName = .inner :=
    demanded_eq_inner.mpr ⟨requirement, hmem, rfl, hkind⟩
  exact JoinTarget.kind_settle.mpr (.inr hdemanded)

/-- A coherent plan joins a target inner if it was joined so before or if one of the requirements
for it is inner. -/
theorem Coherent.kind_eq_inner_iff (h : Coherent plan) (hq : (q.joins.map Join.target).Nodup)
    {join : Join} (hjoin : join ∈ (q.applyPlan plan).joins)
    (hmentioned : ∃ requirement ∈ plan, requirement.target.aliasName = join.target) :
    join.kind = .inner ↔
      (∃ old ∈ q.joins, old.target = join.target ∧ old.kind = .inner) ∨
      ∃ requirement ∈ plan, requirement.target.aliasName = join.target ∧
        requirement.kind = .inner := by
  obtain ⟨requirement, hmem, hname⟩ := hmentioned
  have hfind : (q.applyPlan plan).findJoin join.target = some join :=
    (findJoin_eq_some (nodup_applyPlan hq)).mpr ⟨hjoin, rfl⟩
  have hsettled := h.findJoin_applyPlan (q := q) hmem
  rw [hname, hfind, Option.some.injEq] at hsettled
  rw [hsettled, JoinTarget.kind_settle, demanded_eq_inner, ← hsettled]
  simp only [findJoin_eq_some hq, and_assoc]

/-- What a plan makes of a query. -/
structure Materializes (q : Query) (plan : List JoinRequirement) (q' : Query) : Prop where
  select : q'.select = q.select
  source : q'.source = q.source
  condition : q'.condition = q.condition
  nodup : (q'.joins.map Join.target).Nodup
  targets : ∀ name, name ∈ q'.joins.map Join.target ↔
    name ∈ q.joins.map Join.target ∨ ∃ requirement ∈ plan, requirement.target.aliasName = name
  /-- A join is one of the query's, or a requirement asks for it. -/
  origin : ∀ join ∈ q'.joins,
    join ∈ q.joins ∨ ∃ requirement ∈ plan, join = requirement.target.join requirement.kind
  inner_iff : ∀ join ∈ q'.joins,
    (∃ requirement ∈ plan, requirement.target.aliasName = join.target) →
      (join.kind = .inner ↔
        (∃ old ∈ q.joins, old.target = join.target ∧ old.kind = .inner) ∨
        ∃ requirement ∈ plan, requirement.target.aliasName = join.target ∧
          requirement.kind = .inner)
  /-- The joins that no requirement is for are the same, in the same order. -/
  others : q'.joins.filter (fun join => plan.all (·.target.aliasName != join.target))
    = q.joins.filter (fun join => plan.all (·.target.aliasName != join.target))

/-- **What a plan makes of a query, in any order and run again.** The joins are exact, their order
apart they do not depend on the order of the plan, and a second run changes nothing. -/
theorem applyPlan_exact (hq : (q.joins.map Join.target).Nodup) (hplan : Coherent plan) :
    q.Materializes plan (q.applyPlan plan) ∧
    (∀ plan', plan.Perm plan' → (q.applyPlan plan').joins.Perm (q.applyPlan plan).joins) ∧
    (q.applyPlan plan).applyPlan plan = q.applyPlan plan := by
  refine ⟨?_, fun plan' hperm => ?_, ?_⟩
  · exact {
      select := select_applyPlan
      source := source_applyPlan
      condition := condition_applyPlan
      nodup := nodup_applyPlan hq
      targets := fun name => target_mem_applyPlan
      origin := fun join => mem_joins_applyPlan
      inner_iff := fun join => hplan.kind_eq_inner_iff hq
      others := filter_applyPlan fun join hjoin requirement hmem => by
        simpa using List.all_eq_true.mp hjoin requirement hmem }
  · exact perm_of_findJoin (nodup_applyPlan hq) (nodup_applyPlan hq)
      (findJoin_applyPlan_perm hplan hperm)
  · exact applyPlan_of_served fun requirement hmem => hplan.served hmem

/-- The localized values of posts, under an alias. -/
def postValues (aliasName : String) : JoinTarget where
  table := { table := "post_translations", alias? := some aliasName }
  on := (Expr.qualified aliasName "post_id").equals (.qualified "posts" "id")

/-- Posts with their English values, which are joined outer before a join of the caller. -/
def postsWithTags : Query where
  source := some { table := "posts" }
  joins := [(postValues "en").join .outer,
    ⟨.outer, { table := "tags" },
      (Expr.qualified "tags" "post_id").equals (.qualified "posts" "id")⟩]

/-- English values twice, with French ones between. -/
def bilingualPlan : List JoinRequirement :=
  [⟨none, postValues "en", .outer⟩, ⟨none, postValues "fr", .outer⟩,
    ⟨none, postValues "en", .inner⟩]

/-- The English values are needed after all, and are joined anew behind the others. -/
theorem applyPlan_bilingual :
    ((postsWithTags.applyPlan bilingualPlan).joins.map fun join => (join.target, join.kind))
      = [("tags", .outer), ("fr", .outer), ("en", .inner)] ∧
    postsWithTags.Materializes bilingualPlan (postsWithTags.applyPlan bilingualPlan) ∧
    (postsWithTags.applyPlan bilingualPlan.reverse).joins.Perm
      (postsWithTags.applyPlan bilingualPlan).joins ∧
    (postsWithTags.applyPlan bilingualPlan).applyPlan bilingualPlan
      = postsWithTags.applyPlan bilingualPlan := by
  have hvalues : ∀ requirement ∈ bilingualPlan,
      requirement.target = postValues requirement.target.aliasName := by
    intro requirement hmem
    simp only [bilingualPlan, List.mem_cons, List.not_mem_nil, or_false] at hmem
    rcases hmem with rfl | rfl | rfl <;> rfl
  have hcoherent : Coherent bilingualPlan := by
    intro requirement hmem other hother hname
    have hsame : requirement.target = other.target := by
      rw [hvalues requirement hmem, hvalues other hother, hname]
    exact ⟨congrArg JoinTarget.table hsame, congrArg JoinTarget.on hsame⟩
  obtain ⟨hexact, hperm, hagain⟩ := applyPlan_exact (q := postsWithTags) (by decide) hcoherent
  exact ⟨by decide, hexact, hperm _ (List.reverse_perm _).symm, hagain⟩

end Query

end LocalizedQuery
