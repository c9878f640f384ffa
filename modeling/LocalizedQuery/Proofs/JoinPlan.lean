import LocalizedQuery.JoinPlan
import Mathlib.Data.List.Nodup

/-!
# What a plan does to a query

Attaching a target either leaves the joins alone or puts the target behind the joins of the others
(`Query.joins_applyJoin`). So it keeps targets apart, adds its own to them and takes none away, and
what it adds is the target with the kind that was asked for.

## Main results

* `Query.target_mem_applyPlan` — the targets after a plan
* `Query.mem_joins_applyPlan` — where the joins come from
* `Query.joins_applyPlan_of_new` — a plan for new targets is joined as it stands
* `Query.nodup_applyPlan` — no target is joined twice
-/

namespace LocalizedQuery

/-- The join of a target with a kind. -/
def JoinTarget.join (target : JoinTarget) (kind : JoinKind) : Join :=
  ⟨kind, target.table, target.on⟩

@[simp] theorem JoinTarget.target_join (target : JoinTarget) (kind : JoinKind) :
    (target.join kind).target = target.aliasName := rfl

namespace Query

variable {q : Query} {target : JoinTarget} {kind : JoinKind} {plan : List JoinRequirement}

/-! ## One target -/

@[simp] theorem select_applyJoin : (q.applyJoin target kind).select = q.select := by
  fun_cases applyJoin q target kind <;> simp_all [removeJoin, join]

@[simp] theorem source_applyJoin : (q.applyJoin target kind).source = q.source := by
  fun_cases applyJoin q target kind <;> simp_all [removeJoin, join]

@[simp] theorem condition_applyJoin : (q.applyJoin target kind).condition = q.condition := by
  fun_cases applyJoin q target kind <;> simp_all [removeJoin, join]

/-- What attaching a target does to the joins. -/
theorem joins_applyJoin (q : Query) (target : JoinTarget) (kind : JoinKind) :
    (∃ existing ∈ q.joins, existing.target = target.aliasName ∧
      existing.kind.satisfies kind = true ∧ (q.applyJoin target kind).joins = q.joins) ∨
    (q.applyJoin target kind).joins
      = q.joins.filter (fun join => join.target != target.aliasName) ++ [target.join kind] := by
  cases hfind : q.findJoin target.aliasName with
  | none =>
    refine .inr ?_
    have hothers : ∀ join ∈ q.joins, (join.target != target.aliasName) = true := by
      intro join hjoin
      have hnot := List.find?_eq_none.mp hfind join hjoin
      simpa using hnot
    rw [List.filter_eq_self.mpr hothers]
    simp only [applyJoin, hfind, Query.join, JoinTarget.join]
  | some existing =>
    have hmem : existing ∈ q.joins := List.mem_of_find?_eq_some hfind
    have htarget : existing.target = target.aliasName := by
      simpa using List.find?_some hfind
    by_cases hserves : existing.kind.satisfies kind = true
    · exact .inl ⟨existing, hmem, htarget, hserves, by simp [applyJoin, hfind, hserves]⟩
    · exact .inr (by simp [applyJoin, hfind, hserves, removeJoin, Query.join, JoinTarget.join])

theorem mem_joins_applyJoin {join : Join} (h : join ∈ (q.applyJoin target kind).joins) :
    join ∈ q.joins ∨ join = target.join kind := by
  rcases q.joins_applyJoin target kind with ⟨-, -, -, -, hsame⟩ | hjoins
  · exact .inl (hsame ▸ h)
  · rw [hjoins, List.mem_append, List.mem_singleton] at h
    exact h.imp_left fun h => (List.mem_filter.mp h).1

theorem target_mem_applyJoin {name : String} :
    name ∈ (q.applyJoin target kind).joins.map Join.target ↔
      name ∈ q.joins.map Join.target ∨ name = target.aliasName := by
  rcases q.joins_applyJoin target kind with ⟨existing, hmem, htarget, -, hsame⟩ | hjoins
  · rw [hsame, or_iff_left_of_imp]
    rintro rfl
    exact List.mem_map.mpr ⟨existing, hmem, htarget⟩
  · rw [hjoins]
    by_cases hname : name = target.aliasName
    · simp [hname]
    · simp only [List.map_append, List.mem_append, List.mem_map, List.mem_filter, bne_iff_ne,
        List.mem_singleton, hname, or_false]
      constructor
      · rintro (⟨join, ⟨hjoin, -⟩, htarget⟩ | ⟨join, rfl, htarget⟩)
        · exact ⟨join, hjoin, htarget⟩
        · exact absurd htarget.symm hname
      · rintro ⟨join, hjoin, htarget⟩
        exact .inl ⟨join, ⟨hjoin, fun h => hname (htarget.symm.trans h)⟩, htarget⟩

theorem nodup_applyJoin (h : (q.joins.map Join.target).Nodup) :
    ((q.applyJoin target kind).joins.map Join.target).Nodup := by
  rcases q.joins_applyJoin target kind with ⟨-, -, -, -, hsame⟩ | hjoins
  · rwa [hsame]
  · rw [hjoins, List.map_append, List.map_singleton, List.nodup_append]
    refine ⟨h.sublist (List.filter_sublist.map _), List.nodup_singleton _, ?_⟩
    rintro name hname _ hlast rfl
    obtain ⟨join, hjoin, rfl⟩ := List.mem_map.mp hname
    exact bne_iff_ne.mp (List.mem_filter.mp hjoin).2 (List.mem_singleton.mp hlast)

/-- A target that is not joined yet comes last. -/
theorem joins_applyJoin_of_new (hnew : target.aliasName ∉ q.joins.map Join.target) :
    (q.applyJoin target kind).joins = q.joins ++ [target.join kind] := by
  rcases q.joins_applyJoin target kind with ⟨existing, hmem, htarget, -, -⟩ | hjoins
  · exact absurd (List.mem_map.mpr ⟨existing, hmem, htarget⟩) hnew
  · rw [hjoins, List.filter_eq_self.mpr]
    intro join hjoin
    exact bne_iff_ne.mpr fun htarget => hnew (List.mem_map.mpr ⟨join, hjoin, htarget⟩)

/-! ## Whole plans -/

@[simp] theorem select_applyPlan : (q.applyPlan plan).select = q.select := by
  induction plan generalizing q with
  | nil => rfl
  | cons requirement rest ih => exact ih.trans select_applyJoin

@[simp] theorem source_applyPlan : (q.applyPlan plan).source = q.source := by
  induction plan generalizing q with
  | nil => rfl
  | cons requirement rest ih => exact ih.trans source_applyJoin

@[simp] theorem condition_applyPlan : (q.applyPlan plan).condition = q.condition := by
  induction plan generalizing q with
  | nil => rfl
  | cons requirement rest ih => exact ih.trans condition_applyJoin

/-- **Where the joins come from.** -/
theorem mem_joins_applyPlan {join : Join} (h : join ∈ (q.applyPlan plan).joins) :
    join ∈ q.joins ∨ ∃ requirement ∈ plan, join = requirement.target.join requirement.kind := by
  induction plan generalizing q with
  | nil => exact .inl h
  | cons requirement rest ih =>
    rcases ih h with hmem | ⟨later, hlater, heq⟩
    · rcases mem_joins_applyJoin hmem with hmem | heq
      · exact .inl hmem
      · exact .inr ⟨requirement, List.mem_cons_self .., heq⟩
    · exact .inr ⟨later, List.mem_cons_of_mem _ hlater, heq⟩

/-- **The targets after a plan.** -/
theorem target_mem_applyPlan {name : String} :
    name ∈ (q.applyPlan plan).joins.map Join.target ↔
      name ∈ q.joins.map Join.target ∨
        ∃ requirement ∈ plan, requirement.target.aliasName = name := by
  induction plan generalizing q with
  | nil => simp [applyPlan]
  | cons requirement rest ih =>
    have hrest := ih (q := q.applyJoin requirement.target requirement.kind)
    rw [target_mem_applyJoin] at hrest
    refine hrest.trans ?_
    simp only [List.mem_cons, exists_eq_or_imp, or_assoc, eq_comm (a := name)]

/-- Targets with different aliases that are not joined yet come last, in the order of the plan. -/
theorem joins_applyPlan_of_new (hnodup : (plan.map fun r => r.target.aliasName).Nodup)
    (hnew : ∀ requirement ∈ plan, requirement.target.aliasName ∉ q.joins.map Join.target) :
    (q.applyPlan plan).joins = q.joins ++ plan.map fun r => r.target.join r.kind := by
  induction plan generalizing q with
  | nil => simp [applyPlan]
  | cons requirement rest ih =>
    obtain ⟨hfirst, hrest⟩ := List.nodup_cons.mp hnodup
    have hjoins : (q.applyJoin requirement.target requirement.kind).joins
        = q.joins ++ [requirement.target.join requirement.kind] :=
      joins_applyJoin_of_new (hnew requirement (List.mem_cons_self ..))
    have hstill : ∀ later ∈ rest, later.target.aliasName ∉
        (q.applyJoin requirement.target requirement.kind).joins.map Join.target := by
      intro later hlater hmem
      rcases target_mem_applyJoin.mp hmem with hold | hsame
      · exact hnew later (List.mem_cons_of_mem _ hlater) hold
      · exact hfirst (List.mem_map.mpr ⟨later, hlater, hsame⟩)
    calc ((q.applyJoin requirement.target requirement.kind).applyPlan rest).joins
        = (q.joins ++ [requirement.target.join requirement.kind])
            ++ rest.map fun r => r.target.join r.kind := by
          rw [ih hrest hstill, hjoins]
      _ = q.joins ++ (requirement :: rest).map fun r => r.target.join r.kind :=
          List.append_assoc ..

/-- **No target is joined twice.** -/
theorem nodup_applyPlan (h : (q.joins.map Join.target).Nodup) :
    ((q.applyPlan plan).joins.map Join.target).Nodup := by
  induction plan generalizing q with
  | nil => exact h
  | cons requirement rest ih => exact ih (nodup_applyJoin h)

end Query

end LocalizedQuery
