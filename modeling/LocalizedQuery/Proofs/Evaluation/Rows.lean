import LocalizedQuery.Proofs.Evaluation.Value
import LocalizedQuery.Sql.Query
import Mathlib.Data.Multiset.Bind
import Mathlib.Logic.Function.Basic

/-!
# Rows of queries

Which rows a query has over the contents of a database: the records of its source, extended join by
join, and then those for which its condition holds. Rows have no order but may repeat, so they form
a multiset. What is selected of a row plays no part.

## Joins that do not look at each other

The condition of a join may look at any table joined before it. `Join.Local` says that it looks at
the source and at its own table only. Such joins with different targets may be made in any order,
since a row has the same matches before and after the other joins (`Join.extendAll_perm`).

## Inner joins that lose nothing

An inner join drops the rows for which an outer join puts the missing record. Nothing is lost if
what follows never keeps a row with the missing record in that place;
`Join.filter_extendAll_of_weaker` says so for a whole list of joins.

## Main results

* `Join.extendAll_perm` — the order of local joins with different targets does not matter
* `Join.filter_extendAll_of_weaker` — joins made inner where the condition needs their row lose
  nothing
* `Query.rows_outered` — nor does a whole query with such joins
-/

namespace LocalizedQuery

variable {α : Type}

/-- The contents of the tables of a database. -/
abbrev Database (α : Type) := String → Multiset (Record α)

section

variable (I : Interpretation α) (db : Database α)

namespace Join

/-- The records of the joined table that match a row. -/
def matching (join : Join) (row : Row α) : Multiset (Record α) :=
  (db join.table.table).filter fun record =>
    join.on.truth I (Function.update row join.target record) = .holds

/-- The records that a join puts beside a row. -/
def partners (join : Join) (row : Row α) : Multiset (Record α) :=
  if join.kind = .outer ∧ (join.matching I db row).card = 0 then {Record.missing}
  else join.matching I db row

/-- The rows that a join makes of a row. -/
def extend (join : Join) (row : Row α) : Multiset (Row α) :=
  (join.partners I db row).map (Function.update row join.target)

/-- The rows that a list of joins makes of a row. -/
def extendAll : List Join → Row α → Multiset (Row α)
  | [], row => {row}
  | join :: rest, row => (join.extend I db row).bind (extendAll rest)

end Join

namespace Query

/-- The rows that a query starts from. -/
def sourceRows (q : Query) : Multiset (Row α) :=
  match q.source with
  | some table =>
    (db table.table).map (Function.update (fun _ => Record.missing) table.referenceName)
  | none => {fun _ => Record.missing}

/-- Whether a query keeps a row. -/
def keeps (q : Query) (row : Row α) : Prop :=
  ∀ condition ∈ q.condition, condition.truth I row = .holds

instance (q : Query) (row : Row α) : Decidable (q.keeps I row) :=
  match h : q.condition with
  | none => isTrue (by simp [keeps, h])
  | some condition => decidable_of_iff (condition.truth I row = .holds) (by simp [keeps, h])

/-- The rows of a query. -/
def rows (q : Query) : Multiset (Row α) :=
  ((q.sourceRows db).bind (Join.extendAll I db q.joins)).filter (q.keeps I)

end Query

end

variable {I : Interpretation α} {db : Database α}

namespace Join

/-! ## Joins that do not look at each other -/

/-- The condition of a join looks only at the table `base` and at its own. -/
def Local (base : String) (join : Join) : Prop :=
  ∀ ⦃α : Type⦄ (I : Interpretation α) (row : Row α) (table : String) (record : Record α),
    table ≠ base → table ≠ join.target →
      join.on.truth I (Function.update row table record) = join.on.truth I row

variable {base table : String} {join other : Join} {row : Row α}

/-- A local join has the same matches whatever the other tables hold. -/
theorem matching_update (hlocal : join.Local base) (hbase : table ≠ base) (record : Record α) :
    join.matching I db (Function.update row table record) = join.matching I db row := by
  refine Multiset.filter_congr fun r _ => ?_
  by_cases h : table = join.target
  · rw [h, Function.update_idem]
  · rw [Function.update_comm h, hlocal I _ table record hbase h]

theorem partners_update (hlocal : join.Local base) (hbase : table ≠ base) (record : Record α) :
    join.partners I db (Function.update row table record) = join.partners I db row := by
  rw [partners, partners, matching_update hlocal hbase]

/-- Two local joins with different targets may change places. -/
theorem extend_comm (hjoin : join.Local base) (hother : other.Local base)
    (hne : join.target ≠ other.target) (hjb : join.target ≠ base) (hob : other.target ≠ base) :
    (join.extend I db row).bind (other.extend I db)
      = (other.extend I db row).bind (join.extend I db) := by
  simp only [extend, Multiset.bind_map]
  have hthen : ∀ r, other.partners I db (Function.update row join.target r)
      = other.partners I db row := partners_update hother hjb
  have hfirst : ∀ r, join.partners I db (Function.update row other.target r)
      = join.partners I db row := partners_update hjoin hob
  simp only [hthen, hfirst]
  rw [Multiset.bind_map_comm]
  refine Multiset.bind_congr fun r _ => Multiset.map_congr rfl fun s _ => ?_
  rw [Function.update_comm hne]

/-- **The order of local joins with different targets does not matter.** -/
theorem extendAll_perm {joins joins' : List Join} (hperm : joins.Perm joins')
    (hlocal : ∀ join ∈ joins, join.Local base) (hbase : base ∉ joins.map target)
    (hnodup : (joins.map target).Nodup) (row : Row α) :
    extendAll I db joins row = extendAll I db joins' row := by
  induction hperm generalizing row with
  | nil => rfl
  | cons join _ ih =>
    rw [List.map_cons, List.mem_cons, not_or] at hbase
    rw [List.map_cons, List.nodup_cons] at hnodup
    exact Multiset.bind_congr fun r _ =>
      ih (fun j hj => hlocal j (List.mem_cons_of_mem _ hj)) hbase.2 hnodup.2 r
  | swap join other rest =>
    simp only [List.map_cons, List.mem_cons, not_or, List.nodup_cons] at hbase hnodup
    simp only [extendAll, ← Multiset.bind_assoc]
    rw [extend_comm (hlocal _ (by simp)) (hlocal _ (by simp)) hnodup.1.1 (Ne.symm hbase.1)
      (Ne.symm hbase.2.1)]
  | trans hfirst _ ih ih' =>
    have htargets := hfirst.map target
    rw [ih hlocal hbase hnodup row, ih' (fun j hj => hlocal j (hfirst.mem_iff.mpr hj))
      (fun h => hbase (htargets.mem_iff.mpr h)) (htargets.nodup_iff.mp hnodup) row]

/-! ## Inner joins that lose nothing -/

/-- A row keeps its record for a table that is not joined again. -/
theorem apply_of_mem_extendAll {joins : List Join} {result : Row α}
    (h : result ∈ extendAll I db joins row) (htable : table ∉ joins.map target) :
    result table = row table := by
  induction joins generalizing row with
  | nil => rw [Multiset.mem_singleton.mp h]
  | cons join rest ih =>
    obtain ⟨middle, hmiddle, hresult⟩ := Multiset.mem_bind.mp h
    obtain ⟨record, -, rfl⟩ := Multiset.mem_map.mp hmiddle
    rw [List.map_cons, List.mem_cons, not_or] at htable
    rw [ih hresult htable.2, Function.update_of_ne htable.1]

/-- `strong` is `weak`, but may be inner where a row that `keep` keeps never has the missing
record. -/
structure Strengthens (keep : Row α → Prop) (strong weak : Join) : Prop where
  table : strong.table = weak.table
  on : strong.on = weak.on
  kind : strong.kind = weak.kind ∨ strong.kind = .inner ∧
    ∀ row, keep row → row weak.target ≠ Record.missing

variable {keep : Row α → Prop}

/-- What the stronger join does not make of a row has the missing record. -/
theorem Strengthens.partners {strong weak : Join} (h : Strengthens keep strong weak) (row : Row α) :
    strong.partners I db row = weak.partners I db row ∨
      strong.partners I db row = 0 ∧ weak.partners I db row = {Record.missing} ∧
        ∀ row, keep row → row weak.target ≠ Record.missing := by
  have htarget : strong.target = weak.target := congrArg TableRef.referenceName h.table
  have hmatching : strong.matching I db row = weak.matching I db row := by
    simp only [matching, h.table, h.on, htarget]
  rcases h.kind with hkind | ⟨hkind, hneeds⟩
  · exact .inl (by rw [Join.partners, Join.partners, hkind, hmatching])
  · by_cases hnone : weak.kind = .outer ∧ (weak.matching I db row).card = 0
    · refine .inr ⟨?_, if_pos hnone, hneeds⟩
      rw [Join.partners, hkind, hmatching, if_neg (by simp)]
      exact Multiset.card_eq_zero.mp hnone.2
    · refine .inl ?_
      rw [Join.partners, Join.partners, hkind, hmatching, if_neg (by simp), if_neg hnone]

/-- **Joins made inner where the condition needs their row lose nothing.** -/
theorem filter_extendAll_of_weaker [DecidablePred keep] {strong weak : List Join}
    (h : List.Forall₂ (Strengthens keep) strong weak) (hnodup : (weak.map target).Nodup)
    (row : Row α) :
    (extendAll I db strong row).filter keep = (extendAll I db weak row).filter keep := by
  induction h generalizing row with
  | nil => rfl
  | @cons strong weak strongs weaks hjoin _ ih =>
    rw [List.map_cons, List.nodup_cons] at hnodup
    have htarget : strong.target = weak.target := congrArg TableRef.referenceName hjoin.table
    simp only [extendAll, extend, Multiset.bind_map, Multiset.filter_bind, htarget, ih hnodup.2]
    rcases (hjoin.partners row : strong.partners I db row = _ ∨ _) with
      hsame | ⟨hstrong, hweak, hneeds⟩
    · rw [hsame]
    · -- The outer join adds one row; nothing that comes of it is kept.
      rw [hstrong, hweak, Multiset.zero_bind, Multiset.singleton_bind, eq_comm,
        Multiset.filter_eq_nil]
      intro result hresult hkeep
      refine hneeds result hkeep ?_
      rw [apply_of_mem_extendAll hresult hnodup.1, Function.update_self]

end Join

/-! ## Whole queries -/

/-- The join, made outer. -/
def Join.outered (join : Join) : Join := { join with kind := .outer }

@[simp] theorem Join.target_outered (join : Join) : join.outered.target = join.target := rfl

namespace Query

/-- A further condition has to hold, too. -/
theorem keeps_filter (q : Query) (condition : Expr) (row : Row α) :
    (q.filter condition).keeps I row ↔ q.keeps I row ∧ condition.truth I row = .holds := by
  cases hcondition : q.condition with
  | none => simp [keeps, filter, hcondition]
  | some existing => simp [keeps, filter, hcondition, Expr.both]

/-- The query with all joins made outer. -/
def outered (q : Query) : Query := { q with joins := q.joins.map Join.outered }

@[simp] theorem targets_outered (q : Query) :
    q.outered.joins.map Join.target = q.joins.map Join.target := by
  simp [outered, Function.comp_def]

variable {q q' : Query}

/-- **A query loses nothing by inner joins whose row its condition needs.** -/
theorem rows_outered (hnodup : (q.joins.map Join.target).Nodup)
    (hneeds : ∀ join ∈ q.joins, join.kind = .inner →
      ∀ row, q.keeps I row → row join.target ≠ Record.missing) :
    q.rows I db = q.outered.rows I db := by
  have hjoins : List.Forall₂ (Join.Strengthens (q.keeps I)) q.joins q.outered.joins := by
    refine List.forall₂_map_right_iff.mpr (List.forall₂_same.mpr fun join hjoin => ⟨rfl, rfl, ?_⟩)
    cases hkind : join.kind with
    | inner => exact .inr ⟨rfl, hneeds join hjoin hkind⟩
    | outer => exact .inl rfl
  show ((q.sourceRows db).bind (Join.extendAll I db q.joins)).filter (q.keeps I)
    = ((q.sourceRows db).bind (Join.extendAll I db q.outered.joins)).filter (q.keeps I)
  rw [Multiset.filter_bind, Multiset.filter_bind]
  exact Multiset.bind_congr fun row _ =>
    Join.filter_extendAll_of_weaker hjoins (by rwa [targets_outered]) row

/-- Local joins with different targets may be made in any order. -/
theorem rows_perm {base : String} (hsource : q.source = q'.source)
    (hkeeps : ∀ row, q.keeps I row ↔ q'.keeps I row) (hperm : q.joins.Perm q'.joins)
    (hlocal : ∀ join ∈ q.joins, join.Local base) (hbase : base ∉ q.joins.map Join.target)
    (hnodup : (q.joins.map Join.target).Nodup) : q.rows I db = q'.rows I db := by
  have hrow : ∀ row, Join.extendAll I db q.joins row = Join.extendAll I db q'.joins row :=
    Join.extendAll_perm hperm hlocal hbase hnodup
  have hsources : q.sourceRows db = q'.sourceRows db := by
    rw [sourceRows, sourceRows, hsource]
  rw [rows, rows, hsources]
  simp only [hrow]
  exact Multiset.filter_congr fun row _ => hkeeps row

end Query

end LocalizedQuery
