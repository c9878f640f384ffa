import LocalizedQuery.Proofs.Evaluation.Outlook
import LocalizedQuery.Proofs.Evaluation.Rows

/-!
# Rows in which everything is matched

Made inner, the joins of a query leave the rows in which no record is missing, if their conditions
never accept the missing record (`Join.filter_extendAll_innered`). And if each join finds one match
at most, then a record from which such a row comes has no other row, whatever the kinds of the joins
(`Join.extendAll_eq_singleton`). So of two queries with the same joins, one of them inner, only one
selects the record if their conditions exclude each other.

## Main results

* `Query.rows_innered` — inner joins leave the rows in which nothing is missing
* `Query.not_selects_both` — conditions that exclude each other select different records
* `Join.matchesAtMostOne_of_local` — local joins match at most one record if each does by itself
-/

namespace LocalizedQuery

variable {α : Type} {I : Interpretation α} {db : Database α}

/-- The row that has a record of one table and nothing else. -/
def Row.single (table : String) (record : Record α) : Row α :=
  Function.update (fun _ => Record.missing) table record

/-- The join, made inner. -/
def Join.innered (join : Join) : Join := { join with kind := .inner }

namespace Join

variable {join : Join} {joins : List Join} {row result : Row α}

@[simp] theorem target_innered (join : Join) : join.innered.target = join.target := rfl

theorem partners_innered (join : Join) (row : Row α) :
    join.innered.partners I db row = join.matching I db row := by
  rw [partners, if_neg fun h => JoinKind.noConfusion h.1]
  rfl

/-! ## Nothing is missing -/

/-- Inner joins leave no record missing, if their conditions need it. -/
theorem ne_missing_of_mem_extendAll (hneeds : ∀ join ∈ joins, join.on.NeedsRow join.target)
    (hnodup : (joins.map target).Nodup) (h : result ∈ extendAll I db (joins.map innered) row) :
    ∀ join ∈ joins, result join.target ≠ Record.missing := by
  induction joins generalizing row with
  | nil => exact List.forall_mem_nil _
  | cons first rest ih =>
    obtain ⟨hfirst, hrest⟩ := List.nodup_cons.mp hnodup
    obtain ⟨middle, hmiddle, hresult⟩ := Multiset.mem_bind.mp h
    refine List.forall_mem_cons.mpr ⟨?_, ih (fun join hjoin => hneeds join
      (List.mem_cons_of_mem _ hjoin)) hrest hresult⟩
    obtain ⟨record, hrecord, rfl⟩ := Multiset.mem_map.mp hmiddle
    rw [partners_innered] at hrecord
    have hholds := (Multiset.mem_filter.mp hrecord).2
    -- The joins behind the first have other targets and leave its record alone.
    have hkept : result first.target = record := by
      rw [apply_of_mem_extendAll hresult (by simpa [Function.comp_def] using hfirst),
        target_innered, Function.update_self]
    rw [hkept]
    intro hmissing
    refine hneeds first (List.mem_cons_self ..) I _ ?_ hholds
    rw [Function.update_self, hmissing]

/-- **Inner joins leave the rows in which nothing is missing.** -/
theorem filter_extendAll_innered (hneeds : ∀ join ∈ joins, join.on.NeedsRow join.target)
    (hnodup : (joins.map target).Nodup) {keep : Row α → Prop} [DecidablePred keep]
    [DecidablePred fun row => (∀ join ∈ joins, row join.target ≠ Record.missing) ∧ keep row]
    (row : Row α) :
    (extendAll I db (joins.map innered) row).filter keep
      = (extendAll I db joins row).filter fun row =>
          (∀ join ∈ joins, row join.target ≠ Record.missing) ∧ keep row := by
  have hstrengthens : List.Forall₂
      (Strengthens fun row => (∀ join ∈ joins, row join.target ≠ Record.missing) ∧ keep row)
      (joins.map innered) joins := by
    refine List.forall₂_map_left_iff.mpr (List.forall₂_same.mpr fun join hjoin => ⟨rfl, rfl, ?_⟩)
    exact .inr ⟨rfl, fun row hkeep => hkeep.1 join hjoin⟩
  rw [← filter_extendAll_of_weaker hstrengthens hnodup]
  refine Multiset.filter_congr fun result hresult => ?_
  rw [and_iff_right (ne_missing_of_mem_extendAll hneeds hnodup hresult)]

/-! ## One match at most -/

variable (I db) in
/-- Each of some joins, made one after the other, matches at most one record. -/
def MatchesAtMostOne : List Join → Row α → Prop
  | [], _ => True
  | join :: rest, row => (join.matching I db row).card ≤ 1 ∧
      ∀ record ∈ join.matching I db row,
        MatchesAtMostOne rest (Function.update row join.target record)

/-- **What comes of a row in which everything is matched is one row**, whatever the kinds of the
joins. -/
theorem extendAll_eq_singleton (hone : MatchesAtMostOne I db joins row)
    (h : result ∈ extendAll I db (joins.map innered) row) :
    extendAll I db joins row = {result} := by
  induction joins generalizing row with
  | nil => rw [Multiset.mem_singleton.mp h, extendAll]
  | cons join rest ih =>
    obtain ⟨hcard, hlater⟩ := hone
    obtain ⟨middle, hmiddle, hresult⟩ := Multiset.mem_bind.mp h
    obtain ⟨record, hrecord, rfl⟩ := Multiset.mem_map.mp hmiddle
    rw [partners_innered] at hrecord
    have hmatching : join.matching I db row = {record} := by
      obtain ⟨others, hothers⟩ := Multiset.exists_cons_of_mem hrecord
      rw [hothers, Multiset.card_cons] at hcard
      have hnone : others = 0 := Multiset.card_eq_zero.mp (by omega)
      rw [hothers, hnone]
      rfl
    -- A match was found, so the kind of the join does not matter.
    have hpartners : join.partners I db row = {record} := by
      rw [partners, hmatching, if_neg fun h => absurd h.2 (by simp)]
    rw [extendAll, extend, hpartners, Multiset.map_singleton, Multiset.singleton_bind]
    exact ih (hlater record hrecord) hresult

/-- **Local joins match at most one record** if each of them does by itself. -/
theorem matchesAtMostOne_of_local {base : String} (hlocal : ∀ join ∈ joins, join.Local base)
    (hbase : base ∉ joins.map target) (hone : ∀ join ∈ joins, (join.matching I db row).card ≤ 1) :
    MatchesAtMostOne I db joins row := by
  induction joins generalizing row with
  | nil => trivial
  | cons first rest ih =>
    rw [List.map_cons, List.mem_cons, not_or] at hbase
    refine ⟨hone first (List.mem_cons_self ..), fun record _ => ?_⟩
    refine ih (fun join hjoin => hlocal join (List.mem_cons_of_mem _ hjoin)) hbase.2 ?_
    intro join hjoin
    rw [matching_update (hlocal join (List.mem_cons_of_mem _ hjoin)) (Ne.symm hbase.1)]
    exact hone join (List.mem_cons_of_mem _ hjoin)

end Join

namespace Query

variable {q q' : Query}

/-! ## Whole queries -/

/-- **A query with inner joins has the rows in which nothing is missing**, of those that joins of any
kind make. -/
theorem rows_innered (hsource : q'.source = q.source) (hjoins : q'.joins = q.joins.map Join.innered)
    (hneeds : ∀ join ∈ q.joins, join.on.NeedsRow join.target)
    (hnodup : (q.joins.map Join.target).Nodup)
    [DecidablePred fun row => (∀ join ∈ q.joins, row join.target ≠ Record.missing) ∧
      q'.keeps I row] :
    q'.rows I db = ((q.sourceRows db).bind (Join.extendAll I db q.joins)).filter fun row =>
      (∀ join ∈ q.joins, row join.target ≠ Record.missing) ∧ q'.keeps I row := by
  have hrows : q'.sourceRows db = q.sourceRows db := by
    rw [sourceRows, sourceRows, hsource]
  rw [rows, hrows, hjoins, Multiset.filter_bind, Multiset.filter_bind]
  exact Multiset.bind_congr fun row _ => Join.filter_extendAll_innered hneeds hnodup row

variable (I db) in
/-- A query selects a record of its source if it keeps a row that comes of it. -/
def Selects (q : Query) (record : Record α) : Prop :=
  ∃ table ∈ q.source, record ∈ db table.table ∧
    ∃ row ∈ Join.extendAll I db q.joins (.single table.referenceName record), q.keeps I row

/-- **Conditions that exclude each other select different records.** -/
theorem not_selects_both {table : TableRef} (hsource : q.source = some table)
    (hsource' : q'.source = q.source) (hjoins : q'.joins = q.joins.map Join.innered)
    (hexclude : ∀ row : Row α, q.keeps I row → ¬q'.keeps I row) {record : Record α}
    (hone : Join.MatchesAtMostOne I db q.joins (.single table.referenceName record)) :
    ¬(q.Selects I db record ∧ q'.Selects I db record) := by
  rintro ⟨⟨_, htable, -, row, hrow, hkeeps⟩, ⟨_, htable', -, row', hrow', hkeeps'⟩⟩
  rw [hsource, Option.mem_some_iff] at htable
  rw [hsource', hsource, Option.mem_some_iff] at htable'
  subst htable htable'
  rw [hjoins] at hrow'
  rw [Join.extendAll_eq_singleton hone hrow', Multiset.mem_singleton] at hrow
  rw [hrow] at hkeeps
  exact hexclude row' hkeeps hkeeps'

end Query

end LocalizedQuery
