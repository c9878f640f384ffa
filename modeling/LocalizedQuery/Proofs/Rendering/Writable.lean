import LocalizedQuery.Proofs.Rendering.Search
import LocalizedQuery.Proofs.Results
import LocalizedQuery.Sql.Query

/-!
# What can be written

A token can be written in every dialect unless it is a double that is no real number, and the
doubles among the tokens of an expression are the literals that it shows. So it is seen from an
expression, or from the expressions of a query, whether there is a text for it.

## Main results

* `Expr.float_mem_tokens` — the doubles that are written are literals
* `Expr.toSql_ok_iff`, `Query.toSql_ok_iff` — when expressions and queries have a text
-/

namespace LocalizedQuery

variable {d : Dialect}

namespace Token

theorem write_ok_iff {token : Token} :
    (∃ text, token.write d = .ok text) ↔ ∀ x, token = .float x → x.isFinite = true := by
  cases token with
  | float x => cases x <;> simp [write, writeDouble, Double.isFinite]
  | _ => simp [write]

/-- A list of tokens can be written unless one of its doubles cannot. -/
theorem writeAll_ok_iff {tokens : List Token} :
    (∃ text, writeAll d tokens = .ok text) ↔ ∀ x, .float x ∈ tokens → x.isFinite = true := by
  have hwrite : (∃ text, writeAll d tokens = .ok text) ↔
      ∀ token ∈ tokens, ∃ text, token.write d = .ok text := by
    constructor
    · rintro ⟨text, h⟩ token htoken
      obtain ⟨texts, htexts, -⟩ := map_eq_ok.mp h
      exact ok_of_mapM_eq_ok htexts htoken
    · intro h
      obtain ⟨texts, htexts⟩ := mapM_ok h
      exact ⟨_, map_eq_ok.mpr ⟨texts, htexts, rfl⟩⟩
  rw [hwrite]
  simp only [write_ok_iff]
  exact ⟨fun h x hx => h _ hx x rfl, fun h token htoken x hx => h x (hx ▸ htoken)⟩

end Token

/-! ## Expressions -/

namespace Expr

/-- **The doubles that are written are literals.** -/
theorem float_mem_tokens {x : Double} {e : Expr} :
    .float x ∈ e.tokens d ↔ (literal (.float x)).IsShown e := by
  have hplain : ∀ token : Token, token.isPlain = true → token ≠ .float x := by
    rintro token htoken rfl
    cases htoken
  have hfound := (Search.ofToken (d := d) hplain).found_iff e
  simp only [exists_eq_right] at hfound
  rw [hfound]
  constructor
  · rintro ⟨part, hpart, hsource⟩
    cases hsource with
    | @literal l hl =>
      cases l <;> simp_all [Literal.token]
    | call hcall => simp at hcall
    | minus hsign => exact hsign.elim
  · intro hpart
    exact ⟨_, hpart, .literal (List.mem_singleton_self _)⟩

/-- **When an expression has a text.** -/
theorem toSql_ok_iff {e : Expr} :
    (∃ text, e.toSql d = .ok text) ↔
      ∀ x, (literal (.float x)).IsShown e → x.isFinite = true := by
  rw [toSql, Token.writeAll_ok_iff]
  simp only [float_mem_tokens]

end Expr

/-! ## Queries -/

namespace Query

/-- The expressions that a query consists of: what it selects, the conditions of its joins and its
condition. -/
def expressions (q : Query) : List Expr :=
  q.select ++ q.joins.map Join.on ++ q.condition.toList

theorem float_mem_selectTokens {x : Double} (select : List Expr) :
    .float x ∈ selectTokens d select ↔ ∃ e ∈ select, .float x ∈ e.tokens d := by
  induction select with
  | nil => simp [selectTokens]
  | cons e rest ih =>
    cases rest with
    | nil => simp [selectTokens]
    | cons next rest =>
      simp only [selectTokens, List.map_cons, List.intersperse_cons_cons, List.flatten_cons,
        List.mem_append] at ih ⊢
      rw [ih]
      simp

theorem float_not_mem_tableTokens (x : Double) (table : TableRef) :
    .float x ∉ tableTokens table := by
  cases h : table.alias? <;> simp [tableTokens, h]

theorem float_mem_joinTokens {x : Double} {join : Join} :
    .float x ∈ joinTokens d join ↔ .float x ∈ join.on.tokens d := by
  cases h : join.kind <;> simp [joinTokens, kindTokens, h, float_not_mem_tableTokens]

/-- The doubles of a query are those of its expressions. -/
theorem float_mem_tokens {x : Double} {q : Query} :
    .float x ∈ q.tokens d ↔ ∃ e ∈ q.expressions, .float x ∈ e.tokens d := by
  rcases q with ⟨select, source, joins, condition⟩
  cases source <;> cases condition <;>
    simp [tokens, expressions, float_mem_selectTokens, float_not_mem_tableTokens,
      float_mem_joinTokens, or_and_right, exists_or]

/-- **When a query has a text.** -/
theorem toSql_ok_iff {q : Query} :
    (∃ text, q.toSql d = .ok text) ↔
      ∀ e ∈ q.expressions, ∀ x, (Expr.literal (.float x)).IsShown e → x.isFinite = true := by
  rw [toSql, Token.writeAll_ok_iff]
  simp only [float_mem_tokens, Expr.float_mem_tokens]
  exact ⟨fun h e he x hx => h x ⟨e, he, hx⟩, fun h x ⟨e, he, hx⟩ => h e he x hx⟩

end Query

end LocalizedQuery
