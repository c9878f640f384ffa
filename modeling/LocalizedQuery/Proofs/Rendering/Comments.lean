import LocalizedQuery.Proofs.Predicate.Reading
import LocalizedQuery.Proofs.Rendering.Scanner
import LocalizedQuery.Proofs.Rendering.Search
import LocalizedQuery.Proofs.Results

/-!
# Comments in what is rendered

The text of an expression without calls opens a comment exactly where a minus sign has an operand
that is written with a minus sign itself: another negation, or a negative number. Such an operand
does not count as one that binds loosely, so that nothing stands between the two signs, and `-(-a)`
is written as `--"a"`.

Everything else keeps signs apart. Behind a token there is a separator unless the token is one or is
a minus sign (`Expr.parted_tokens`), so that what is read of a text goes token by token
(`Token.opensComment_join`), and two signs in a row are two neighbours among the tokens. Where those
come from is then a search through the expression (`Search`).

## Main results

* `Expr.parted_tokens` — separators stand between tokens
* `Token.opensComment_join` — comments are made by neighbours
* `Expr.opensComment_iff` — which expressions open a comment
-/

namespace LocalizedQuery

variable {d : Dialect}

namespace Token

/-- One of two neighbours is a separator, or the first is a minus sign. -/
def Parted (token next : Token) : Prop :=
  token.separates = true ∨ next.separates = true ∨ token = .minus

/-- Two neighbours that are not both minus signs. -/
def Silent (token next : Token) : Prop := token = .minus → next.isSigned = false

variable {token before : Token} {text : String}

/-! ## Comments are made by neighbours -/

theorem placeBehind_of_separates (h : token.separates = true) :
    token.placeBehind d = .outside false := by
  cases token <;> simp_all [separates, placeBehind]

/-- A separator is read alike outside of quotes and behind a closing quote. -/
theorem passes_separator (htoken : token.separates = true) (h : token.write d = .ok text) :
    Passes d (before.placeBehind d) text.toList (.outside false) := by
  cases token with
  | space | comma | dot | lparen | rparen =>
    cases h
    cases before <;> cases d <;> exact ⟨rfl, rfl⟩
  | _ => cases htoken

/-- What the text of a token does behind its neighbour. -/
theorem passes_next (hparted : Parted before token) (hsilent : Silent before token)
    (htoken : token.isInner = true) (h : token.write d = .ok text) :
    Passes d (before.placeBehind d) text.toList (token.placeBehind d) := by
  rcases hparted with hbefore | hnext | rfl
  · rw [placeBehind_of_separates hbefore]
    exact passes_write htoken h
  · rw [placeBehind_of_separates hnext]
    exact passes_separator hnext h
  · exact passes_write_behindMinus htoken h (hsilent rfl)

/-- **Comments are made by neighbours,** in a list of tokens behind another token. -/
theorem opensComment_join {tokens : List Token} {texts : List String}
    (hinner : ∀ token ∈ tokens, token.isInner = true)
    (hparted : (before :: tokens).IsChain Parted) (h : tokens.mapM (write d) = .ok texts) :
    opensComment d (before.placeBehind d) (texts.flatMap String.toList) = true ↔
      ¬ (before :: tokens).IsChain Silent := by
  induction tokens generalizing before texts with
  | nil =>
    rw [List.mapM_nil, pure_eq_ok] at h
    simp [← h, opensComment]
  | cons token rest ih =>
    rw [List.mapM_cons] at h
    obtain ⟨text, htext, h⟩ := bind_eq_ok.mp h
    obtain ⟨others, hothers, h⟩ := bind_eq_ok.mp h
    rw [pure_eq_ok] at h
    subst h
    rw [List.isChain_cons_cons] at hparted
    have htoken := hinner token List.mem_cons_self
    have hrest := ih (fun other hother => hinner other (List.mem_cons_of_mem _ hother))
      hparted.2 hothers
    rw [List.flatMap_cons, opensComment_append, List.isChain_cons_cons]
    by_cases hsilent : Silent before token
    · obtain ⟨hopens, hleads⟩ := passes_next hparted.1 hsilent htoken htext
      rw [hopens, hleads, Bool.false_or, hrest]
      simp [hsilent]
    · simp only [Silent, Classical.not_imp, Bool.not_eq_false] at hsilent
      obtain ⟨rfl, hsigned⟩ := hsilent
      rw [placeBehind, opensComment_write htoken htext hsigned]
      simp [Silent, hsigned]

end Token

/-! ## Expressions -/

namespace Expr

open Token

/-- No function is called anywhere in the expression. -/
def CallFree (e : Expr) : Prop :=
  e.Everywhere fun part => ∀ function args, part ≠ .call function args

/-- Whether what is written for an operand starts with a minus sign: it is a negation or a negative
number. -/
def isSigned : Expr → Bool
  | .unary .minus _ => true
  | .literal l => l.token.isSigned
  | _ => false

variable {e : Expr}

/-- The first token of what binds tightly. -/
theorem exists_tokens_eq (h : 7 ≤ e.precedence) :
    ∃ token rest, e.tokens d = token :: rest ∧ token.isSigned = e.isSigned := by
  have hname : ∀ (table : Option String) (last : Token), last.isSigned = false →
      ∃ token rest, nameTokens table last = token :: rest ∧ token.isSigned = false := by
    intro table last hlast
    cases table with
    | none => exact ⟨last, [], rfl, hlast⟩
    | some table => exact ⟨.name table, _, rfl, rfl⟩
  cases e with
  | column table name => exact hname table (.name name) rfl
  | localized ref => exact hname (some ref.table) (.name ref.column) rfl
  | star table => exact hname table .star rfl
  | literal l => exact ⟨l.token, [], rfl, rfl⟩
  | unary op e =>
    cases op with
    | not => exact absurd h (by simp [precedence])
    | minus => exact ⟨.minus, _, rfl, rfl⟩
  | binary op left right =>
    have hop : op.precedence < 7 := by cases op <;> decide
    exact absurd h (Nat.not_le_of_lt hop)
  | inList | between | isNull => exact absurd h (by simp [precedence])
  | call function args => exact ⟨.function function, _, rfl, rfl⟩
  | caseOf operand branches otherwise => exact ⟨.keyword .caseOf, _, rfl, rfl⟩
  | paren e => exact ⟨.lparen, _, rfl, rfl⟩

theorem precedence_of_isSigned (h : e.isSigned = true) : 7 ≤ e.precedence := by
  cases e with
  | literal => simp [precedence]
  | unary op e => cases op <;> simp_all [isSigned, precedence]
  | _ => cases h

/-- **Separators stand between tokens,** except behind a minus sign. -/
theorem parted_tokens (d : Dialect) (e : Expr) : (e.tokens d).IsChain Parted := by
  have hsearch : Search d (fun ts => ¬ ts.IsChain Parted) fun _ => False :=
    .ofNeighbours (fun token htoken other => .inl htoken)
      (fun token htoken other => .inr (.inl htoken))
      (fun e _ => by simp [Parted]) (fun e _ => not_false)
  by_contra hfound
  obtain ⟨part, -, hsource⟩ := (hsearch.found_iff e).mp hfound
  cases hsource with
  | literal hl => exact hl (.singleton _)
  | call hcall => exact hcall (.singleton _)
  | minus hsign => exact hsign

theorem inner_tokens (h : e.CallFree) (d : Dialect) :
    ∀ token ∈ e.tokens d, token.isInner = true := by
  have hplain : ∀ token : Token, token.isPlain = true → ¬ token.isInner = false := by
    intro token htoken
    cases token <;> simp_all [isPlain, isInner, isFixed]
  have hsearch := Search.ofToken (d := d) hplain
  by_contra hother
  obtain ⟨part, hpart, hsource⟩ := (hsearch.found_iff e).mp (by simpa using hother)
  cases hsource with
  | @literal l hl =>
    obtain ⟨token, htoken, hinner⟩ := hl
    rw [List.mem_singleton.mp htoken] at hinner
    cases l <;> cases hinner
  | call => exact h _ hpart.isPart _ _ rfl
  | minus hsign => exact hsign

/-- Two minus signs in a row come from an operand with a sign. -/
theorem not_silent_iff :
    ¬ (e.tokens d).IsChain Silent ↔ ∃ x, (unary .minus x).IsShown e ∧ x.isSigned = true := by
  have hsearch : Search d (fun ts => ¬ ts.IsChain Silent) fun x => x.isSigned = true := by
    refine .ofNeighbours (fun token htoken other => ?_) (fun token htoken other => ?_)
      (fun x hx => ?_) (fun x hx => ?_)
    · rintro rfl
      cases htoken
    · intro _
      cases token <;> first | rfl | cases htoken
    · obtain ⟨token, rest, htokens, hsigned⟩ := exists_tokens_eq (d := d) hx
      simp [htokens, Silent, hsigned]
    · exact fun hsigned => absurd (precedence_of_isSigned hsigned) (Nat.not_le_of_lt hx)
  rw [hsearch.found_iff]
  constructor
  · rintro ⟨part, hpart, hsource⟩
    cases hsource with
    | literal hl => exact absurd (.singleton _) hl
    | call hcall => exact absurd (.singleton _) hcall
    | @minus x hsign => exact ⟨x, hpart, hsign⟩
  · rintro ⟨x, hx, hsigned⟩
    exact ⟨_, hx, .minus hsigned⟩

/-- **Which expressions open a comment:** of those without calls, the ones with a minus sign before
an operand that is written with a minus sign itself. -/
theorem opensComment_iff (hcalls : e.CallFree) {text : String} (h : e.toSql d = .ok text) :
    opensComment d (.outside false) text.toList = true ↔
      ∃ x, (unary .minus x).IsShown e ∧ x.isSigned = true := by
  obtain ⟨texts, htexts, rfl⟩ := map_eq_ok.mp h
  -- A text is read from outside of quotes, as it is behind a space.
  have hparted : (Token.space :: e.tokens d).IsChain Parted :=
    List.isChain_cons.mpr ⟨fun _ _ => .inl rfl, e.parted_tokens d⟩
  have hjoin : opensComment d (Token.space.placeBehind d) (texts.flatMap String.toList) = true ↔
      ¬ (Token.space :: e.tokens d).IsChain Silent :=
    opensComment_join (inner_tokens hcalls d) hparted htexts
  rw [String.toList_join, ← not_silent_iff (d := d)]
  refine hjoin.trans ?_
  simp [List.isChain_cons, Silent]

/-- Parentheses keep two minus signs apart. -/
theorem parenthesized_number_silent :
    (unary .minus (.paren (.literal (.int (-1))))).toSql .postgres = .ok "-(-1)" ∧
      opensComment .postgres (.outside false) "-(-1)".toList = false := by
  have hcalls : (unary .minus (.paren (.literal (.int (-1))))).CallFree := by
    rw [CallFree, everywhere_iff, children, List.forall_mem_singleton, everywhere_iff, children,
      List.forall_mem_singleton, everywhere_iff, children]
    simp
  have htext : (unary .minus (.paren (.literal (.int (-1))))).toSql .postgres = .ok "-(-1)" := by
    decide +kernel
  refine ⟨htext, Bool.eq_false_iff.mpr fun hopens => ?_⟩
  obtain ⟨x, hx, hsigned⟩ := (opensComment_iff hcalls htext).mp hopens
  cases hx with
  | here => cases hsigned
  | under hparen hx =>
    rw [List.mem_singleton.mp hparen] at hx
    cases hx with
    | under hnumber hx =>
      rw [List.mem_singleton.mp hnumber] at hx
      cases hx with
      | under hnone => cases hnone

/-- A negation of a negation opens a comment, whether it is put together by hand or read from a
text. -/
theorem negated_negation_opensComment :
    parsePredicate (fun _ => none) "a = - -b" = .ok
        ((column none "a").equals (.unary .minus (.unary .minus (.column none "b")))) ∧
      ((column none "a").equals (.unary .minus (.unary .minus (.column none "b")))).toSql .postgres
        = .ok "\"a\" = --\"b\"" ∧
      opensComment .postgres (.outside false) "\"a\" = --\"b\"".toList = true := by
  have htree : Tree.ofText "a = - -b" = .ok (.binary (.name ⟨"a", none⟩) (.known .eq)
      (.signed .minus (.signed .minus (.name ⟨"b", none⟩)))) := by
    decide +kernel
  refine ⟨?_, by decide +kernel, by decide +kernel⟩
  rw [parsePredicate_of_tree htree]
  rfl

end Expr

end LocalizedQuery
