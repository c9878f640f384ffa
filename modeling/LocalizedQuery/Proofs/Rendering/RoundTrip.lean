import LocalizedQuery.Proofs.Rendering.Reader
import LocalizedQuery.Proofs.Rendering.Written

/-!
# Reading what is rendered

The tokens of a formula, read by the grammar of `Reading`, denote exactly what they spell out
(`Expr.written`).

An expression can be read in two places. By itself it is read up to a link that binds looser
(`Reading.Alone`). Behind an operator it is not read as a whole unless it binds tighter: the
operator takes what stands at its left end, and the links behind that continue the result
(`Reading.Continues`). `Reading.Reads` is both, and there is one lemma for every way to build a
formula. All that continue an expression (operators and tests) are cases of `Reads.append`.

## Main results

* `Reading.link?_token` — the levels of the grammar are the precedences of the operators
* `Reading.Reads.binary` and its siblings — one for each way to build a formula
* `Reading.ofTokens_tokens` — what is rendered is read back as `Expr.written`
-/

namespace LocalizedQuery

theorem Expr.one_le_precedence (e : Expr) : 1 ≤ e.precedence := by
  cases e with
  | binary op left right => cases op <;> simp [precedence, BinaryOperator.precedence]
  | unary op e => cases op <;> simp [precedence]
  | _ => simp [precedence]

namespace Reading

open LocalizedQuery.Expr (graft)

variable {fuel least level : Nat} {left e : Expr} {op : BinaryOperator} {link : Link}
  {ts rest : List Token}

/-! ## Links -/

/-- The levels of the grammar are the precedences of the operators. -/
theorem link?_token (hop : op ≠ .concat) (rest : List Token) :
    link? (op.token :: rest) = some (.operator op op.precedence, rest) := by
  cases op with
  | concat => exact absurd rfl hop
  | _ => rfl

/-- Nothing continues an expression on the level of `NOT`. -/
theorem level_ne_three (h : link? ts = some (link, rest)) : link.level ≠ 3 := by
  unfold link? at h
  split at h
  case h_7 token rest _ _ _ _ _ _ =>
    obtain ⟨link', hlink, hpair⟩ := Option.map_eq_some_iff.mp h
    cases hpair
    unfold operator? at hlink
    split at hlink <;> cases hlink <;> decide
  all_goals cases h <;> decide

/-- What may stand behind an expression of some level: no link that binds tighter, and no dot, which
would make a qualifier of the name before it. -/
structure Follows (level : Nat) (rest : List Token) : Prop where
  loose : ∀ link behind, link? rest = some (link, behind) → link.level ≤ level
  noDot : ∀ behind, rest ≠ .dot :: behind

theorem Follows.mono {level' : Nat} (h : Follows level rest) (hle : level ≤ level') :
    Follows level' rest :=
  ⟨fun link behind hlink => (h.loose link behind hlink).trans hle, h.noDot⟩

/-- What is no link continues no expression. -/
theorem Follows.of_link?_eq_none (h : link? rest = none) (hdot : ∀ behind, rest ≠ .dot :: behind) :
    Follows 0 rest :=
  ⟨fun link behind hlink => by simp [h] at hlink, hdot⟩

theorem Follows.nil : Follows 0 [] := .of_link?_eq_none rfl fun _ h => by cases h

theorem Follows.comma (rest : List Token) : Follows 0 (.comma :: rest) :=
  .of_link?_eq_none rfl fun _ h => by cases h

theorem Follows.rparen (rest : List Token) : Follows 0 (.rparen :: rest) :=
  .of_link?_eq_none rfl fun _ h => by cases h

theorem Follows.of_link?_eq_some (h : link? ts = some (link, rest)) (hle : link.level ≤ level) :
    Follows level ts := by
  refine ⟨fun link' behind hlink => ?_, fun behind hdot => ?_⟩
  · rw [h] at hlink
    cases hlink
    exact hle
  · rw [hdot] at h
    cases h

theorem Follows.token (op : BinaryOperator) (hop : op ≠ .concat) (rest : List Token) :
    Follows op.precedence (op.token :: rest) :=
  .of_link?_eq_some (link?_token hop rest) le_rfl

/-- A looser link ends an expression. -/
theorem continued_eq_some (h : Follows level rest) (hlevel : level < least) :
    continued (fuel + 1) least left rest = some (left, rest) := by
  rw [continued]
  split
  next => rfl
  next link behind hlink => exact if_pos ((h.loose link behind hlink).trans_lt hlevel)

/-- A link that binds tightly enough continues an expression. -/
theorem continued_link {behind : List Token} (hlink : link? ts = some (link, rest))
    (hleast : least ≤ link.level)
    (hlinked : linked (expression fuel) (values fuel) left link rest = some (e, behind)) :
    continued (fuel + 1) least left ts = continued fuel least e behind := by
  rw [continued, hlink]
  simp only [Nat.not_lt.mpr hleast, if_false, hlinked]

/-! ## Expressions among other tokens -/

/-- Some tokens are read as `e`, whatever looser stands behind them. -/
def Alone (ts : List Token) (e : Expr) : Prop :=
  ∀ fuel least rest, least ≤ e.precedence → Follows e.precedence rest →
    (ts ++ rest).length < fuel → ∃ fuel', rest.length < fuel' ∧
      expression fuel least (ts ++ rest) = continued fuel' least e rest

/-- Some tokens continue any expression, on some level, to what `wrap` makes of it. -/
def Continues (level : Nat) (ts : List Token) (wrap : Expr → Expr) : Prop :=
  ∀ fuel least left rest, least ≤ level → Follows level rest → (ts ++ rest).length < fuel →
    ∃ fuel', rest.length < fuel' ∧
      continued fuel least left (ts ++ rest) = continued fuel' least (wrap left) rest

/-- Some tokens are read as `e`, by themselves and behind an operator. -/
structure Reads (ts : List Token) (e : Expr) : Prop where
  alone : Alone ts e
  right : ∀ op : BinaryOperator, op ≠ .concat → op.precedence ≤ e.precedence →
    Continues op.precedence (op.token :: ts) (graft op · e)

/-- An expression ends before a link that is looser than its place asks for. -/
theorem Alone.expression_eq (h : Alone ts e) (hleast : least ≤ e.precedence)
    (hrest : Follows level rest) (hlevel : level < least) (hfuel : (ts ++ rest).length < fuel) :
    expression fuel least (ts ++ rest) = some (e, rest) := by
  obtain ⟨fuel', hfuel', hread⟩ := h fuel least rest hleast (hrest.mono (by omega)) hfuel
  obtain ⟨fuel', rfl⟩ := Nat.exists_eq_add_one.mpr (Nat.zero_lt_of_lt hfuel')
  rw [hread, continued_eq_some hrest hlevel]

/-- In parentheses, in a list and at the end of everything an expression is read as a whole. -/
theorem Alone.expression_whole (h : Alone ts e) (hrest : Follows 0 rest)
    (hfuel : (ts ++ rest).length < fuel) : expression fuel 1 (ts ++ rest) = some (e, rest) :=
  h.expression_eq e.one_le_precedence hrest Nat.one_pos hfuel

/-- An operand is read by itself, and then what continues it. -/
theorem Alone.of_operand
    (h : ∀ fuel least rest, least ≤ e.precedence → Follows e.precedence rest →
      (ts ++ rest).length ≤ fuel →
        operand (expression fuel) least (ts ++ rest) = some (e, rest) ∧ rest.length < fuel) :
    Alone ts e := by
  intro fuel least rest hleast hrest hfuel
  obtain ⟨fuel, rfl⟩ := Nat.exists_eq_add_one.mpr (Nat.zero_lt_of_lt hfuel)
  obtain ⟨hoperand, hlength⟩ := h fuel least rest hleast hrest (by omega)
  exact ⟨fuel, hlength, by rw [expression, hoperand]⟩

/-- What binds tighter than an operator is its right operand as a whole. -/
theorem Alone.continues (h : Alone ts e) (hop : op ≠ .concat) (hlt : op.precedence < e.precedence) :
    Continues op.precedence (op.token :: ts) (graft op · e) := by
  intro fuel least left rest hleast hrest hfuel
  obtain ⟨fuel, rfl⟩ := Nat.exists_eq_add_one.mpr (Nat.zero_lt_of_lt hfuel)
  simp only [List.cons_append, List.length_cons, List.length_append] at hfuel
  have hright : expression fuel (op.precedence + 1) (ts ++ rest) = some (e, rest) :=
    h.expression_eq hlt hrest (Nat.lt_succ_self _) (by simp only [List.length_append]; omega)
  refine ⟨fuel, by omega, ?_⟩
  calc continued (fuel + 1) least left (op.token :: ts ++ rest)
      = continued fuel least (.binary op left e) rest :=
        continued_link (link?_token hop (ts ++ rest)) hleast
          (by simp only [linked, hright, Option.map_some])
    _ = continued fuel least (graft op left e) rest := by rw [Expr.graft_of_lt hlt]

/-- What is on the level of no operator binds tighter than any that may stand before it. -/
theorem Alone.reads (h : Alone ts e)
    (hlevel : ∀ op : BinaryOperator, op.precedence ≠ e.precedence) : Reads ts e :=
  ⟨h, fun op hop hle => h.continues hop (lt_of_le_of_ne hle (hlevel op))⟩

/-- **Continuing an expression.** Some tokens that continue an expression on their level are read as
part of it, and behind an operator of the same level they continue the result of that. -/
theorem Reads.append {more : List Token} (wrap : Expr → Expr) (h : Reads ts e)
    (hlevel : level ≤ e.precedence) (hstart : ∀ rest, Follows level (more ++ rest))
    (hmore : Continues level more wrap) (hwrap : (wrap e).precedence = level)
    (hgraft : ∀ op left, op.precedence = level → graft op left (wrap e) = wrap (graft op left e)) :
    Reads (ts ++ more) (wrap e) := by
  have halone : Alone (ts ++ more) (wrap e) := by
    intro fuel least rest hleast hrest hfuel
    rw [hwrap] at hleast hrest
    rw [List.append_assoc] at hfuel ⊢
    obtain ⟨fuel₁, hfuel₁, hread₁⟩ :=
      h.alone fuel least (more ++ rest) (by omega) ((hstart rest).mono hlevel) hfuel
    obtain ⟨fuel₂, hfuel₂, hread₂⟩ := hmore fuel₁ least e rest hleast hrest hfuel₁
    exact ⟨fuel₂, hfuel₂, hread₁.trans hread₂⟩
  refine ⟨halone, fun op hop hle => ?_⟩
  rcases hle.lt_or_eq with hlt | heq
  · exact halone.continues hop hlt
  · rw [hwrap] at heq
    intro fuel least left rest hleast hrest hfuel
    rw [← List.cons_append, List.append_assoc] at hfuel ⊢
    obtain ⟨fuel₁, hfuel₁, hread₁⟩ := h.right op hop (by omega) fuel least left (more ++ rest)
      hleast (heq ▸ hstart rest) hfuel
    obtain ⟨fuel₂, hfuel₂, hread₂⟩ :=
      hmore fuel₁ least (graft op left e) rest (by omega) (heq ▸ hrest) hfuel₁
    refine ⟨fuel₂, hfuel₂, ?_⟩
    calc continued fuel least left (op.token :: ts ++ (more ++ rest))
        = continued fuel₁ least (graft op left e) (more ++ rest) := hread₁
      _ = continued fuel₂ least (wrap (graft op left e)) rest := hread₂
      _ = continued fuel₂ least (graft op left (wrap e)) rest := by rw [hgraft op left heq]

/-! ## One lemma for each form -/

theorem precedence_ne_eight (op : BinaryOperator) : op.precedence ≠ 8 := by
  cases op <;> decide

theorem precedence_ne_three (op : BinaryOperator) : op.precedence ≠ 3 := by
  cases op <;> decide

theorem reads_column (table : Option String) (name : String) :
    Reads (Expr.nameTokens table (.name name)) (.column table name) := by
  refine (Alone.of_operand fun fuel least rest hleast hrest hfuel => ?_).reads precedence_ne_eight
  cases table with
  | some table =>
    refine ⟨rfl, ?_⟩
    simp [Expr.nameTokens] at hfuel
    omega
  | none =>
    refine ⟨?_, by simpa [Expr.nameTokens, Nat.succ_le_iff] using hfuel⟩
    cases rest with
    | nil => rfl
    | cons token rest =>
      cases token with
      | dot => exact absurd rfl (hrest.noDot rest)
      | _ => rfl

/-- A token that is an operand by itself. -/
theorem reads_token {token : Token} (he : e.precedence = 8)
    (h : ∀ expression least rest, operand expression least (token :: rest) = some (e, rest)) :
    Reads [token] e :=
  (Alone.of_operand fun fuel least rest _ _ hfuel =>
    ⟨h (expression fuel) least rest, by simpa [Nat.succ_le_iff] using hfuel⟩).reads
    fun op => he ▸ precedence_ne_eight op

theorem reads_literal (l : Literal) : Reads [l.token] (.literal l) :=
  reads_token rfl fun _ _ _ => by cases l <;> rfl

/-- The keywords `TRUE` and `FALSE`. -/
theorem reads_truth (b : Bool) :
    Reads [.keyword (if b then .true else .false)] (.literal (.bool b)) :=
  reads_token rfl fun _ _ _ => by cases b <;> rfl

theorem Reads.paren (h : Reads ts e) : Reads (.lparen :: (ts ++ [.rparen])) (.paren e) := by
  refine (Alone.of_operand fun fuel least rest hleast hrest hfuel => ?_).reads precedence_ne_eight
  simp only [List.cons_append, List.append_assoc, List.length_cons, List.length_append,
    List.length_nil] at hfuel
  have hinner : expression fuel 1 (ts ++ .rparen :: rest) = some (e, .rparen :: rest) :=
    h.alone.expression_whole (.rparen rest)
      (by simp only [List.length_append, List.length_cons]; omega)
  refine ⟨?_, by omega⟩
  simp only [List.cons_append, List.append_assoc, List.nil_append, operand, hinner]

theorem Reads.not (h : Reads ts e) (hle : 3 ≤ e.precedence) :
    Reads (.keyword .not :: ts) (.unary .not e) := by
  refine (Alone.of_operand fun fuel least rest hleast hrest hfuel => ?_).reads precedence_ne_three
  simp only [List.cons_append, List.length_cons, List.length_append] at hfuel
  have hloose : Follows 2 rest := by
    refine ⟨fun link behind hlink => ?_, hrest.noDot⟩
    have := hrest.loose link behind hlink
    have := level_ne_three hlink
    simp only [Expr.precedence] at *
    omega
  have hinner : expression fuel 3 (ts ++ rest) = some (e, rest) :=
    h.alone.expression_eq hle hloose (by decide) (by simp only [List.length_append]; omega)
  refine ⟨?_, by omega⟩
  have hleast : least ≤ 3 := hleast
  simp only [List.cons_append, operand, if_pos hleast, hinner, Option.map_some]

/-- An operand in parentheses where its place asks for them. -/
theorem Reads.placed {shape : Expr} (h : Reads ts shape) (least : Nat) (e : Expr) :
    Reads (e.operandTokens least ts) (e.placed least shape) := by
  rw [Expr.operandTokens, Expr.placed]
  split
  · exact h.paren
  · exact h

/-- Operators. The right operand is read as far as it binds tighter. -/
theorem Reads.binary {ts' : List Token} {right : Expr} (hleft : Reads ts left)
    (hright : Reads ts' right) (hop : op ≠ .concat) (hlel : op.precedence ≤ left.precedence)
    (hler : op.precedence ≤ right.precedence) :
    Reads (ts ++ op.token :: ts') (graft op left right) :=
  hleft.append (graft op · right) hlel (fun _ => Follows.token op hop _) (hright.right op hop hler)
    (Expr.precedence_graft hler) fun _ _ hlevel => Expr.graft_graft hlevel.symm

/-- Tests. They stand on one level with the comparisons. -/
theorem Reads.test {more inner : List Token} (wrap : Expr → Expr) (h : Reads ts e)
    (hle : 4 ≤ e.precedence) (hlevel : link.level = 4)
    (hlink : ∀ rest, link? (more ++ rest) = some (link, inner ++ rest))
    (hlinked : ∀ fuel left rest, Follows 4 rest → (more ++ rest).length ≤ fuel →
      linked (expression fuel) (values fuel) left link (inner ++ rest) = some (wrap left, rest))
    (hwrap : (wrap e).precedence = 4)
    (hgraft : ∀ op left, op.precedence = 4 → graft op left (wrap e) = wrap (graft op left e)) :
    Reads (ts ++ more) (wrap e) := by
  have hne : more ≠ [] := by
    rintro rfl
    cases hlink []
  refine h.append wrap hle (fun rest => .of_link?_eq_some (hlink rest) hlevel.le) ?_ hwrap hgraft
  intro fuel least left rest hleast hrest hfuel
  obtain ⟨fuel, rfl⟩ := Nat.exists_eq_add_one.mpr (Nat.zero_lt_of_lt hfuel)
  have hlength := List.length_pos_iff.mpr hne
  have hread := hlinked fuel left rest hrest (Nat.le_of_lt_succ hfuel)
  rw [List.length_append] at hfuel
  exact ⟨fuel, by omega, continued_link (hlink rest) (hlevel ▸ hleast) hread⟩

/-- A test for `NULL`. -/
theorem Reads.isNull (h : Reads ts e) (hle : 4 ≤ e.precedence) (negated : Bool) :
    Reads (ts ++ [.keyword (Expr.nullTest negated)]) (.isNull e negated) := by
  have hlink : ∀ rest, link? ([.keyword (Expr.nullTest negated)] ++ rest)
      = some (.nullTest negated, [] ++ rest) := by
    intro rest
    cases negated <;> rfl
  exact h.test (.isNull · negated) hle rfl hlink (fun _ _ _ _ _ => rfl) rfl
    fun _ _ hlevel => if_pos hlevel

/-- `NOT` before a test that can be negated. -/
def negation (negated : Bool) : List Token := if negated then [.keyword .not] else []

/-- The first `AND` behind `BETWEEN` ends the lower bound, as it binds looser than a bound. -/
theorem Reads.between {tsLow tsHigh : List Token} {low high : Expr} (h : Reads ts e)
    (hlow : Reads tsLow low) (hhigh : Reads tsHigh high) (hle : 4 ≤ e.precedence)
    (hleLow : 5 ≤ low.precedence) (hleHigh : 5 ≤ high.precedence) (negated : Bool) :
    Reads (ts ++ (negation negated ++ .keyword .between :: (tsLow ++ .keyword .and :: tsHigh)))
      (.between e low high negated) := by
  have hlink : ∀ rest,
      link? (negation negated ++ .keyword .between :: (tsLow ++ .keyword .and :: tsHigh) ++ rest)
        = some (.between negated, tsLow ++ .keyword .and :: tsHigh ++ rest) := by
    intro rest
    cases negated <;> simp [negation, link?]
  refine h.test (.between · low high negated) hle rfl hlink (fun fuel left rest hrest hfuel => ?_)
    rfl fun _ _ hlevel => if_pos hlevel
  simp only [List.append_assoc, List.cons_append, List.length_append, List.length_cons] at hfuel ⊢
  have hlower : expression fuel 5 (tsLow ++ .keyword .and :: (tsHigh ++ rest))
      = some (low, .keyword .and :: (tsHigh ++ rest)) :=
    hlow.alone.expression_eq hleLow (Follows.token .and (by decide) _) (by decide)
      (by simp only [List.length_append, List.length_cons]; omega)
  have hupper : expression fuel 5 (tsHigh ++ rest) = some (high, rest) :=
    hhigh.alone.expression_eq hleHigh hrest (by decide)
      (by simp only [List.length_append]; omega)
  simp only [linked, hlower, hupper, Option.map_some]

/-! ### Lists -/

/-- Nothing is read from no tokens. -/
theorem Reads.ne_nil (h : Reads ts e) : ts ≠ [] := by
  rintro rfl
  obtain ⟨fuel, hfuel, hread⟩ := h.alone 1 0 [] (Nat.zero_le _)
    (Follows.nil.mono (Nat.zero_le _)) (by decide)
  obtain ⟨fuel, rfl⟩ := Nat.exists_eq_add_one.mpr (Nat.zero_lt_of_lt hfuel)
  simp [expression, operand, continued, link?] at hread

/-- Values with commas between them. -/
def listed (ts : List Token) (others : List (List Token)) : List Token :=
  ts ++ others.flatMap (.comma :: ·)

theorem listed_cons (ts first : List Token) (others : List (List Token)) :
    listed ts (first :: others) = ts ++ .comma :: listed first others := by
  simp [listed]

theorem values_listed {others : List (List Token)} {es : List Expr} (h : Reads ts e)
    (hothers : List.Forall₂ Reads others es) (fuel : Nat) (rest : List Token)
    (hfuel : (listed ts others ++ .rparen :: rest).length + 1 < fuel) :
    values fuel (listed ts others ++ .rparen :: rest) = some (e :: es, rest) := by
  obtain ⟨fuel, rfl⟩ := Nat.exists_eq_add_one.mpr (Nat.zero_lt_of_lt hfuel)
  induction hothers generalizing ts e fuel with
  | nil =>
    simp only [listed, List.flatMap_nil, List.append_nil] at hfuel ⊢
    have hvalue : expression fuel 1 (ts ++ .rparen :: rest) = some (e, .rparen :: rest) :=
      h.alone.expression_whole (.rparen rest) (by omega)
    simp only [values, hvalue]
  | @cons next e' others es hnext _ ih =>
    rw [listed_cons] at hfuel ⊢
    -- at least one token and the comma are gone before the others are read
    have := List.length_pos_iff.mpr h.ne_nil
    simp only [List.length_append, List.length_cons] at hfuel
    have hvalue : expression fuel 1 (ts ++ .comma :: (listed next others ++ .rparen :: rest))
        = some (e, .comma :: (listed next others ++ .rparen :: rest)) :=
      h.alone.expression_whole (.comma _)
        (by simp only [List.length_append, List.length_cons]; omega)
    obtain ⟨fuel, rfl⟩ := Nat.exists_eq_add_one.mpr (by omega : 0 < fuel)
    have hothers : values (fuel + 1) (listed next others ++ .rparen :: rest)
        = some (e' :: es, rest) :=
      ih hnext fuel (by simp only [List.length_append, List.length_cons]; omega)
    rw [List.append_assoc, List.cons_append, values, hvalue]
    simp only [hothers, Option.map_some]

/-- Membership in a list. -/
theorem Reads.inList {value : Expr} {tsValue : List Token} {others : List (List Token)}
    {es : List Expr} (h : Reads ts e) (hvalue : Reads tsValue value)
    (hothers : List.Forall₂ Reads others es) (hle : 4 ≤ e.precedence) (negated : Bool) :
    Reads (ts ++ (negation negated ++
        .keyword .inList :: .lparen :: (listed tsValue others ++ [.rparen])))
      (.inList e (value :: es) negated) := by
  have hlink : ∀ rest,
      link? (negation negated ++
          .keyword .inList :: .lparen :: (listed tsValue others ++ [.rparen]) ++ rest)
        = some (.inList negated, listed tsValue others ++ [.rparen] ++ rest) := by
    intro rest
    cases negated <;> simp [negation, link?]
  refine h.test (.inList · (value :: es) negated) hle rfl hlink
    (fun fuel left rest _ hfuel => ?_) rfl fun _ _ hlevel => if_pos hlevel
  simp only [List.append_assoc, List.cons_append, List.nil_append, List.length_append,
    List.length_cons] at hfuel ⊢
  have hvalues : values fuel (listed tsValue others ++ .rparen :: rest)
      = some (value :: es, rest) :=
    values_listed hvalue hothers fuel rest
      (by simp only [List.length_append, List.length_cons]; omega)
  simp only [linked, hvalues, Option.map_some]

/-! ## Blanks -/

@[simp] theorem solid_nil : solid [] = [] := rfl

@[simp] theorem solid_append (ts ts' : List Token) : solid (ts ++ ts') = solid ts ++ solid ts' :=
  List.filter_append ts ts'

@[simp] theorem solid_space (ts : List Token) : solid (.space :: ts) = solid ts := rfl

theorem solid_cons {token : Token} (h : token ≠ .space) (ts : List Token) :
    solid (token :: ts) = token :: solid ts :=
  List.filter_cons_of_pos (by simpa using h)

theorem solid_operandTokens (least : Nat) (e : Expr) (ts : List Token) :
    solid (e.operandTokens least ts) = e.operandTokens least (solid ts) := by
  rw [Expr.operandTokens, Expr.operandTokens]
  split <;> simp [solid_cons]

theorem solid_nameTokens (table : Option String) (name : String) :
    solid (Expr.nameTokens table (.name name)) = Expr.nameTokens table (.name name) := by
  cases table <;> rfl

theorem solid_negation (negated : Bool) : solid (Expr.negation negated) = negation negated := by
  cases negated <;> rfl

theorem solid_listTokens (d : Dialect) (e : Expr) (es : List Expr) :
    solid (e.tokens d ++ Expr.followingTokens d es)
      = listed (solid (e.tokens d)) (es.map fun e => solid (e.tokens d)) := by
  induction es generalizing e with
  | nil => simp [Expr.followingTokens, listed]
  | cons next es ih =>
    rw [List.map_cons, listed_cons, ← ih]
    simp [Expr.followingTokens, solid_cons]

/-! ## Formulas -/

theorem token_ne_space (op : BinaryOperator) : op.token ≠ .space := by
  cases op <;> simp [BinaryOperator.token]

/-- A formula that is tested for `NULL`. -/
theorem reads_isNull {d : Dialect} (h : Reads (solid (e.tokens d)) e.written) (he : e.Formula)
    (negated : Bool) :
    Reads (solid (e.operandTokens 5 (e.tokens d) ++ [.space, .keyword (Expr.nullTest negated)]))
      (.isNull (e.placed 5 e.written) negated) := by
  rw [solid_append, solid_operandTokens, solid_space, solid_cons (by simp), solid_nil]
  exact (h.placed 5 e).isNull (Nat.le_of_succ_le (he.le_precedence_placed (by decide))) negated

/-- The tokens of a formula are read as what they spell out. -/
theorem reads_tokens (d : Dialect) (h : e.Formula) : Reads (solid (e.tokens d)) e.written := by
  induction h with
  | @leaf e h =>
    cases h with
    | localized ref => exact solid_nameTokens _ _ ▸ reads_column (some ref.table) ref.column
    | plain h =>
      cases h with
      | column table name => exact solid_nameTokens _ _ ▸ reads_column table name
      | literal l =>
        have hsolid : solid [l.token] = [l.token] := by cases l <;> rfl
        exact hsolid ▸ reads_literal l
  | @binary op left right hop hleft hright ihl ihr =>
    rw [Expr.tokens, Expr.written]
    rcases Expr.comparedWithNull_cases op left right with
      hplain | ⟨-, -, hnull⟩ | ⟨-, -, hnull⟩
    · rw [hplain, hplain]
      simp only [hop, false_and, if_false]
      rw [solid_append, solid_append, solid_operandTokens, solid_operandTokens, solid_space,
        solid_cons (token_ne_space op), solid_space, solid_nil, List.append_assoc]
      exact (ihl.placed _ left).binary (ihr.placed _ right) hop
        (hleft.le_precedence_placed op.precedence_le)
        (hright.le_precedence_placed op.precedence_le)
    · rw [hnull, hnull]
      exact reads_isNull ihl hleft _
    · rw [hnull, hnull]
      exact reads_isNull ihr hright _
  | @not e he ih =>
    rw [Expr.tokens, solid_append, solid_cons (by simp), solid_space, solid_operandTokens]
    exact (ih.placed 3 e).not
      (he.le_precedence_placed (by decide))
  | paren _ ih =>
    rw [Expr.tokens, solid_cons (by simp), solid_append, solid_cons (by simp)]
    exact ih.paren
  | @isNull e negated he ih =>
    rw [Expr.tokens]
    exact reads_isNull ih he negated
  | @inList e values negated he hvalues ih ihvalues =>
    cases values with
    | nil =>
      cases negated <;> exact reads_truth _
    | cons value values =>
      have hothers : List.Forall₂ Reads (values.map fun e => solid (e.tokens d))
          (Expr.writtenOfList values) := by
        rw [Expr.writtenOfList_eq_map, List.forall₂_map_left_iff, List.forall₂_map_right_iff,
          List.forall₂_same]
        exact fun e he => ihvalues e (List.mem_cons_of_mem _ he)
      have hread := (ih.placed 5 e).inList (ihvalues value List.mem_cons_self) hothers
        (Nat.le_of_succ_le (he.le_precedence_placed (by decide))) negated
      rw [← solid_listTokens] at hread
      rw [Expr.tokens, Expr.written]
      simpa [solid_operandTokens, solid_negation, solid_cons] using hread
  | @between e low high negated he hlow hhigh ih ihlow ihhigh =>
    have hread := (ih.placed 5 e).between (ihlow.placed 5 low) (ihhigh.placed 5 high)
        (Nat.le_of_succ_le (he.le_precedence_placed (by decide)))
        (hlow.le_precedence_placed (by decide))
        (hhigh.le_precedence_placed (by decide)) negated
    rw [Expr.tokens, Expr.written]
    simpa [solid_operandTokens, solid_negation, solid_cons] using hread

/-- **Reading what is rendered.** The tokens of a formula denote what they spell out, and all of
them belong to it. -/
theorem ofTokens_tokens (d : Dialect) (h : e.Formula) : ofTokens (e.tokens d) = some e.written := by
  have hread : expression ((solid (e.tokens d)).length + 1) 1 (solid (e.tokens d) ++ [])
      = some (e.written, []) :=
    (reads_tokens d h).alone.expression_whole .nil (by simp)
  rw [List.append_nil] at hread
  rw [ofTokens, hread]

end Reading

end LocalizedQuery
