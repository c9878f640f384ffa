import LocalizedQuery.Proofs.Parts
import LocalizedQuery.Proofs.Rendering.Written

/-!
# Searching what is rendered

Where in an expression does it come from that its tokens have some feature? Nearly all tokens of an
expression are those of its children, with spaces, commas, periods and parentheses around them. So a
feature that does not reach across these (`Search`) comes from a child, or from one of the few forms
that bring tokens of their own: a literal, a call, or a minus sign in front of an operand
(`Source`). `Search.found_iff` goes all the way down.

Two kinds of features are needed. Some are of a single token (`Search.ofToken`), and some are of two
neighbours (`Search.ofNeighbours`). The latter need a look at the minus sign, which alone has its
operand right behind it.

## Main results

* `Search.step` — a feature comes from the form itself or from a child that is written
* `Search.found_iff` — a feature comes from some part that is written
-/

namespace LocalizedQuery

namespace Token

/-- The tokens that keep others apart. -/
def separates : Token → Bool
  | .space | .comma | .dot | .lparen | .rparen => true
  | _ => false

/-- The tokens that a form brings whatever its children are, and names. -/
def isPlain : Token → Bool
  | .int _ | .float _ | .string _ | .bool _ | .indent _ => false
  | .function text => text == "CONCAT"
  | _ => true

end Token

/-- A feature of tokens that does not reach across separators. Whether a minus sign makes one
together with the operand behind it is told by `sign`. -/
structure Search (d : Dialect) (found : List Token → Prop) (sign : Expr → Prop) : Prop where
  nil : ¬ found []
  split (token : Token) : token.separates = true →
    ∀ ts ts', found (ts ++ token :: ts') ↔ found ts ∨ found ts'
  plain {token : Token} : token.isPlain = true → ¬ found [token]
  minus (e : Expr) :
    found (.minus :: e.operandTokens 7 (e.tokens d)) ↔ sign e ∨ found (e.tokens d)

/-- The forms that bring a feature themselves. -/
inductive Source (found : List Token → Prop) (sign : Expr → Prop) : Expr → Prop
  | literal {l : Literal} : found [l.token] → Source found sign (.literal l)
  | call {function : String} {args : List Expr} : found [.function function] →
      Source found sign (.call function args)
  | minus {e : Expr} : sign e → Source found sign (.unary .minus e)

/-- Tokens that nothing is found in and that keep apart what stands on both sides. -/
def Gap (found : List Token → Prop) (gap : List Token) : Prop :=
  ∀ ts ts', found (ts ++ gap ++ ts') ↔ found ts ∨ found ts'

namespace Search

variable {d : Dialect} {found : List Token → Prop} {sign : Expr → Prop}

/-! ## Gaps -/

theorem gap_separator (h : Search d found sign) (token : Token) (htoken : token.separates = true) :
    Gap found [token] := by
  intro ts ts'
  rw [List.append_assoc]
  exact h.split token htoken ts ts'

theorem gap_append (h : Search d found sign) {gap gap' : List Token} (hgap : Gap found gap)
    (hgap' : Gap found gap') : Gap found (gap ++ gap') := by
  intro ts ts'
  have hbehind := hgap' [] ts'
  rw [List.nil_append, or_iff_right h.nil] at hbehind
  rw [← List.append_assoc, List.append_assoc, hgap, hbehind]

/-- A plain token may stand in a gap. -/
theorem gap_plain (h : Search d found sign) {before behind token : Token}
    (hbefore : before.separates = true) (htoken : token.isPlain = true)
    (hbehind : behind.separates = true) : Gap found [before, token, behind] := by
  intro ts ts'
  have hrest := h.split behind hbehind [token] ts'
  rw [List.singleton_append, or_iff_right (h.plain htoken)] at hrest
  rw [List.append_assoc]
  exact (h.split before hbefore ts _).trans (or_congr_right hrest)

theorem found_gap (h : Search d found sign) {gap : List Token} (hgap : Gap found gap)
    (ts : List Token) : found (gap ++ ts) ↔ found ts := by
  have hsides := hgap [] ts
  rwa [List.nil_append, or_iff_right h.nil] at hsides

/-- A plain token at the end adds nothing. -/
theorem found_last (h : Search d found sign) {token : Token} (htoken : token.isPlain = true)
    (ts : List Token) : found (ts ++ [.space, token]) ↔ found ts := by
  rw [h.split .space rfl, or_iff_left (h.plain htoken)]

/-! ## Forms -/

theorem not_found_name (h : Search d found sign) (table : Option String) (last : Token)
    (hlast : last.isPlain = true) : ¬ found (Expr.nameTokens table last) := by
  cases table with
  | none => exact h.plain hlast
  | some table =>
    have hsides := h.split .dot rfl [.name table] [last]
    exact fun hfound => (hsides.mp hfound).elim (h.plain rfl) (h.plain hlast)

theorem found_parentheses (h : Search d found sign) (ts : List Token) :
    found (.lparen :: (ts ++ [.rparen])) ↔ found ts := by
  have hinside := h.split .rparen rfl ts []
  rw [or_iff_left h.nil] at hinside
  exact (h.found_gap (h.gap_separator .lparen rfl) _).trans hinside

theorem found_operand (h : Search d found sign) (least : Nat) (e : Expr) (ts : List Token) :
    found (e.operandTokens least ts) ↔ found ts := by
  rw [Expr.operandTokens]
  split
  · exact h.found_parentheses ts
  · rfl

theorem gap_negation (h : Search d found sign) (negated : Bool) {gap : List Token}
    (hgap : Gap found (.space :: gap)) : Gap found (Expr.negation negated ++ .space :: gap) := by
  cases negated with
  | false => exact hgap
  | true =>
    intro ts ts'
    have hrest := hgap [.keyword .not] ts'
    rw [or_iff_right (h.plain rfl)] at hrest
    rw [List.append_assoc]
    exact (h.split .space rfl ts _).trans (or_congr_right hrest)

theorem gap_comma (h : Search d found sign) : Gap found [.comma, .space] :=
  h.gap_append (h.gap_separator .comma rfl) (h.gap_separator .space rfl)

theorem found_following (h : Search d found sign) (ts : List Token) (es : List Expr) :
    found (ts ++ Expr.followingTokens d es) ↔ found ts ∨ ∃ e ∈ es, found (e.tokens d) := by
  induction es generalizing ts with
  | nil => simp [Expr.followingTokens]
  | cons e rest ih =>
    have hbehind := ih (e.tokens d)
    rw [Expr.followingTokens, List.append_assoc, ← List.append_assoc, h.gap_comma, hbehind]
    simp only [List.mem_cons, exists_eq_or_imp]

theorem found_list (h : Search d found sign) (es : List Expr) :
    found (Expr.listTokens d es) ↔ ∃ e ∈ es, found (e.tokens d) := by
  cases es with
  | nil => simp [Expr.listTokens, h.nil]
  | cons e rest =>
    rw [Expr.listTokens, h.found_following]
    simp only [List.mem_cons, exists_eq_or_imp]

theorem found_option {lead : List Token} (hlead : Gap found lead) (ts : List Token)
    (e : Option Expr) :
    found (ts ++ Expr.optionTokens d lead e) ↔ found ts ∨ ∃ e' ∈ e, found (e'.tokens d) := by
  cases e with
  | none => simp [Expr.optionTokens]
  | some e => simp [Expr.optionTokens, ← List.append_assoc, hlead ts]

theorem found_branches (h : Search d found sign) (ts : List Token)
    (branches : List (Expr × Expr)) :
    found (ts ++ Expr.branchTokens d branches) ↔
      found ts ∨ ∃ branch ∈ branches, found (branch.1.tokens d) ∨ found (branch.2.tokens d) := by
  induction branches generalizing ts with
  | nil => simp [Expr.branchTokens]
  | cons branch rest ih =>
    have hwhen : Gap found [.space, .keyword .when, .space] := h.gap_plain rfl rfl rfl
    have hthen : Gap found [.space, .keyword .result, .space] := h.gap_plain rfl rfl rfl
    rw [Expr.branchTokens, ← List.append_assoc, ih, ← List.append_assoc, ← List.append_assoc, hthen,
      ← List.append_assoc, hwhen]
    simp only [List.mem_cons, exists_eq_or_imp, or_assoc]

/-! ## Expressions -/

theorem found_isNull (h : Search d found sign) (e : Expr) (negated : Bool) :
    found (e.operandTokens 5 (e.tokens d) ++ [.space, .keyword (Expr.nullTest negated)]) ↔
      found (e.tokens d) := by
  rw [h.found_last rfl, h.found_operand]

/-- Neither an operator nor `NULL` next to it is a feature. -/
theorem found_binary (h : Search d found sign) (op : BinaryOperator) (left right : Expr) :
    found ((Expr.binary op left right).tokens d) ↔
      found (left.tokens d) ∨ found (right.tokens d) := by
  have hnull : ¬ found ((Expr.literal .null).tokens d) := h.plain rfl
  rw [Expr.tokens]
  rcases Expr.comparedWithNull_cases op left right with hplain | ⟨-, rfl, hcompared⟩ |
    ⟨-, rfl, hcompared⟩
  · rw [hplain]
    by_cases hcall : op = .concat ∧ (!d.hasConcatOperator) = true
    · have hcomma := h.gap_comma ([.function "CONCAT"] ++ [.lparen] ++ left.tokens d)
        (right.tokens d ++ [.rparen])
      have hleft := h.split .lparen rfl [.function "CONCAT"] (left.tokens d)
      have hright := h.split .rparen rfl (right.tokens d) []
      rw [List.singleton_append, or_iff_right (h.plain rfl)] at hleft
      rw [or_iff_left h.nil] at hright
      simp only [if_pos hcall]
      simpa [hleft, hright] using hcomma
    · have hop : op.token.isPlain = true := by cases op <;> rfl
      simp only [if_neg hcall]
      rw [h.gap_plain rfl hop rfl, h.found_operand, h.found_operand]
  · rw [hcompared, or_iff_left hnull]
    exact h.found_isNull left _
  · rw [hcompared, or_iff_right hnull]
    exact h.found_isNull right _

theorem source_literal {l : Literal} : Source found sign (.literal l) ↔ found [l.token] := by
  refine ⟨fun h => ?_, .literal⟩
  cases h
  assumption

theorem source_call {function : String} {args : List Expr} :
    Source found sign (.call function args) ↔ found [.function function] := by
  refine ⟨fun h => ?_, .call⟩
  cases h
  assumption

theorem source_minus {e : Expr} : Source found sign (.unary .minus e) ↔ sign e := by
  refine ⟨fun h => ?_, .minus⟩
  cases h
  assumption

/-- **A feature comes from the form itself or from a child that is written.** -/
theorem step (h : Search d found sign) (e : Expr) :
    found (e.tokens d) ↔ Source found sign e ∨ ∃ child ∈ e.shown, found (child.tokens d) := by
  cases e with
  | column table name =>
    have hsource : ¬ Source found sign (.column table name) := nofun
    have hname := h.not_found_name table (.name name) rfl
    simp [Expr.tokens, Expr.shown, Expr.children, hname, hsource]
  | localized ref =>
    have hsource : ¬ Source found sign (.localized ref) := nofun
    have hname := h.not_found_name (some ref.table) (.name ref.column) rfl
    simp [Expr.tokens, Expr.shown, Expr.children, hname, hsource]
  | star table =>
    have hsource : ¬ Source found sign (.star table) := nofun
    have hname := h.not_found_name table .star rfl
    simp [Expr.tokens, Expr.shown, Expr.children, hname, hsource]
  | literal l => simp [Expr.tokens, Expr.shown, Expr.children, source_literal]
  | binary op left right =>
    have hsource : ¬ Source found sign (.binary op left right) := nofun
    simp [Expr.shown, Expr.children, h.found_binary, hsource]
  | unary op e =>
    cases op with
    | not =>
      have hsource : ¬ Source found sign (.unary .not e) := nofun
      have hnot := h.split .space rfl [.keyword .not] (e.operandTokens 3 (e.tokens d))
      rw [or_iff_right (h.plain rfl), h.found_operand] at hnot
      simpa [Expr.tokens, Expr.shown, Expr.children, hsource] using hnot
    | minus => simp [Expr.tokens, Expr.shown, Expr.children, h.minus, source_minus]
  | call function args =>
    have hinside := h.split .lparen rfl [.function function]
      (Expr.listTokens d args ++ [.rparen])
    have hend := h.split .rparen rfl (Expr.listTokens d args) []
    rw [or_iff_left h.nil, h.found_list] at hend
    rw [hend] at hinside
    simpa [Expr.tokens, Expr.shown, Expr.children, source_call] using hinside
  | caseOf operand branches otherwise =>
    have hsource : ¬ Source found sign (.caseOf operand branches otherwise) := nofun
    have hspace : Gap found [.space] := h.gap_separator .space rfl
    have helse : Gap found [.space, .keyword .otherwise, .space] := h.gap_plain rfl rfl rfl
    have hcase : ¬ found [.keyword .caseOf] := h.plain rfl
    rw [Expr.tokens, ← List.cons_append, h.found_last rfl, ← List.cons_append, found_option helse,
      ← List.cons_append, h.found_branches, ← List.singleton_append, found_option hspace]
    simp only [hcase, hsource, Expr.shown, Expr.exists_child_caseOf, false_or, or_assoc]
  | inList e values negated =>
    have hsource : ¬ Source found sign (.inList e values negated) := nofun
    cases values with
    | nil =>
      have htruth : ¬ found [.keyword (if negated then .true else .false)] := h.plain rfl
      simp [Expr.tokens, Expr.shown, htruth, hsource]
    | cons value values =>
      have hword : Gap found [.space, .keyword .inList, .space] := h.gap_plain rfl rfl rfl
      have hin : Gap found [.space, .keyword .inList, .space, .lparen] :=
        h.gap_append hword (h.gap_separator .lparen rfl)
      have hnegated := h.gap_negation negated hin
      have hend := h.split .rparen rfl
      rw [Expr.tokens, hend, h.found_following, List.append_assoc _ (Expr.negation negated),
        hnegated, h.found_operand]
      simp [Expr.shown, Expr.children, hsource, h.nil, or_assoc]
  | between e low high negated =>
    have hsource : ¬ Source found sign (.between e low high negated) := nofun
    have hword : Gap found [.space, .keyword .between, .space] := h.gap_plain rfl rfl rfl
    have hand : Gap found [.space, .keyword .and, .space] := h.gap_plain rfl rfl rfl
    have hbetween := h.gap_negation negated hword
    rw [Expr.tokens, hand, h.found_operand, List.append_assoc _ (Expr.negation negated), hbetween,
      h.found_operand, h.found_operand]
    simp [Expr.shown, Expr.children, hsource, or_assoc]
  | isNull e negated =>
    have hsource : ¬ Source found sign (.isNull e negated) := nofun
    simp [Expr.tokens, Expr.shown, Expr.children, h.found_isNull, hsource]
  | paren e =>
    have hsource : ¬ Source found sign (.paren e) := nofun
    simp [Expr.tokens, Expr.shown, Expr.children, h.found_parentheses, hsource]

/-- **A feature comes from some part that is written.** -/
theorem found_iff (h : Search d found sign) (e : Expr) :
    found (e.tokens d) ↔ ∃ part, part.IsShown e ∧ Source found sign part := by
  induction e using Expr.induction_on_children with
  | h e ih =>
    rw [h.step]
    constructor
    · rintro (hsource | ⟨child, hchild, hfound⟩)
      · exact ⟨e, .here, hsource⟩
      · obtain ⟨part, hpart, hsource⟩ := (ih child (e.shown_subset hchild)).mp hfound
        exact ⟨part, .under hchild hpart, hsource⟩
    · rintro ⟨part, hpart, hsource⟩
      rcases Expr.within_iff.mp hpart with rfl | ⟨child, hchild, hpart⟩
      · exact .inl hsource
      · exact .inr ⟨child, hchild, (ih child (e.shown_subset hchild)).mpr ⟨part, hpart, hsource⟩⟩

/-- A feature of a single token. -/
theorem ofToken {p : Token → Prop} (hp : ∀ token, token.isPlain = true → ¬ p token) :
    Search d (fun ts => ∃ token ∈ ts, p token) fun _ => False where
  nil := by simp
  split token htoken ts ts' := by
    have hplain : token.isPlain = true := by
      cases token <;> simp_all [Token.separates, Token.isPlain]
    simp only [List.mem_append, List.mem_cons, or_and_right, exists_or, exists_eq_left,
      hp token hplain, false_or]
  plain htoken := by simpa using hp _ htoken
  minus e := by
    have hminus : ¬ p .minus := hp .minus rfl
    have hleft : ¬ p .lparen := hp .lparen rfl
    have hright : ¬ p .rparen := hp .rparen rfl
    rw [Expr.operandTokens]
    split <;> simp [hminus, hleft, hright, or_and_right, exists_or]

section

variable {together : Token → Token → Prop}

/-- A separator that goes with everything cuts a list in two. -/
theorem isChain_separator {token : Token} (hbefore : ∀ other, together token other)
    (hbehind : ∀ other, together other token) (ts ts' : List Token) :
    (ts ++ token :: ts').IsChain together ↔ ts.IsChain together ∧ ts'.IsChain together := by
  simp [List.isChain_append, List.isChain_cons, hbefore, hbehind]

/-- Two neighbours that do not go together, where separators go with everything. Only a minus sign
may not go with the operand behind it. -/
theorem ofNeighbours
    (hbefore : ∀ token, token.separates = true → ∀ other, together token other)
    (hbehind : ∀ token, token.separates = true → ∀ other, together other token)
    (htight : ∀ e : Expr, 7 ≤ e.precedence →
      ((∀ token ∈ (e.tokens d).head?, together .minus token) ↔ ¬ sign e))
    (hloose : ∀ e : Expr, e.precedence < 7 → ¬ sign e) :
    Search d (fun ts => ¬ ts.IsChain together) sign where
  nil := not_not_intro .nil
  split token htoken ts ts' := by
    rw [isChain_separator (hbefore token htoken) (hbehind token htoken),
      Classical.not_and_iff_not_or_not]
  plain _ := not_not_intro (.singleton _)
  minus e := by
    have hopen := isChain_separator (hbefore .lparen rfl) (hbehind .lparen rfl) [.minus]
      (e.tokens d ++ [.rparen])
    have hclose := isChain_separator (hbefore .rparen rfl) (hbehind .rparen rfl) (e.tokens d) []
    by_cases hlow : e.precedence < 7
    · rw [Expr.operandTokens, if_pos hlow, or_iff_right (hloose e hlow), not_iff_not]
      simpa [hclose] using hopen
    · rw [Expr.operandTokens, if_neg hlow, List.isChain_cons, htight e (Nat.le_of_not_lt hlow),
        Classical.not_and_iff_not_or_not, Classical.not_not]

end

end Search

end LocalizedQuery
