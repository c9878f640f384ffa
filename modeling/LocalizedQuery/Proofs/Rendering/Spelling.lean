import LocalizedQuery.Proofs.Rendering.Quoting
import LocalizedQuery.Proofs.Results
import LocalizedQuery.Sql.Rendering
import Mathlib.Data.List.Chain

/-!
# Spelling

Where names stand in double quotes, the text of an arithmetic expression tells its tokens. A token
is recognized by its first characters, except for the end of a name or a number and for `<` and `>`:
what comes next could go on with those. It does not, since no two tokens of this kind are
neighbours.

## Main results

* `Spelling.token?_write` — a token is read back from the text that it starts
* `Spelling.eq_of_writeAll_eq` — tokens with the same text are the same
-/

namespace LocalizedQuery

/-- The operators of arithmetic and the comparisons of numbers. -/
def BinaryOperator.IsArithmetic (op : BinaryOperator) : Prop :=
  op ∈ [.plus, .minus, .times, .divide, .modulo, .eq, .ne, .lt, .gt, .le, .ge]

instance : DecidablePred BinaryOperator.IsArithmetic := fun op =>
  inferInstanceAs (Decidable (op ∈ _))

/-- Whether a dialect puts names in double quotes. -/
def Dialect.QuotesDouble (d : Dialect) : Prop := d = .postgres ∨ d = .duckdb

namespace Spelling

/-- Tokens that go on for no second character, whatever comes next. -/
def delimits : Token → Bool
  | .space | .dot | .lparen | .rparen => true
  | _ => false

/-- The token that a text starts with, and the text behind it. -/
def token? : List Char → Option (Token × List Char)
  | ' ' :: rest => some (.space, rest)
  | '.' :: rest => some (.dot, rest)
  | '(' :: rest => some (.lparen, rest)
  | ')' :: rest => some (.rparen, rest)
  | '+' :: rest => some (.plus, rest)
  | '-' :: rest => some (.minus, rest)
  | '*' :: rest => some (.times, rest)
  | '/' :: rest => some (.divide, rest)
  | '%' :: rest => some (.modulo, rest)
  | '=' :: rest => some (.eq, rest)
  | '<' :: '>' :: rest => some (.ne, rest)
  | '<' :: '=' :: rest => some (.le, rest)
  | '<' :: rest => some (.lt, rest)
  | '>' :: '=' :: rest => some (.ge, rest)
  | '>' :: rest => some (.gt, rest)
  | '"' :: rest => (Quoted.read '"' rest).map fun (text, rest) => (.name (String.ofList text), rest)
  | [] => none
  | text =>
    some (.int (Nat.ofDigitChars 10 (text.takeWhile Char.isDigit) 0), text.dropWhile Char.isDigit)

/-- The tokens of arithmetic. -/
inductive Arithmetic : Token → Prop
  | delimiter {token : Token} : delimits token → Arithmetic token
  | operator {op : BinaryOperator} : op.IsArithmetic → Arithmetic op.token
  | name (text : String) : Arithmetic (.name text)
  | number (n : Nat) : Arithmetic (.int n)

/-- What may stand behind a token that could go on: nothing, or a token that delimits. -/
def Delimited (text : List Char) : Prop := ∀ c ∈ text.head?, c ∈ [' ', '.', '(', ')']

section

variable {d : Dialect} {token : Token} {text : String} {rest : List Char}

theorem token?_delimiter (h : delimits token) (hwrite : token.write d = .ok text) :
    token? (text.toList ++ rest) = some (token, rest) := by
  cases token <;> simp [delimits] at h <;> cases hwrite <;> rfl

theorem token?_name (hd : d.QuotesDouble) {name : String} (hrest : Delimited rest) :
    token? ((d.quoteName name).toList ++ rest) = some (.name name, rest) := by
  have hquotes : d.nameQuotes = ('"', '"') := by
    rcases hd with rfl | rfl <;> rfl
  have hnext : rest.head? ≠ some '"' := by
    intro hnext
    simpa using hrest _ hnext
  rw [Dialect.quoteName, hquotes, String.toList_ofList, Quoted.enclose, List.cons_append,
    List.append_assoc, List.singleton_append]
  simp only [token?, Quoted.read_double _ hnext, Option.map_some, String.ofList_toList]

theorem token?_digit {c : Char} (hc : c.isDigit) (rest : List Char) :
    token? (c :: rest)
      = some (.int (Nat.ofDigitChars 10 ((c :: rest).takeWhile Char.isDigit) 0),
          (c :: rest).dropWhile Char.isDigit) := by
  unfold token?
  split
  case h_18 => rfl
  all_goals
    rename_i heq
    cases heq <;> cases hc

theorem token?_number (n : Nat) (hrest : Delimited rest) :
    token? ((toString (n : Int)).toList ++ rest) = some (.int n, rest) := by
  have hdigits : ∀ c ∈ Nat.toDigits 10 n, c.isDigit := fun c hc =>
    Nat.isDigit_of_mem_toDigits (by decide) (by decide) hc
  have hnext : ∀ c ∈ rest.head?, ¬ c.isDigit := by
    intro c hc
    have hmem := hrest c hc
    simp only [List.mem_cons, List.not_mem_nil, or_false] at hmem
    rcases hmem with rfl | rfl | rfl | rfl <;> decide
  have htext : (toString (n : Int)).toList = Nat.toDigits 10 n := Nat.toList_repr
  have htake : rest.takeWhile Char.isDigit = [] := by
    cases rest with
    | nil => rfl
    | cons c rest => exact List.takeWhile_cons_of_neg (hnext c rfl)
  have hdrop : rest.dropWhile Char.isDigit = rest := by
    cases rest with
    | nil => rfl
    | cons c rest => exact List.dropWhile_cons_of_neg (hnext c rfl)
  have hread : token? (Nat.toDigits 10 n ++ rest)
      = some (.int (Nat.ofDigitChars 10 ((Nat.toDigits 10 n ++ rest).takeWhile Char.isDigit) 0),
          (Nat.toDigits 10 n ++ rest).dropWhile Char.isDigit) := by
    cases h : Nat.toDigits 10 n with
    | nil => exact absurd h Nat.toDigits_ne_nil
    | cons c behind => exact token?_digit (hdigits c (h ▸ List.mem_cons_self)) _
  rw [htext, hread, List.takeWhile_append_of_pos hdigits, List.dropWhile_append_of_pos hdigits,
    htake, hdrop, List.append_nil, Nat.ofDigitChars_ten_toDigits]

theorem token?_operator {op : BinaryOperator} (hop : op.IsArithmetic)
    (hwrite : op.token.write d = .ok text) (hrest : Delimited rest) :
    token? (text.toList ++ rest) = some (op.token, rest) := by
  cases rest with
  | nil =>
    cases op <;> simp [BinaryOperator.IsArithmetic] at hop <;> cases hwrite <;> rfl
  | cons c rest =>
    have hc := hrest c rfl
    simp only [List.mem_cons, List.not_mem_nil, or_false] at hc
    rcases hc with rfl | rfl | rfl | rfl <;> cases op <;>
      simp [BinaryOperator.IsArithmetic] at hop <;> cases hwrite <;> rfl

/-- A token is read back from the text that it starts. -/
theorem token?_write (hd : d.QuotesDouble) (h : Arithmetic token)
    (hwrite : token.write d = .ok text) (hrest : delimits token = true ∨ Delimited rest) :
    token? (text.toList ++ rest) = some (token, rest) := by
  by_cases hdelimits : delimits token = true
  · exact token?_delimiter hdelimits hwrite
  · replace hrest := hrest.resolve_left hdelimits
    cases h with
    | delimiter h => exact absurd h hdelimits
    | operator hop => exact token?_operator hop hwrite hrest
    | name name =>
      cases hwrite
      exact token?_name hd hrest
    | number n =>
      cases hwrite
      exact token?_number n hrest

theorem exists_write (d : Dialect) (h : Arithmetic token) : ∃ text, token.write d = .ok text := by
  cases h with
  | delimiter h => cases token <;> simp [delimits] at h <;> exact ⟨_, rfl⟩
  | @operator op hop => cases op <;> exact ⟨_, rfl⟩
  | name text => exact ⟨_, rfl⟩
  | number n => exact ⟨_, rfl⟩

/-! ## Lists of tokens -/

/-- Arithmetic tokens of which no two neighbours could both go on. -/
structure Spaced (tokens : List Token) : Prop where
  arithmetic : ∀ token ∈ tokens, Arithmetic token
  apart : tokens.IsChain fun token next => delimits token = true ∨ delimits next = true

theorem Spaced.nil : Spaced [] :=
  ⟨fun _ h => absurd h List.not_mem_nil, .nil⟩

theorem Spaced.singleton (h : Arithmetic token) : Spaced [token] :=
  ⟨fun _ hnext => List.mem_singleton.mp hnext ▸ h, .singleton token⟩

/-- A token that delimits may stand between any others. -/
theorem Spaced.append_delimiter {ts ts' : List Token} (h : Spaced ts)
    (hdelimits : delimits token = true) (h' : Spaced ts') : Spaced (ts ++ token :: ts') := by
  refine ⟨fun next hnext => ?_, List.isChain_append.mpr ⟨h.apart, ?_, ?_⟩⟩
  · rcases List.mem_append.mp hnext with hnext | hnext
    · exact h.arithmetic next hnext
    · rcases List.mem_cons.mp hnext with rfl | hnext
      · exact .delimiter hdelimits
      · exact h'.arithmetic next hnext
  · exact List.isChain_cons.mpr ⟨fun _ _ => .inl hdelimits, h'.apart⟩
  · intro last _ first hfirst
    cases hfirst
    exact .inr hdelimits

/-- The characters of a token; none if it cannot be written. -/
def spell (d : Dialect) (token : Token) : List Char :=
  match token.write d with
  | .ok text => text.toList
  | .error _ => []

theorem write_eq_ok (h : Arithmetic token) :
    token.write d = .ok (String.ofList (spell d token)) := by
  obtain ⟨text, hwrite⟩ := exists_write d h
  rw [spell, hwrite, String.ofList_toList]

theorem writeAll_eq {tokens : List Token} (h : ∀ token ∈ tokens, Arithmetic token) :
    Token.writeAll d tokens = .ok (String.ofList (tokens.flatMap (spell d))) := by
  have hwrite : tokens.mapM (Token.write d)
      = .ok (tokens.map fun token => String.ofList (spell d token)) :=
    mapM_eq_ok fun token htoken => write_eq_ok (h token htoken)
  have hjoin : String.join (tokens.map fun token => String.ofList (spell d token))
      = String.ofList (tokens.flatMap (spell d)) := by
    rw [← String.toList_inj, String.toList_join, String.toList_ofList, List.flatMap_map]
    simp only [String.toList_ofList]
  rw [Token.writeAll, hwrite, Except.map, hjoin]

theorem delimited_flatMap {tokens : List Token}
    (h : ∀ next ∈ tokens.head?, delimits next = true) : Delimited (tokens.flatMap (spell d)) := by
  cases tokens with
  | nil => exact fun c hc => by cases hc
  | cons next tokens =>
    have hnext := h next rfl
    cases next <;> simp [delimits] at hnext <;> simp [Delimited, spell, Token.write]

/-- The first token is read back, and what is left are the others. -/
theorem token?_flatMap_spell (hd : d.QuotesDouble) {tokens : List Token}
    (h : Spaced (token :: tokens)) :
    token? ((token :: tokens).flatMap (spell d)) = some (token, tokens.flatMap (spell d)) := by
  have htoken := h.arithmetic token List.mem_cons_self
  have hrest : delimits token = true ∨ Delimited (tokens.flatMap (spell d)) := by
    by_cases hdelimits : delimits token = true
    · exact .inl hdelimits
    · refine .inr (delimited_flatMap fun next hnext => ?_)
      exact ((List.isChain_cons.mp h.apart).1 next hnext).resolve_left hdelimits
  have hread := token?_write hd htoken (write_eq_ok htoken) hrest
  rwa [String.toList_ofList] at hread

theorem Spaced.tail {tokens : List Token} (h : Spaced (token :: tokens)) : Spaced tokens :=
  ⟨fun next hnext => h.arithmetic next (List.mem_cons_of_mem _ hnext),
    (List.isChain_cons.mp h.apart).2⟩

/-- Tokens are told by their characters. -/
theorem eq_of_flatMap_spell_eq (hd : d.QuotesDouble) {tokens tokens' : List Token}
    (h : Spaced tokens) (h' : Spaced tokens')
    (hspell : tokens.flatMap (spell d) = tokens'.flatMap (spell d)) : tokens = tokens' := by
  induction tokens generalizing tokens' with
  | nil =>
    cases tokens' with
    | nil => rfl
    | cons token' tokens' =>
      have hread := token?_flatMap_spell hd h'
      rw [← hspell] at hread
      cases hread
  | cons token tokens ih =>
    have hread := token?_flatMap_spell hd h
    cases tokens' with
    | nil =>
      rw [hspell] at hread
      cases hread
    | cons token' tokens' =>
      rw [hspell, token?_flatMap_spell hd h', Option.some.injEq, Prod.mk.injEq] at hread
      obtain ⟨rfl, hrest⟩ := hread
      rw [ih h.tail h'.tail hrest.symm]

/-- **Tokens are told by their text.** -/
theorem eq_of_writeAll_eq (hd : d.QuotesDouble) {tokens tokens' : List Token} (h : Spaced tokens)
    (h' : Spaced tokens') (heq : Token.writeAll d tokens = Token.writeAll d tokens') :
    tokens = tokens' := by
  rw [writeAll_eq h.arithmetic, writeAll_eq h'.arithmetic] at heq
  exact eq_of_flatMap_spell_eq hd h h' (String.ofList_injective (Except.ok.inj heq))

end

end Spelling

end LocalizedQuery
