import LocalizedQuery.Predicate.Lexer
import LocalizedQuery.Sql.Dialect

/-!
# Text literals where a backslash escapes

A text literal is written with its quotes doubled and everything else as it is. By default MySQL
reads it otherwise: there a backslash stands for the character behind it, whatever that is, and so
escapes the quotes that were doubled or the one that ends the literal. `Quoted.literal?` reads by
that rule, with any table of escapes.

What decides is where the backslashes stand that are not escaped themselves. If one is last or has a
quote behind it, the literal ends elsewhere, or not at all; if not (`Quoted.Spares`), it ends where
it was meant to. It denotes what was written only if there is no backslash, since a backslash and
what it escapes become one character.

## Main results

* `Quoted.literal?_enclose` — what a text denotes whose backslashes spare the quotes
* `Quoted.literal?_enclose_ne` — other texts end elsewhere, or not at all
* `Dialect.mysql_literal_iff` — which texts MySQL reads back
-/

namespace LocalizedQuery

namespace Quoted

/-- Reads a text literal in which a backslash and the character behind it stand for the character
that `escape` gives. -/
def literal? (escape : Char → Char) : List Char → Option Rest
  | '\'' :: rest => readEscaped escape '\'' rest
  | _ => none

/-- No backslash that is not escaped itself stands before a quote or at the end. -/
def Spares : List Char → Prop
  | [] => True
  | [c] => c ≠ '\\'
  | c :: d :: rest => if c = '\\' then d ≠ '\'' ∧ Spares rest else Spares (d :: rest)

/-- The text that is denoted when backslashes escape. -/
def unescaped (escape : Char → Char) : List Char → List Char
  | [] => []
  | [c] => [c]
  | c :: d :: rest =>
    if c = '\\' then escape d :: unescaped escape rest else c :: unescaped escape (d :: rest)

variable {escape : Char → Char} {text : List Char}

/-! ## One character -/

/-- After an unescaped character other than a quote and a backslash, reading goes on. -/
theorem readEscaped_cons {c : Char} (hquote : c ≠ '\'') (hslash : c ≠ '\\') {d : Char}
    {rest : List Char} :
    readEscaped escape '\'' (c :: d :: rest)
      = (readEscaped escape '\'' (d :: rest)).map (Rest.cons c) := by
  rw [readEscaped, if_neg hquote, if_neg hslash]

theorem readEscaped_quotes {rest : List Char} :
    readEscaped escape '\'' ('\'' :: '\'' :: rest)
      = (readEscaped escape '\'' rest).map (Rest.cons '\'') := by
  rw [readEscaped, if_pos rfl, if_pos rfl]

theorem readEscaped_slash {d : Char} {rest : List Char} :
    readEscaped escape '\'' ('\\' :: d :: rest)
      = (readEscaped escape '\'' rest).map (Rest.cons (escape d)) := by
  rw [readEscaped, if_neg (by decide), if_pos rfl]

/-- Where the closing quote stands alone. -/
theorem readEscaped_close {rest : List Char} (h : rest.head? ≠ some '\'') :
    readEscaped escape '\'' ('\'' :: rest) = some ([], rest) := by
  cases rest with
  | nil => rfl
  | cons c rest =>
    have hc : c ≠ '\'' := fun hc => h (by rw [hc, List.head?_cons])
    rw [readEscaped, if_pos rfl, if_neg hc]

/-- A written text with its closing quote is not empty. -/
theorem exists_double_close (text after : List Char) :
    ∃ d rest, double '\'' text ++ '\'' :: after = d :: rest := by
  cases double '\'' text <;> simp

/-! ## Texts that spare the quotes -/

/-- What is read of a text whose backslashes spare the quotes. -/
theorem readEscaped_double (htext : Spares text) {after : List Char}
    (hafter : after.head? ≠ some '\'') :
    readEscaped escape '\'' (double '\'' text ++ '\'' :: after)
      = some (unescaped escape text, after) := by
  -- The induction skips the character behind a backslash, as reading does.
  fun_induction unescaped escape text with
  | case1 => exact readEscaped_close hafter
  | case2 c =>
    have hslash : c ≠ '\\' := htext
    by_cases hquote : c = '\''
    · rw [hquote, double, if_pos rfl, double, List.cons_append, List.cons_append, List.nil_append,
        readEscaped_quotes, readEscaped_close hafter]
      rfl
    · rw [double, if_neg hquote, double, List.cons_append, List.nil_append,
        readEscaped_cons hquote hslash, readEscaped_close hafter]
      rfl
  | case3 d rest ih =>
    rw [Spares, if_pos rfl] at htext
    obtain ⟨hd, hrest⟩ := htext
    rw [double, if_neg (by decide), double, if_neg hd, List.cons_append, List.cons_append,
      readEscaped_slash, ih hrest]
    rfl
  | case4 c d rest hslash ih =>
    rw [Spares, if_neg hslash] at htext
    by_cases hquote : c = '\''
    · rw [hquote, double, if_pos rfl, List.cons_append, List.cons_append, readEscaped_quotes,
        ih htext]
      rfl
    · obtain ⟨first, behind, hbehind⟩ := exists_double_close (d :: rest) after
      rw [double, if_neg hquote, List.cons_append, hbehind, readEscaped_cons hquote hslash,
        ← hbehind, ih htext]
      rfl

/-- **What a text denotes whose backslashes spare the quotes:** its literal ends where it was meant
to, whatever comes next. -/
theorem literal?_enclose (escape : Char → Char) (htext : Spares text) {after : List Char}
    (hafter : after.head? ≠ some '\'') :
    literal? escape (enclose '\'' '\'' text ++ after) = some (unescaped escape text, after) := by
  rw [enclose, List.cons_append, List.append_assoc]
  exact readEscaped_double htext hafter

/-! ## Other texts -/

/-- What is read behind some character ends where the whole ends. -/
theorem map_cons_ne {c : Char} {read : Option Rest} (h : ∀ value, read ≠ some (value, []))
    (value : List Char) : read.map (Rest.cons c) ≠ some (value, []) := by
  intro hread
  obtain ⟨⟨value', after⟩, hbehind, hcons⟩ := Option.map_eq_some_iff.mp hread
  have hafter : after = [] := congrArg Prod.snd hcons
  exact h value' (hafter ▸ hbehind)

/-- From the second of two doubled quotes on, no literal ends at the closing quote. -/
theorem readEscaped_half (text value : List Char) :
    readEscaped escape '\'' ('\'' :: (double '\'' text ++ ['\''])) ≠ some (value, []) := by
  induction text generalizing value with
  | nil =>
    rw [double, List.nil_append, readEscaped_quotes]
    exact map_cons_ne (by simp [readEscaped]) value
  | cons c text ih =>
    by_cases hquote : c = '\''
    · rw [double, if_pos hquote, hquote, List.cons_append, List.cons_append, readEscaped_quotes]
      exact map_cons_ne ih value
    · rw [double, if_neg hquote, List.cons_append, readEscaped_close (by simpa using hquote)]
      simp

theorem readEscaped_double_ne (htext : ¬ Spares text) (value : List Char) :
    readEscaped escape '\'' (double '\'' text ++ ['\'']) ≠ some (value, []) := by
  fun_induction Spares text generalizing value with
  | case1 => exact absurd trivial htext
  | case2 c =>
    rw [ne_eq, Decidable.not_not] at htext
    rw [htext, double, if_neg (by decide), double, List.cons_append, List.nil_append,
      readEscaped_slash]
    exact map_cons_ne (by simp [readEscaped]) value
  | case3 d rest ih =>
    by_cases hquote : d = '\''
    · rw [hquote, double, if_neg (by decide), double, if_pos rfl, List.cons_append,
        List.cons_append, List.cons_append, readEscaped_slash]
      exact map_cons_ne (readEscaped_half rest) value
    · have hrest : ¬ Spares rest := fun hrest => htext ⟨hquote, hrest⟩
      rw [double, if_neg (by decide), double, if_neg hquote, List.cons_append, List.cons_append,
        readEscaped_slash]
      exact map_cons_ne (ih hrest) value
  | case4 c d rest hslash ih =>
    by_cases hquote : c = '\''
    · rw [hquote, double, if_pos rfl, List.cons_append, List.cons_append, readEscaped_quotes]
      exact map_cons_ne (ih htext) value
    · obtain ⟨first, behind, hbehind⟩ := exists_double_close (d :: rest) []
      rw [double, if_neg hquote, List.cons_append, hbehind, readEscaped_cons hquote hslash,
        ← hbehind]
      exact map_cons_ne (ih htext) value

/-- **Other texts end elsewhere, or not at all.** -/
theorem literal?_enclose_ne (escape : Char → Char) (htext : ¬ Spares text) (value : List Char) :
    literal? escape (enclose '\'' '\'' text) ≠ some (value, []) :=
  readEscaped_double_ne htext value

/-! ## Texts without a backslash -/

theorem spares_of_not_mem (h : '\\' ∉ text) : Spares text := by
  fun_induction Spares text with
  | case1 => trivial
  | case2 c => exact fun hc => h (by simp [hc])
  | case3 d rest ih => exact absurd List.mem_cons_self h
  | case4 c d rest hslash ih => exact ih fun hmem => h (List.mem_cons_of_mem c hmem)

theorem unescaped_of_not_mem (h : '\\' ∉ text) : unescaped escape text = text := by
  fun_induction unescaped escape text with
  | case1 | case2 => rfl
  | case3 d rest ih => exact absurd List.mem_cons_self h
  | case4 c d rest hslash ih => rw [ih fun hmem => h (List.mem_cons_of_mem c hmem)]

theorem length_unescaped_le (escape : Char → Char) (text : List Char) :
    (unescaped escape text).length ≤ text.length := by
  fun_induction unescaped escape text with
  | case1 | case2 => exact Nat.le_refl _
  | case3 d rest ih =>
    simp only [List.length_cons]
    omega
  | case4 c d rest hslash ih => simpa using ih

/-- A backslash and what it escapes become one character. -/
theorem length_unescaped_lt (escape : Char → Char) (htext : Spares text) (h : '\\' ∈ text) :
    (unescaped escape text).length < text.length := by
  fun_induction unescaped escape text with
  | case1 => simp at h
  | case2 c => exact absurd (List.mem_singleton.mp h).symm htext
  | case3 d rest ih =>
    have hrest := length_unescaped_le escape rest
    simp only [List.length_cons]
    omega
  | case4 c d rest hslash ih =>
    rw [Spares, if_neg hslash] at htext
    have hmem : '\\' ∈ d :: rest :=
      (List.mem_cons.mp h).resolve_left fun hc => hslash hc.symm
    exact Nat.succ_lt_succ (ih htext hmem)

/-- Where the quotes are spared, a text denotes itself if it has no backslash. -/
theorem unescaped_eq_self_iff (htext : Spares text) :
    unescaped escape text = text ↔ '\\' ∉ text := by
  constructor
  · intro h hmem
    have hlt := length_unescaped_lt escape htext hmem
    rw [h] at hlt
    exact Nat.lt_irrefl _ hlt
  · exact unescaped_of_not_mem

/-- What the literal of a text is read as, with nothing left over. -/
theorem literal?_enclose_eq_iff {value : List Char} :
    literal? escape (enclose '\'' '\'' text) = some (value, []) ↔
      Spares text ∧ unescaped escape text = value := by
  by_cases htext : Spares text
  · have hread : literal? escape (enclose '\'' '\'' text) = some (unescaped escape text, []) := by
      have hmeant : literal? escape (enclose '\'' '\'' text ++ [])
          = some (unescaped escape text, []) :=
        literal?_enclose escape htext (by simp)
      rwa [List.append_nil] at hmeant
    simp [hread, htext]
  · have hne := literal?_enclose_ne escape htext value
    simp [hne, htext]

end Quoted

namespace Dialect

open Quoted

theorem toList_quoteString_mysql (text : String) :
    (Dialect.mysql.quoteString text).toList = enclose '\'' '\'' text.toList := by
  simp [quoteString, isNational]

/-- **Which texts MySQL reads back,** whatever its table of escapes.

* A literal is read as the text that was written, with nothing left over, exactly if the text has no
  backslash.
* It ends where it was meant to exactly if the backslashes of the text spare the quotes.

Both hold as well in front of anything that does not start with a quote. -/
theorem mysql_literal_iff (escape : Char → Char) (text : String) :
    (literal? escape (Dialect.mysql.quoteString text).toList = some (text.toList, []) ↔
      '\\' ∉ text.toList) ∧
    ((∃ value, literal? escape (Dialect.mysql.quoteString text).toList = some (value, [])) ↔
      Spares text.toList) ∧
    ((∀ after, after.head? ≠ some '\'' →
        literal? escape ((Dialect.mysql.quoteString text).toList ++ after)
          = some (text.toList, after)) ↔ '\\' ∉ text.toList) ∧
    ((∀ after, after.head? ≠ some '\'' → ∃ value,
        literal? escape ((Dialect.mysql.quoteString text).toList ++ after)
          = some (value, after)) ↔ Spares text.toList) := by
  rw [toList_quoteString_mysql]
  have hself : literal? escape (enclose '\'' '\'' text.toList) = some (text.toList, []) ↔
      '\\' ∉ text.toList := by
    rw [literal?_enclose_eq_iff]
    constructor
    · rintro ⟨htext, hself⟩
      exact (unescaped_eq_self_iff htext).mp hself
    · intro hmem
      exact ⟨spares_of_not_mem hmem, unescaped_of_not_mem hmem⟩
  have hends : (∃ value, literal? escape (enclose '\'' '\'' text.toList) = some (value, [])) ↔
      Spares text.toList := by
    simp [literal?_enclose_eq_iff]
  refine ⟨hself, hends, ⟨fun h => ?_, fun hmem after hafter => ?_⟩,
    ⟨fun h => ?_, fun htext after hafter => ⟨_, literal?_enclose escape htext hafter⟩⟩⟩
  · have hnothing := h [] (by simp)
    rw [List.append_nil] at hnothing
    exact hself.mp hnothing
  · rw [literal?_enclose escape (spares_of_not_mem hmem) hafter, unescaped_of_not_mem hmem]
  · obtain ⟨value, hnothing⟩ := h [] (by simp)
    rw [List.append_nil] at hnothing
    exact hends.mp ⟨value, hnothing⟩

/-- A quote is read back in front of a condition that follows. -/
theorem mysql_quote_read_back :
    literal? Lexeme.plainEscape ((Dialect.mysql.quoteString "l'été").toList ++ " AND x".toList)
      = some ("l'été".toList, " AND x".toList) :=
  (mysql_literal_iff Lexeme.plainEscape "l'été").2.2.1.mpr (by decide) " AND x".toList (by decide)

/-- A backslash alone makes a literal that does not end, and one in front of a quote a literal that
ends early, with a condition behind it that the text brings along. -/
theorem mysql_backslash_breaks_out :
    literal? Lexeme.plainEscape (Dialect.mysql.quoteString "\\").toList = none ∧
      literal? Lexeme.plainEscape (Dialect.mysql.quoteString "\\' OR 1=1 -- ").toList
        = some (['\''], " OR 1=1 -- '".toList) := by
  decide +kernel

end Dialect

end LocalizedQuery
