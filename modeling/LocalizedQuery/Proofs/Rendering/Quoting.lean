import LocalizedQuery.Sql.Token

/-!
# Quoted names and texts are read back

A name or a text is written between quotes, with the closing quote doubled inside. Reading stops at
the first closing quote that stands alone, so it can only be misled by a closing quote right behind:
that one would be taken for the second half of a double. Anything else may follow.

The reading and the writing determine each other (`Quoted.read_eq_some_iff`), so what is read is
never anything but a quoted text and what follows it. That different texts are written differently
is a consequence, for a text alone and for a text with something behind.

In MySQL a backslash escapes inside of text literals, so there only names are read in this way.

## Main results

* `Quoted.read_eq_some_iff`, `Quoted.scan?_eq_some_iff` — what is read is what was written
* `Quoted.enclose_append_inj` — quoted texts with something behind are told apart
* `Dialect.quoted_prefix_safe` — names and text literals of each dialect
-/

namespace LocalizedQuery

namespace Quoted

variable {opening close : Char} {source text text' rest rest' : List Char}

/-- A quoted text is read back if it is not followed by the closing character. -/
theorem read_double (text : List Char) (h : rest.head? ≠ some close) :
    read close (double close text ++ close :: rest) = some (text, rest) := by
  induction text with
  | nil =>
    cases rest with
    | nil => simp [double, read]
    | cons c rest =>
      have hc : c ≠ close := fun hc => h (by rw [hc, List.head?_cons])
      simp [double, read, hc]
  | cons c text ih =>
    obtain ⟨d, behind, hd⟩ : ∃ d behind, double close text ++ close :: rest = d :: behind := by
      cases double close text <;> simp
    by_cases hc : c = close
    · rw [double, if_pos hc, hc]
      simp [read, ih, Rest.cons]
    · rw [double, if_neg hc, List.cons_append, hd]
      rw [hd] at ih
      simp [read, hc, ih, Rest.cons]

/-- A reading that goes on after a character. -/
theorem map_cons_eq_some {c : Char} {reading : Option Rest}
    (h : reading.map (Rest.cons c) = some (text, rest)) :
    ∃ text', text = c :: text' ∧ reading = some (text', rest) := by
  obtain ⟨⟨text', rest'⟩, hreading, heq⟩ := Option.map_eq_some_iff.mp h
  obtain ⟨rfl, rfl⟩ := Prod.mk.inj heq
  exact ⟨text', rfl, hreading⟩

/-- **What is read is what was written,** and nothing else is read. -/
theorem read_eq_some_iff : read close source = some (text, rest) ↔
    source = double close text ++ close :: rest ∧ rest.head? ≠ some close := by
  refine ⟨fun h => ?_, fun ⟨hsource, hrest⟩ => hsource ▸ read_double text hrest⟩
  fun_induction read close source generalizing text with
  | case1 | case3 => cases h
  | case2 =>
    cases h
    exact ⟨rfl, by simp⟩
  | case4 behind ih =>
    -- Two closing characters in a row stand for one.
    obtain ⟨text', rfl, hread⟩ := map_cons_eq_some h
    obtain ⟨rfl, hrest⟩ := ih hread
    exact ⟨by simp [double], hrest⟩
  | case5 d behind hd =>
    cases h
    exact ⟨rfl, by simpa using hd⟩
  | case6 c d behind hc ih =>
    obtain ⟨text', rfl, hread⟩ := map_cons_eq_some h
    obtain ⟨hsource, hrest⟩ := ih hread
    exact ⟨by rw [double, if_neg hc, hsource, List.cons_append], hrest⟩

/-- Reads a quoted text with its opening character. -/
def scan? (opening close : Char) : List Char → Option Rest
  | [] => none
  | c :: source => if c = opening then read close source else none

/-- **A quoted text and what follows it,** read with the opening character. -/
theorem scan?_eq_some_iff : scan? opening close source = some (text, rest) ↔
    source = enclose opening close text ++ rest ∧ rest.head? ≠ some close := by
  cases source with
  | nil => simp [scan?, enclose]
  | cons c source =>
    by_cases hc : c = opening
    · simp [scan?, enclose, hc, read_eq_some_iff]
    · simp [scan?, enclose, hc]

/-- **Quoted texts are told apart** with whatever follows them. -/
theorem enclose_append_inj (hrest : rest.head? ≠ some close) (hrest' : rest'.head? ≠ some close)
    (h : enclose opening close text ++ rest = enclose opening close text' ++ rest') :
    text = text' ∧ rest = rest' := by
  have hread : scan? opening close (enclose opening close text ++ rest) = some (text, rest) :=
    scan?_eq_some_iff.mpr ⟨rfl, hrest⟩
  have hread' : scan? opening close (enclose opening close text ++ rest) = some (text', rest') :=
    scan?_eq_some_iff.mpr ⟨h, hrest'⟩
  exact Prod.mk.inj (Option.some.inj (hread.symm.trans hread'))

end Quoted

namespace Dialect

open Quoted

variable {d : Dialect} {rest : List Char}

/-- Reads a quoted name. -/
def scanName? (d : Dialect) : List Char → Option Rest := scan? d.nameQuotes.1 d.nameQuotes.2

/-- Reads a text literal, and says whether it is marked as national text. -/
def scanString? (d : Dialect) (source : List Char) : Option (Bool × Rest) :=
  if d = .tsql ∧ source.head? = some 'N' then (scan? '\'' '\'' source.tail).map (true, ·)
  else (scan? '\'' '\'' source).map (false, ·)

theorem toList_quoteName (d : Dialect) (name : String) :
    (d.quoteName name).toList = enclose d.nameQuotes.1 d.nameQuotes.2 name.toList :=
  String.toList_ofList

theorem toList_quoteString (d : Dialect) (text : String) :
    (d.quoteString text).toList
      = if d.isNational text then 'N' :: enclose '\'' '\'' text.toList
        else enclose '\'' '\'' text.toList :=
  String.toList_ofList

/-- Only T-SQL marks texts, and exactly those that leave ASCII. -/
theorem isNational_iff {text : String} :
    d.isNational text = true ↔ d = .tsql ∧ ∃ c ∈ text.toList, 128 ≤ c.toNat := by
  cases d <;> simp [isNational]

theorem head?_quoteString {text : String} :
    (d.quoteString text).toList.head? = some 'N' ↔ d.isNational text = true := by
  rw [toList_quoteString]
  cases d.isNational text <;> simp [enclose]

theorem scanName?_quoteName {name : String} :
    d.scanName? ((d.quoteName name).toList ++ rest) = some (name.toList, rest) ↔
      rest.head? ≠ some d.nameQuotes.2 := by
  rw [toList_quoteName, scanName?, scan?_eq_some_iff, and_iff_right rfl]

theorem scanString?_quoteString {text : String} :
    d.scanString? ((d.quoteString text).toList ++ rest)
        = some (d.isNational text, text.toList, rest) ↔ rest.head? ≠ some '\'' := by
  rw [toList_quoteString]
  cases hmark : d.isNational text with
  | true =>
    have htsql : d = .tsql := (isNational_iff.mp hmark).1
    simp [scanString?, htsql, scan?_eq_some_iff]
  | false =>
    have hhead : (enclose '\'' '\'' text.toList ++ rest).head? ≠ some 'N' := by
      simp [enclose]
    rw [if_neg Bool.false_ne_true, scanString?, if_neg fun h => hhead h.2]
    simp [scan?_eq_some_iff]

/-- Names are told apart, with whatever follows them. -/
theorem quoteName_append_inj (rest rest' : List Char) {name name' : String}
    (hrest : rest.head? ≠ some d.nameQuotes.2)
    (hrest' : rest'.head? ≠ some d.nameQuotes.2)
    (h : (d.quoteName name).toList ++ rest = (d.quoteName name').toList ++ rest') :
    name = name' ∧ rest = rest' := by
  rw [toList_quoteName, toList_quoteName] at h
  obtain ⟨hname, hsame⟩ := enclose_append_inj hrest hrest' h
  exact ⟨String.toList_inj.mp hname, hsame⟩

/-- Texts are told apart, with whatever follows them. -/
theorem quoteString_append_inj (rest rest' : List Char) {text text' : String}
    (hrest : rest.head? ≠ some '\'')
    (hrest' : rest'.head? ≠ some '\'')
    (h : (d.quoteString text).toList ++ rest = (d.quoteString text').toList ++ rest') :
    text = text' ∧ rest = rest' := by
  have hread : d.scanString? ((d.quoteString text).toList ++ rest)
      = some (d.isNational text, text.toList, rest) := scanString?_quoteString.mpr hrest
  have hread' : d.scanString? ((d.quoteString text').toList ++ rest')
      = some (d.isNational text', text'.toList, rest') := scanString?_quoteString.mpr hrest'
  rw [← h, hread, Option.some.injEq, Prod.mk.injEq, Prod.mk.injEq] at hread'
  exact ⟨String.toList_inj.mp hread'.2.1, hread'.2.2⟩

/-- A name and a text never start alike. -/
theorem quoteName_ne_quoteString (d : Dialect) (name text : String) (rest rest' : List Char) :
    (d.quoteName name).toList ++ rest ≠ (d.quoteString text).toList ++ rest' := by
  intro h
  have hhead := congrArg List.head? h
  rw [toList_quoteName, toList_quoteString] at hhead
  cases hmark : d.isNational text <;> cases d <;> simp [enclose, nameQuotes, hmark] at hhead

/-- **Quoted names and texts are read back,** whatever they are and whatever follows them, unless
that starts with the closing quote.

* A name is read back in each dialect.
* A text literal is read back where a backslash is nothing special, together with the `N` that
  stands in front exactly in T-SQL and exactly if the text leaves ASCII.
* So two names or two texts with something behind them are told apart, and so are a name and a text.
  In particular different names are written differently, and so are different texts. -/
theorem quoted_prefix_safe (d : Dialect) :
    (∀ (name : String) (rest : List Char),
      d.scanName? ((d.quoteName name).toList ++ rest) = some (name.toList, rest) ↔
        rest.head? ≠ some d.nameQuotes.2) ∧
    (d ≠ .mysql → ∀ (text : String) (rest : List Char),
      d.scanString? ((d.quoteString text).toList ++ rest)
          = some (d.isNational text, text.toList, rest) ↔ rest.head? ≠ some '\'') ∧
    (∀ text : String, (d.quoteString text).toList.head? = some 'N' ↔
      d = .tsql ∧ ∃ c ∈ text.toList, 128 ≤ c.toNat) ∧
    (∀ (name name' : String) (rest rest' : List Char), rest.head? ≠ some d.nameQuotes.2 →
      rest'.head? ≠ some d.nameQuotes.2 →
      (d.quoteName name).toList ++ rest = (d.quoteName name').toList ++ rest' →
      name = name' ∧ rest = rest') ∧
    (d ≠ .mysql → ∀ (text text' : String) (rest rest' : List Char), rest.head? ≠ some '\'' →
      rest'.head? ≠ some '\'' →
      (d.quoteString text).toList ++ rest = (d.quoteString text').toList ++ rest' →
      text = text' ∧ rest = rest') ∧
    (∀ name name', (Token.name name).write d = (Token.name name').write d ↔ name = name') ∧
    (∀ text text', (Token.string text).write d = (Token.string text').write d ↔ text = text') ∧
    ∀ name text, (Token.name name).write d ≠ (Token.string text).write d := by
  refine ⟨fun name rest => scanName?_quoteName, fun _ text rest => scanString?_quoteString,
    fun text => head?_quoteString.trans isNational_iff,
    fun name name' rest rest' => quoteName_append_inj rest rest',
    fun _ text text' rest rest' => quoteString_append_inj rest rest',
    fun name name' => ⟨fun h => ?_, fun h => h ▸ rfl⟩,
    fun text text' => ⟨fun h => ?_, fun h => h ▸ rfl⟩, fun name text h => ?_⟩
  · have hsame : d.quoteName name = d.quoteName name' := Except.ok.inj h
    exact (quoteName_append_inj [] [] (by simp) (by simp) (by rw [hsame])).1
  · have hsame : d.quoteString text = d.quoteString text' := Except.ok.inj h
    exact (quoteString_append_inj [] [] (by simp) (by simp) (by rw [hsame])).1
  · have hsame : d.quoteName name = d.quoteString text := Except.ok.inj h
    exact quoteName_ne_quoteString d name text [] [] (by rw [hsame])

/-- A text of two quotes and a letter that leaves ASCII, in front of a condition: the quotes do not
end it. -/
theorem scanString?_quoted_quotes :
    Dialect.tsql.scanString? ((Dialect.tsql.quoteString "''é").toList ++ " AND x".toList)
      = some (true, "''é".toList, " AND x".toList) :=
  ((quoted_prefix_safe .tsql).2.1 (by decide) "''é" " AND x".toList).mpr (by decide)

end Dialect

end LocalizedQuery
