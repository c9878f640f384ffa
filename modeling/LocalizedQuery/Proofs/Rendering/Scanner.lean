import LocalizedQuery.Sql.Token

/-!
# Comments in a text

Two minus signs in a row open a comment, unless they stand in a quoted name or a text literal. To
find them is to read a text from left to right and to remember where one is (`Place`): outside of
quotes, there perhaps behind a minus sign, or between quotes. A closing quote may turn out to be
doubled, so the place behind it is one of its own.

Texts are put together from tokens. `Passes` says where a piece leads that opens no comment, and the
pieces are read one after the other (`Passes.append`). The text of a token leads to a place that
depends on the token alone (`Token.placeBehind`), and it opens a comment only behind a minus sign
and only if it starts with another one (`Token.isSigned`).

## Main results

* `Passes.append` — pieces in a row
* `Token.passes_write` — where the text of a token leads
* `Token.opensComment_write` — what comes behind a minus sign
-/

namespace LocalizedQuery

/-- Where one is in a text: outside of quotes, behind a minus sign or not; between quotes; or behind
a closing quote, which another one would double. -/
inductive Place where
  | outside (behindMinus : Bool)
  | inside (close : Char)
  | behind (close : Char)
deriving DecidableEq, Repr

/-- The place behind a character that was met outside of quotes. -/
def Place.after (d : Dialect) (c : Char) : Place :=
  if c = '-' then .outside true
  else if c = d.nameQuotes.1 then .inside d.nameQuotes.2
  else if c = '\'' then .inside '\''
  else .outside false

/-- The place behind the next character. -/
def Place.next (d : Dialect) (place : Place) (c : Char) : Place :=
  match place with
  | .outside _ => after d c
  | .inside close => if c = close then .behind close else .inside close
  | .behind close => if c = close then .inside close else after d c

/-- Whether a text, read from a place on, opens a comment. -/
def opensComment (d : Dialect) : Place → List Char → Bool
  | _, [] => false
  | place, c :: rest =>
    (place == .outside true && c == '-') || opensComment d (place.next d c) rest

variable {d : Dialect}

theorem opensComment_append (place : Place) (text text' : List Char) :
    opensComment d place (text ++ text')
      = (opensComment d place text || opensComment d (text.foldl (Place.next d) place) text') := by
  induction text generalizing place with
  | nil => rfl
  | cons c text ih => rw [List.cons_append, opensComment, opensComment, ih, Bool.or_assoc]; rfl

/-- Reading a text leads from one place to another and opens no comment. -/
structure Passes (d : Dialect) (place : Place) (text : List Char) (place' : Place) : Prop where
  silent : opensComment d place text = false
  leads : text.foldl (Place.next d) place = place'

namespace Passes

variable {place place' place'' : Place} {text text' : List Char} {c : Char} {close : Char}

theorem nil (place : Place) : Passes d place [] place := ⟨rfl, rfl⟩

/-- **Pieces in a row.** -/
theorem append (h : Passes d place text place') (h' : Passes d place' text' place'') :
    Passes d place (text ++ text') place'' where
  silent := by rw [opensComment_append, h.silent, h.leads, h'.silent, Bool.false_or]
  leads := by rw [List.foldl_append, h.leads, h'.leads]

theorem cons (hc : ¬ (place = .outside true ∧ c = '-'))
    (h : Passes d (place.next d c) text place') : Passes d place (c :: text) place' where
  silent := by
    rw [opensComment, h.silent, Bool.or_false]
    simpa using hc
  leads := h.leads

/-- Outside of quotes nothing is remembered but a minus sign. -/
theorem behindMinus (hc : c ≠ '-') (h : Passes d (.outside false) (c :: text) place') :
    Passes d (.outside true) (c :: text) place' where
  silent := by
    have hrest := h.silent
    rw [opensComment, Bool.or_eq_false_iff] at hrest ⊢
    exact ⟨by simp [hc], hrest.2⟩
  leads := h.leads

/-! ## Quoted pieces -/

/-- A doubled text stays between its quotes. -/
theorem double (close : Char) (text : List Char) :
    Passes d (.inside close) (Quoted.double close text) (.inside close) := by
  induction text with
  | nil => exact nil _
  | cons c text ih =>
    rw [Quoted.double]
    split
    · rename_i hc
      subst hc
      refine cons (by simp) (cons (by simp [Place.next]) ?_)
      simpa [Place.next] using ih
    · rename_i hc
      refine cons (by simp) ?_
      simpa [Place.next, hc] using ih

theorem enclose {opening : Char} (hopening : Place.after d opening = .inside close)
    (text : List Char) :
    Passes d (.outside false) (Quoted.enclose opening close text) (.behind close) := by
  have hend : Passes d (.inside close) [close] (.behind close) :=
    cons (by simp) (by simpa [Place.next] using nil _)
  refine cons (by simp) ?_
  rw [Place.next, hopening]
  exact (double close text).append hend

end Passes

/-! ## Pieces without quotes -/

/-- Characters that neither quote nor start a comment in any dialect. -/
def IsCalm (c : Char) : Prop := c ∉ ['-', '\'', '"', '\u0060', '[']

instance : DecidablePred IsCalm := fun c => inferInstanceAs (Decidable (c ∉ _))

theorem IsCalm.after_eq {c : Char} (hc : IsCalm c) : Place.after d c = .outside false := by
  have hnames : c ≠ d.nameQuotes.1 := by
    rintro rfl
    cases d <;> exact absurd hc (by decide)
  have hminus : c ≠ '-' := fun h => hc (by simp [h])
  have hquote : c ≠ '\'' := fun h => hc (by simp [h])
  rw [Place.after, if_neg hminus, if_neg hnames, if_neg hquote]

theorem IsCalm.of_isDigit {c : Char} (hc : c.isDigit) : IsCalm c := by
  intro hmem
  simp only [List.mem_cons, List.not_mem_nil, or_false] at hmem
  rcases hmem with rfl | rfl | rfl | rfl | rfl <;> cases hc

/-- Whether a given text is calm is found out character by character. -/
theorem isCalm_of_all {text : List Char} (h : text.all (fun c => decide (IsCalm c)) = true) :
    ∀ c ∈ text, IsCalm c :=
  fun c hc => of_decide_eq_true (List.all_eq_true.mp h c hc)

/-- A calm text starts with something else than a minus sign. -/
theorem exists_calm_head {text : List Char} (htext : text ≠ []) (h : ∀ c ∈ text, IsCalm c) :
    ∃ c rest, text = c :: rest ∧ c ≠ '-' := by
  obtain ⟨c, rest, rfl⟩ := List.exists_cons_of_ne_nil htext
  refine ⟨c, rest, rfl, ?_⟩
  rintro rfl
  exact h '-' List.mem_cons_self (by decide)

namespace Passes

theorem calm {text : List Char} (h : ∀ c ∈ text, IsCalm c) :
    Passes d (.outside false) text (.outside false) := by
  induction text with
  | nil => exact nil _
  | cons c text ih =>
    refine cons (by simp) ?_
    rw [Place.next, (h c List.mem_cons_self).after_eq]
    exact ih fun c' hc' => h c' (List.mem_cons_of_mem c hc')

/-- A minus sign that starts a number. -/
theorem minus {text : List Char} (htext : text ≠ []) (h : ∀ c ∈ text, IsCalm c) :
    Passes d (.outside false) ('-' :: text) (.outside false) := by
  obtain ⟨c, rest, rfl, hc⟩ := exists_calm_head htext h
  exact cons (by simp) ((calm h).behindMinus hc)

end Passes

/-! ## Numbers -/

theorem toList_toString_nat (n : Nat) : (toString (n : Int)).toList = Nat.toDigits 10 n :=
  Nat.toList_repr

theorem toList_toString_negSucc (n : Nat) :
    (toString (Int.negSucc n)).toList = '-' :: Nat.toDigits 10 (n + 1) := by
  have htext : toString (Int.negSucc n) = "-" ++ Nat.repr (n + 1) := rfl
  rw [htext, String.toList_append, Nat.toList_repr]
  rfl

theorem isCalm_of_mem_toDigits {n : Nat} : ∀ c ∈ Nat.toDigits 10 n, IsCalm c :=
  fun _ hc => .of_isDigit (Nat.isDigit_of_mem_toDigits (by decide) (by decide) hc)

theorem Passes.int (n : Int) :
    Passes d (.outside false) (toString n).toList (.outside false) := by
  cases n with
  | ofNat n =>
    rw [Int.ofNat_eq_natCast, toList_toString_nat]
    exact calm isCalm_of_mem_toDigits
  | negSucc n =>
    rw [toList_toString_negSucc]
    exact minus Nat.toDigits_ne_nil isCalm_of_mem_toDigits

/-- What a decimal is written with: a text without a minus sign, and an exponent perhaps. -/
theorem DecimalLayout.write_eq (layout : DecimalLayout) (number : Decimal) :
    ∃ plain, plain ≠ [] ∧ (∀ c ∈ plain, IsCalm c) ∧
      (layout.write number = plain ∨
        ∃ n : Int, layout.write number = plain ++ 'e' :: (toString n).toList) := by
  have hdigits : ∀ c ∈ Nat.toDigits 10 number.digits, IsCalm c := isCalm_of_mem_toDigits
  have hzeros : ∀ count, ∀ c ∈ List.replicate count '0', IsCalm c := by
    intro count c hc
    rw [List.eq_of_mem_replicate hc]
    decide
  have hpoint : IsCalm '.' := by decide
  have hzero : IsCalm '0' := by decide
  fun_cases write layout number with
  | case1 digits point hrange hscale =>
    refine ⟨_, by simp, ?_, .inl rfl⟩
    exact List.forall_mem_append.mpr
      ⟨List.forall_mem_append.mpr ⟨hdigits, hzeros _⟩, by simp [hpoint, hzero]⟩
  | case2 digits point hrange hscale hpositive =>
    refine ⟨_, by simp, ?_, .inl rfl⟩
    exact List.forall_mem_append.mpr ⟨fun c hc => hdigits c (List.mem_of_mem_take hc),
      List.forall_mem_cons.mpr ⟨hpoint, fun c hc => hdigits c (List.mem_of_mem_drop hc)⟩⟩
  | case3 digits point hrange hscale hpositive =>
    refine ⟨_, by simp, ?_, .inl rfl⟩
    exact List.forall_mem_cons.mpr ⟨hzero, List.forall_mem_cons.mpr
      ⟨hpoint, List.forall_mem_append.mpr ⟨hzeros _, hdigits⟩⟩⟩
  | case4 digits point hrange exponent first second rest heq =>
    refine ⟨first :: '.' :: second :: rest, by simp, ?_, .inr ⟨point - 1, rfl⟩⟩
    have hall : ∀ c ∈ first :: second :: rest, IsCalm c := heq ▸ hdigits
    rw [List.forall_mem_cons] at hall ⊢
    exact ⟨hall.1, List.forall_mem_cons.mpr ⟨hpoint, hall.2⟩⟩
  | case5 digits point hrange exponent hsingle =>
    exact ⟨digits, Nat.toDigits_ne_nil, hdigits, .inr ⟨point - 1, rfl⟩⟩

/-- A decimal starts with something else than a minus sign. -/
theorem DecimalLayout.passes_write (layout : DecimalLayout) (number : Decimal) :
    ∃ c rest, layout.write number = c :: rest ∧ c ≠ '-' ∧
      Passes d (.outside false) (layout.write number) (.outside false) := by
  obtain ⟨plain, hplain, hcalm, hwrite⟩ := layout.write_eq number
  obtain ⟨c, rest, rfl, hc⟩ := exists_calm_head hplain hcalm
  rcases hwrite with hwrite | ⟨n, hwrite⟩
  · exact ⟨c, rest, hwrite, hc, hwrite ▸ .calm hcalm⟩
  · have hletter : Passes d (.outside false) ['e'] (.outside false) :=
      .calm (isCalm_of_all (by decide))
    refine ⟨c, _, hwrite, hc, ?_⟩
    rw [hwrite]
    exact (Passes.calm hcalm).append (hletter.append (.int n))

/-! ## Tokens -/

namespace Token

/-- Whether the text of a token starts with a minus sign. -/
def isSigned : Token → Bool
  | .minus => true
  | .int value => decide (value < 0)
  | .float (.finite negative _ _) => negative
  | _ => false

/-- The tokens that have a fixed text in each dialect, the minus sign apart. Of the functions only
`CONCAT` is one of them, which no dialect replaces. -/
def isFixed : Token → Bool
  | .minus | .name _ | .int _ | .float _ | .string _ | .indent _ => false
  | .function text => text == "CONCAT"
  | _ => true

/-- The tokens that expressions without calls consist of. -/
def isInner : Token → Bool
  | .minus | .name _ | .int _ | .float _ | .string _ => true
  | token => token.isFixed

/-- The place behind the text of a token. -/
def placeBehind (d : Dialect) : Token → Place
  | .minus => .outside true
  | .name _ => .behind d.nameQuotes.2
  | .string _ => .behind '\''
  | _ => .outside false

variable {token : Token} {text : String}

theorem placeBehind_of_isFixed (htoken : token.isFixed = true) :
    token.placeBehind d = .outside false := by
  cases token <;> simp_all [isFixed, placeBehind]

theorem isSigned_of_isFixed (htoken : token.isFixed = true) : token.isSigned = false := by
  cases token <;> simp_all [isFixed, isSigned]

/-- Fixed texts are calm. -/
theorem calm_write (htoken : token.isFixed = true) (h : token.write d = .ok text) :
    text.toList ≠ [] ∧ ∀ c ∈ text.toList, IsCalm c := by
  cases token with
  | minus | name | int | float | string | indent => cases htoken
  | keyword word =>
    cases h
    cases word <;> exact ⟨by decide, isCalm_of_all (by decide)⟩
  | concat =>
    cases h
    cases d <;> exact ⟨by decide, isCalm_of_all (by decide)⟩
  | bool value =>
    cases h
    cases d <;> cases value <;> exact ⟨by decide, isCalm_of_all (by decide)⟩
  | function name =>
    rw [isFixed, beq_iff_eq] at htoken
    subst htoken
    cases h
    cases d <;> exact ⟨by decide +kernel, isCalm_of_all (by decide +kernel)⟩
  | _ =>
    cases h
    exact ⟨by decide, isCalm_of_all (by decide)⟩

/-- The text of a double: the text of its decimal, and a minus sign before it if it is negative. -/
theorem write_finite {negative : Bool} {mantissa : Nat} {exponent : Int}
    (h : (Token.float (.finite negative mantissa exponent)).write d = .ok text) :
    ∃ number, text.toList = if negative then '-' :: plainLayout.write number
      else plainLayout.write number := by
  cases h
  exact ⟨_, String.toList_ofList⟩

/-- **Where the text of a token leads** from outside of quotes. -/
theorem passes_write (htoken : token.isInner = true) (h : token.write d = .ok text) :
    Passes d (.outside false) text.toList (token.placeBehind d) := by
  by_cases hfixed : token.isFixed = true
  · rw [placeBehind_of_isFixed hfixed]
    exact .calm (calm_write hfixed h).2
  cases token with
  | minus =>
    cases h
    exact .cons (by simp) (.nil _)
  | name name =>
    cases h
    rw [Dialect.quoteName, String.toList_ofList]
    exact .enclose (by cases d <;> rfl) name.toList
  | string value =>
    cases h
    have hquoted : Passes d (.outside false) (Quoted.enclose '\'' '\'' value.toList)
        (.behind '\'') := .enclose (by cases d <;> rfl) value.toList
    rw [Dialect.quoteString, String.toList_ofList]
    split
    · have hmark : Passes d (.outside false) ['N'] (.outside false) :=
        .calm (isCalm_of_all (by decide))
      exact hmark.append hquoted
    · exact hquoted
  | int value =>
    cases h
    exact .int value
  | float value =>
    cases value with
    | nan | infinity => cases h
    | finite negative mantissa exponent =>
      obtain ⟨number, htext⟩ := write_finite h
      obtain ⟨c, rest, hwrite, hc, hpasses⟩ := plainLayout.passes_write (d := d) number
      rw [htext]
      cases negative with
      | false => exact hpasses
      | true => exact .cons (by simp) (hwrite ▸ (hwrite ▸ hpasses).behindMinus hc)
  | _ => exact absurd htoken hfixed

/-- The text of a token starts with a minus sign if the token is signed, and only then. -/
theorem head_write (htoken : token.isInner = true) (h : token.write d = .ok text) :
    ∃ c rest, text.toList = c :: rest ∧ (c = '-' ↔ token.isSigned = true) := by
  by_cases hfixed : token.isFixed = true
  · obtain ⟨hne, hcalm⟩ := calm_write hfixed h
    obtain ⟨c, rest, htext, hc⟩ := exists_calm_head hne hcalm
    exact ⟨c, rest, htext, by simp [hc, isSigned_of_isFixed hfixed]⟩
  cases token with
  | minus =>
    cases h
    exact ⟨'-', [], rfl, by simp [isSigned]⟩
  | name name =>
    cases h
    have hquote : d.nameQuotes.1 ≠ '-' := by cases d <;> decide
    exact ⟨_, _, by rw [Dialect.quoteName, String.toList_ofList]; rfl, by simp [isSigned, hquote]⟩
  | string value =>
    cases h
    rw [Dialect.quoteString, String.toList_ofList]
    split
    · exact ⟨_, _, rfl, by simp [isSigned]⟩
    · exact ⟨_, _, rfl, by simp [isSigned]⟩
  | int value =>
    cases h
    cases value with
    | ofNat n =>
      obtain ⟨c, rest, htext, hc⟩ :=
        exists_calm_head Nat.toDigits_ne_nil (isCalm_of_mem_toDigits (n := n))
      exact ⟨c, rest, (toList_toString_nat n).trans htext, by simp [isSigned, hc]⟩
    | negSucc n =>
      exact ⟨'-', _, toList_toString_negSucc n, by simp [isSigned, Int.negSucc_lt_zero]⟩
  | float value =>
    cases value with
    | nan | infinity => cases h
    | finite negative mantissa exponent =>
      obtain ⟨number, htext⟩ := write_finite h
      obtain ⟨c, rest, hwrite, hc, -⟩ := plainLayout.passes_write (d := d) number
      rw [htext, hwrite]
      cases negative with
      | false => exact ⟨c, rest, rfl, by simp [isSigned, hc]⟩
      | true => exact ⟨'-', c :: rest, rfl, by simp [isSigned]⟩
  | _ => exact absurd htoken hfixed

/-- **What comes behind a minus sign** opens a comment if it is signed. -/
theorem opensComment_write (htoken : token.isInner = true) (h : token.write d = .ok text)
    (hsigned : token.isSigned = true) : opensComment d (.outside true) text.toList = true := by
  obtain ⟨c, rest, htext, hc⟩ := head_write htoken h
  rw [htext, opensComment, hc.mpr hsigned]
  rfl

theorem passes_write_behindMinus (htoken : token.isInner = true) (h : token.write d = .ok text)
    (hsigned : token.isSigned = false) :
    Passes d (.outside true) text.toList (token.placeBehind d) := by
  have hpasses := passes_write htoken h
  obtain ⟨c, rest, htext, hc⟩ := head_write htoken h
  rw [htext] at hpasses ⊢
  refine hpasses.behindMinus fun hminus => ?_
  rw [hc.mp hminus] at hsigned
  cases hsigned

end Token

end LocalizedQuery
