import LocalizedQuery.Proofs.Decimal.Shortest
import LocalizedQuery.Proofs.Decimal.Text
import LocalizedQuery.Proofs.Inference.Tolerance
import LocalizedQuery.Proofs.Predicate.Numbers
import LocalizedQuery.Proofs.Predicate.Resolution

/-!
# Integers from text to query

An integer of a text below `2 ^ 63` is written as it is. A greater one becomes the nearest double,
and what is written for that is its shortest decimal: an integer again, that any reader takes for
the same double, but not always the one that was spelled (`large_integer_rounded`). Up to fifteen
significant digits survive, and more than seventeen never do. From `Double.limit` on there is no
double, and the text is refused.

So the rounding is no accident of the way: what is written is read as the double that the text
denotes, and no rounder integer would do.

All this is about the integers that a query is made from. Those inside the clauses of a call, which
lowering passes over, are none of them (`Tree.numerals`).

## Main results

* `Tree.Becomes.kept` — what becomes of one integer
* `parsePredicate_integers` — and of all integers in the tree of a text
* `large_integer_rounded` — an integer that is written as another one
-/

namespace LocalizedQuery

/-- An integer `m` as it may be written for an integer `n` that a text spells. Integers below
`2 ^ 63` are kept. A greater one may be exchanged for one that is read as the same double and ends
in as many zeros as possible. -/
structure WrittenFor (n m : Nat) : Prop where
  small : n < 2 ^ 63 → m = n
  /-- Both are read as the same double. -/
  alike : Double.ofText? (toString m) = Double.ofText? (toString n)
  /-- No integer that is read as the same double ends in more zeros. -/
  roundest : 2 ^ 63 ≤ n → ∀ other k : Nat,
    Double.ofText? (toString other) = Double.ofText? (toString n) → 10 ^ k ∣ other → 10 ^ k ∣ m
  /-- The difference is small in relation to the integer. -/
  close : ((m : Int) - n).natAbs * 2 ^ 52 ≤ n
  /-- Fifteen significant digits survive. -/
  few : ∀ c k, c < 10 ^ 15 → n = c * 10 ^ k → m = n
  /-- More than seventeen significant digits do not. -/
  short : 2 ^ 63 ≤ n → ∃ c k, c < 10 ^ 17 ∧ m = c * 10 ^ k

theorem WrittenFor.refl {n : Nat} (h : n < 2 ^ 63) : WrittenFor n n where
  small _ := rfl
  alike := rfl
  roundest hn := absurd h (Nat.not_lt.mpr hn)
  close := by simp
  few _ _ _ _ := rfl
  short hn := absurd h (Nat.not_lt.mpr hn)

namespace Tree

/-- Whether a spelling is that of an integer. -/
def IsInteger (digits : String) : Prop :=
  digits.toList ≠ [] ∧ ∀ c ∈ digits.toList, c.isDigit = true

/-- The integer that a spelling denotes. -/
def integer (digits : String) : Nat := Double.digitsValue digits.toList

variable {digits : String}

theorem smallInteger?_of_isInteger (h : IsInteger digits) :
    smallInteger? digits =
      if integer digits < 2 ^ 63 then some (integer digits : Int) else none := by
  have hempty : digits.isEmpty = false := by
    rw [Bool.eq_false_iff, Ne, String.isEmpty_iff]
    rintro rfl
    exact h.1 rfl
  have hall : digits.all Char.isDigit = true := by
    rw [String.all_bool_eq, List.all_eq_true]
    exact h.2
  rw [smallInteger?, hempty, hall]
  rfl

/-- An integer is read as the nearest double. -/
theorem ofText?_of_isInteger (h : IsInteger digits) :
    Double.ofText? digits = some (Double.ofRatio false (integer digits) 1) := by
  obtain ⟨c, rest, hdigits⟩ := List.exists_cons_of_ne_nil h.1
  have hc : c.isDigit = true := h.2 c (hdigits ▸ List.mem_cons_self)
  have hvalue := Double.ofDecimal_eq_ofRatio false (integer digits) 0
  rw [Nat.pow_zero, Nat.mul_one] at hvalue
  rw [Double.ofText?_of_isDigit hdigits hc, Decimal.read?_of_isDigit h.2 h.1, Option.map_some]
  exact congrArg some hvalue

theorem isInteger_toString (n : Nat) : IsInteger (toString n) ∧ integer (toString n) = n := by
  have htext : (toString n).toList = Nat.toDigits 10 n := Nat.toList_repr
  refine ⟨⟨?_, ?_⟩, ?_⟩
  · rw [htext]
    exact Nat.toDigits_ne_nil
  · rw [htext]
    exact fun _ => Decimal.isDigit_of_mem_toDigits
  · rw [integer, htext, Decimal.digitsValue_toDigits]

theorem ofText?_toString (n : Nat) :
    Double.ofText? (toString n) = some (Double.ofRatio false n 1) := by
  obtain ⟨hinteger, hvalue⟩ := isInteger_toString n
  rw [ofText?_of_isInteger hinteger, hvalue]

/-! ## One integer -/

end Tree

/-- What the shortest decimal of a large double is to an integer that is read as the double. -/
theorem Coarse.exists_writtenFor {x : Coarse} {n : Nat} (hn : x.interval.Holds n)
    (hlow : 11 ≤ x.exponent) (hhigh : x.exponent ≤ 971) (hlarge : 2 ^ 63 ≤ n) :
    ∃ digits scale : Nat, Double.shortest x.mantissa x.exponent = ⟨digits, scale⟩ ∧
      x.interval.Holds (digits * 10 ^ scale) ∧ WrittenFor n (digits * 10 ^ scale) := by
  obtain ⟨digits, scale, hshortest, hholds, hzeros, -, hshort⟩ := x.exists_shortest hlow
  have hread : ∀ other, x.interval.Holds other ↔
      Double.ofText? (toString other) = Double.ofText? (toString n) := by
    intro other
    rw [Tree.ofText?_toString, Tree.ofText?_toString, Option.some_inj,
      (ofRatio_eq_iff (by omega) hhigh).mpr hn, ofRatio_eq_iff (by omega) hhigh]
  have hclose := (natAbs_sub_le hn hholds).2
  refine ⟨digits, scale, hshortest, hholds, ?_⟩
  exact
    { small := fun hsmall => absurd hlarge (Nat.not_le.mpr hsmall)
      alike := (hread _).mp hholds
      roundest := fun _ other k hother => hzeros other k ((hread other).mpr hother)
      close := hclose
      few := fun c k hc hck => by
        have hdvd : 10 ^ k ∣ n := hck ▸ Nat.dvd_mul_left _ _
        have hlt : n < 10 ^ 15 * 10 ^ k := by
          rw [hck]
          exact Nat.mul_lt_mul_of_pos_right hc (Nat.pow_pos (by decide))
        exact eq_of_dvd (by omega) hdvd (hzeros n k hn hdvd)
      short := fun _ => hshort }

/-- A literal that stands for an integer: in each dialect it has the same text, that of an integer
which may be written for the one that is spelled, and which is read as the same double. -/
def Tree.Kept (digits : String) (value : Literal) : Prop :=
  ∃ (written : String) (m : Nat), (∀ d, (Expr.literal value).toSql d = .ok written) ∧
    Decimal.valueOf? written = some (m : ℚ) ∧
    Double.ofText? written = Double.ofText? digits ∧ WrittenFor (integer digits) m

theorem Expr.toSql_literal {value : Literal} {written : String} {d : Dialect}
    (h : value.token.write d = .ok written) : (Expr.literal value).toSql d = .ok written := by
  have htokens : (Expr.literal value).tokens d = [value.token] := rfl
  have hjoin : String.join [written] = written := by simp [String.join]
  rw [toSql, htokens, Token.writeAll, List.mapM_cons, List.mapM_nil, h]
  exact congrArg Except.ok hjoin

namespace Tree

variable {digits : String} {value : Literal}

theorem exists_kept_small (h : IsInteger digits) (hsmall : integer digits < 2 ^ 63) :
    ∃ value, Becomes digits value ∧ Kept digits value := by
  have hlower : Becomes digits (.int (integer digits)) := by
    rw [Becomes, lowerNumber, smallInteger?_of_isInteger h, if_pos hsmall]
  have hread : Double.ofText? (toString (integer digits : Int)) = Double.ofText? digits := by
    rw [show toString (integer digits : Int) = toString (integer digits) from rfl,
      ofText?_toString, ofText?_of_isInteger h]
  exact ⟨_, hlower, toString (integer digits : Int), integer digits,
    fun d => Expr.toSql_literal rfl, Decimal.valueOf?_toString _, hread, .refl hsmall⟩

theorem exists_kept_large (h : IsInteger digits) (hlarge : 2 ^ 63 ≤ integer digits)
    (hlimit : integer digits < Double.limit) :
    ∃ value, Becomes digits value ∧ Kept digits value := by
  obtain ⟨x, hx, hlog⟩ := Coarse.exists_holds (show 2 ^ 54 ≤ integer digits by omega)
  have hhigh : x.exponent ≤ 971 := (Coarse.exponent_le_iff hx).mpr hlimit
  have hlow : 11 ≤ x.exponent := by
    have := (Nat.le_log2 (show integer digits ≠ 0 by omega)).mpr hlarge
    omega
  obtain ⟨shortest, scale, hshortest, hholds, hwritten⟩ :=
    Coarse.exists_writtenFor hx hlow hhigh hlarge
  have hread : ∀ {n : Nat}, x.interval.Holds n →
      Double.ofRatio false n 1 = .finite false x.mantissa x.exponent :=
    fun hn => (Coarse.ofRatio_eq_iff (by omega) hhigh).mpr hn
  have hdigits : Double.ofText? digits = some (.finite false x.mantissa x.exponent) := by
    rw [ofText?_of_isInteger h, hread hx]
  have hlower : Becomes digits (.float (.finite false x.mantissa x.exponent)) := by
    rw [Becomes, lowerNumber, smallInteger?_of_isInteger h, if_neg (Nat.not_lt.mpr hlarge), hdigits]
    rfl
  -- an integer of this size is written with an exponent
  have hlayout : Decimal.read? (plainLayout.write ⟨shortest, scale⟩) = some ⟨shortest, scale⟩ := by
    have hgreat := Coarse.pow_le_of_holds hlow hholds
    have hbelow : shortest * 10 ^ scale < 10 ^ (Double.digitCount shortest + scale) := by
      rw [Nat.pow_add]
      exact Nat.mul_lt_mul_of_pos_right (Double.lt_pow_digitCount _) (Nat.pow_pos (by decide))
    rw [Decimal.read?_write, if_neg]
    rintro ⟨-, hpoint, -⟩
    have hfew : 10 ^ (Double.digitCount shortest + scale) ≤ 10 ^ 16 :=
      Nat.pow_le_pow_right (by decide) (by simp only [plainLayout] at hpoint; omega)
    omega
  refine ⟨_, hlower, String.ofList (plainLayout.write ⟨shortest, scale⟩), shortest * 10 ^ scale,
    fun d => Expr.toSql_literal ?_, ?_, ?_, hwritten⟩
  · rw [Literal.token, Token.write, Token.writeDouble, Double.toText, hshortest]
    rfl
  · rw [Decimal.valueOf?, String.toList_ofList, Decimal.value_read?_write, Decimal.value]
    simp
  · obtain ⟨c, rest, hwrite, hc⟩ := Decimal.exists_isDigit_write plainLayout ⟨shortest, scale⟩
    rw [Double.ofText?_of_isDigit (by rw [String.toList_ofList, hwrite]) hc, String.toList_ofList,
      hlayout, Option.map_some, Double.ofDecimal_eq_ofRatio, hread hholds, hdigits]

/-- Out of the range of doubles there is no literal. -/
theorem lowerNumber_of_limit_le (h : IsInteger digits) (hlimit : Double.limit ≤ integer digits) :
    lowerNumber digits = .error ⟨"number " ++ digits⟩ := by
  have hlarge : 2 ^ 63 ≤ Double.limit := by decide +kernel
  rw [lowerNumber, smallInteger?_of_isInteger h, if_neg (Nat.not_lt.mpr (hlarge.trans hlimit)),
    ofText?_of_isInteger h, Double.ofRatio_of_limit_le hlimit]
  rfl

/-- What becomes of an integer. -/
theorem Becomes.kept (hlower : Becomes digits value) (h : IsInteger digits) :
    integer digits < Double.limit ∧ Kept digits value := by
  rcases Nat.lt_or_ge (integer digits) Double.limit with hlimit | hlimit
  · obtain ⟨value', hlower', hkept⟩ : ∃ value, Becomes digits value ∧ Kept digits value :=
      (Nat.lt_or_ge (integer digits) (2 ^ 63)).elim (exists_kept_small h)
        (exists_kept_large h · hlimit)
    have hsame : value' = value := by
      rw [Becomes] at hlower hlower'
      rw [hlower, Except.ok.injEq, Expr.literal.injEq] at hlower'
      exact hlower'.symm
    exact ⟨hlimit, hsame ▸ hkept⟩
  · rw [Becomes, lowerNumber_of_limit_le h hlimit] at hlower
    cases hlower

end Tree

/-! ## All integers of a text -/

/-- **The integers of a text,** as far as they are leaves of its tree and not inside the clauses of a
call, where no number comes from the names that are claimed. A text with an integer from
`Double.limit` on is refused. Otherwise each number becomes one literal of the expression, in the
same order, and that is one token of what is rendered in any dialect; for an integer, the text of
the literal is the same in each dialect and denotes an integer that may be written for it. -/
theorem parsePredicate_integers {resolve : String → Option Expr}
    (hresolve : ∀ name e, resolve name = some e → e.numbers = []) {text : String} {tree : Tree}
    (htree : Tree.ofText text = .ok tree) :
    (∀ digits ∈ tree.numerals, Tree.IsInteger digits → Double.limit ≤ Tree.integer digits →
      ∃ form, parsePredicate resolve text = .error (.unsupported form)) ∧
    ∀ e, parsePredicate resolve text = .ok e →
      List.Forall₂ (fun digits value => Tree.Becomes digits value ∧
        (Tree.IsInteger digits → Tree.Kept digits value)) tree.numerals e.numbers ∧
      ∀ d, (e.tokens d).filter Token.isNumber = e.numbers.map Literal.token := by
  rw [parsePredicate_of_tree htree]
  constructor
  · intro digits hdigits hinteger hlimit
    cases hlower : tree.lower resolve with
    | error form => exact ⟨form, rfl⟩
    | ok e =>
      obtain ⟨value, -, hvalue⟩ :=
        exists_of_forall₂ (Tree.forall₂_numbers hresolve tree hlower) hdigits
      exact absurd (hvalue.kept hinteger).1 (Nat.not_lt.mpr hlimit)
  · intro e he
    refine ⟨?_, fun d => e.filter_isNumber_tokens d⟩
    exact (Tree.forall₂_numbers hresolve tree (mapError_eq_ok.mp he)).imp
      fun digits value hvalue => ⟨hvalue, fun hinteger => (hvalue.kept hinteger).2⟩

theorem tree_large_views : Tree.ofText "views > 9223372036854775809" = .ok
    (.binary (.name ⟨"views", none⟩) (.known .gt) (.number "9223372036854775809" false)) := by
  decide +kernel

/-- An integer that needs more than 64 bits is read as a double. -/
theorem parse_large_views {resolve : String → Option Expr} (hviews : resolve "views" = none) :
    parsePredicate resolve "views > 9223372036854775809" = .ok
      (.binary .gt (.column none "views") (.literal (.float (.finite false (2 ^ 52) 11)))) := by
  have hsmall : Tree.smallInteger? "9223372036854775809" = none := by
    rw [Tree.smallInteger?, String.all_bool_eq]
    rfl
  have hdouble : (Double.ofText? "9223372036854775809").filter Double.isFinite
      = some (.finite false (2 ^ 52) 11) := by
    decide +kernel
  rw [parsePredicate_of_tree tree_large_views]
  simp [Tree.lower, Tree.lowerNumber, hviews, hsmall, hdouble, bind_eq_ok, mapError_eq_ok]

/-- The names of a model bring no numbers. -/
theorem LocalizedModel.numbers_of_resolve {t : LocalizedModel} {locale : Locale} (name : String)
    (e : Expr) (h : t.resolve locale name = some e) : e.numbers = [] := by
  obtain ⟨ref, rfl⟩ := localized_of_resolve name e h
  rfl

/-- An integer that is one more than a double, in a text for a model. -/
theorem large_views_kept :
    Tree.ofText "views > 9223372036854775809" = .ok
        (.binary (.name ⟨"views", none⟩) (.known .gt) (.number "9223372036854775809" false)) ∧
      ∃ e, LocalizedModel.posts.parse "views > 9223372036854775809" ⟨"en"⟩ = .ok e ∧
        ∃ value, e.numbers = [value] ∧ Tree.Kept "9223372036854775809" value := by
  have hparse := @parse_large_views (LocalizedModel.posts.resolve ⟨"en"⟩) rfl
  have hinteger : Tree.IsInteger "9223372036854775809" :=
    ⟨by decide, List.all_eq_true.mp (by decide)⟩
  obtain ⟨hnumbers, -⟩ :=
    (parsePredicate_integers LocalizedModel.numbers_of_resolve tree_large_views).2 _ hparse
  refine ⟨tree_large_views, _, hparse, _, rfl, ?_⟩
  cases hnumbers with
  | cons hfirst _ => exact hfirst.2 hinteger

/-- **An integer that is written as another one:** the double next to it is `2 ^ 63`, and the
shortest decimal of that ends in three zeros. -/
theorem large_integer_rounded :
    parsePredicate (fun _ => none) "views > 9223372036854775809" = .ok
        (.binary .gt (.column none "views") (.literal (.float (.finite false (2 ^ 52) 11)))) ∧
      (∀ d, (Expr.literal (.float (.finite false (2 ^ 52) 11))).toSql d
        = .ok "9.223372036854776e18") ∧
      Decimal.valueOf? "9223372036854775809" = some 9223372036854775809 ∧
      Decimal.valueOf? "9.223372036854776e18" = some 9223372036854776000 ∧
      (9223372036854776000 : ℚ) ≠ 9223372036854775809 := by
  have htext : (Double.finite false (2 ^ 52) 11).toText = "9.223372036854776e18" := by
    decide +kernel
  have hspelled : Decimal.read? "9223372036854775809".toList
      = some ⟨9223372036854775809, 0⟩ := by
    decide +kernel
  have hwritten : Decimal.read? "9.223372036854776e18".toList = some ⟨9223372036854776, 3⟩ := by
    decide +kernel
  refine ⟨parse_large_views rfl, fun d => Expr.toSql_literal (congrArg Except.ok htext), ?_, ?_,
    by norm_num⟩
  · rw [Decimal.valueOf?, hspelled, Option.map_some, Decimal.value]
    norm_num
  · rw [Decimal.valueOf?, hwritten, Option.map_some, Decimal.value]
    norm_num

end LocalizedQuery
