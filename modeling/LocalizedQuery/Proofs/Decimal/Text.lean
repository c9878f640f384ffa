import LocalizedQuery.Proofs.Rendering.Scanner
import Mathlib.Algebra.Field.Rat
import Mathlib.Algebra.Order.Field.Power
import Mathlib.Tactic.FieldSimp

/-!
# What decimal text denotes

A text of digits with an optional fraction and exponent denotes a number (`Decimal.valueOf?`). That
has nothing to do with doubles: the text is read as a decimal first, where nothing is lost, and the
rounding comes after it (`Double.ofUnsigned?_eq_map`).

Whatever the layout, the text of a decimal is read as the number that was written
(`Decimal.value_read?_write`). It is the same decimal, too, except where an integer is written with
a `0` behind its point, which counts as one of its digits.

## Main results

* `Decimal.read?_write`, `Decimal.value_read?_write` — reading what is written
* `Decimal.valueOf?_toString` — the text of an integer denotes it
* `Double.ofText?_of_isDigit` — a text is read as a decimal before it is rounded
-/

namespace LocalizedQuery

namespace Decimal

/-- The number that a decimal is. -/
def value (d : Decimal) : ℚ := d.digits * 10 ^ d.scale

/-- Reads the exponent that may follow the digits. -/
def exponent? : List Char → Option Int
  | [] => some 0
  | c :: rest => if c = 'e' ∨ c = 'E' then Double.exponentValue? rest else none

/-- Reads digits with an optional fraction and exponent. -/
def read? (text : List Char) : Option Decimal :=
  let whole := text.takeWhile Char.isDigit
  let rest := text.dropWhile Char.isDigit
  let (fraction, rest) := match rest with
    | '.' :: rest => (rest.takeWhile Char.isDigit, rest.dropWhile Char.isDigit)
    | _ => ([], rest)
  if whole ++ fraction = [] then none
  else (exponent? rest).map fun exponent =>
    ⟨Double.digitsValue (whole ++ fraction), exponent - fraction.length⟩

/-- The number that a text without a sign denotes. -/
def valueOf? (text : String) : Option ℚ := (read? text.toList).map value

end Decimal

theorem Double.ofUnsigned?_eq_map (negative : Bool) (text : List Char) :
    ofUnsigned? negative text =
      (Decimal.read? text).map fun d => ofDecimal negative d.digits d.scale := by
  rw [ofUnsigned?, Decimal.read?]
  dsimp only
  generalize text.dropWhile Char.isDigit = after
  have hmap : ∀ fraction rest : List Char,
      (if text.takeWhile Char.isDigit ++ fraction = [] then none
        else (Decimal.exponent? rest).map fun exponent =>
          ofDecimal negative (digitsValue (text.takeWhile Char.isDigit ++ fraction))
            (exponent - fraction.length))
      = Option.map (fun d : Decimal => ofDecimal negative d.digits d.scale)
        (if text.takeWhile Char.isDigit ++ fraction = [] then none
          else (Decimal.exponent? rest).map fun exponent =>
            ⟨digitsValue (text.takeWhile Char.isDigit ++ fraction),
              exponent - fraction.length⟩) := by
    intro fraction rest
    split_ifs
    · rfl
    · rw [Option.map_map]
      rfl
  split
  · exact hmap _ _
  · simp only
    exact hmap [] after

namespace Decimal

variable {text whole fraction tail : List Char}

/-! ## Digits -/

theorem digitsValue_append (text text' : List Char) :
    Double.digitsValue (text ++ text') =
      10 ^ text'.length * Double.digitsValue text + Double.digitsValue text' :=
  (Nat.ofDigitChars_append 0).trans Nat.ofDigitChars_eq_ofDigitChars_zero

theorem digitsValue_replicate (count : Nat) :
    Double.digitsValue (List.replicate count '0') = 0 :=
  Nat.ofDigitChars_replicate_zero

theorem digitsValue_toDigits (n : Nat) : Double.digitsValue (Nat.toDigits 10 n) = n :=
  Nat.ofDigitChars_ten_toDigits

theorem isDigit_of_mem_toDigits {n : Nat} {c : Char} (hc : c ∈ Nat.toDigits 10 n) :
    c.isDigit = true :=
  Nat.isDigit_of_mem_toDigits (by decide) (by decide) hc

/-! ## Reading -/

/-- What can follow the digits: nothing or an exponent. -/
def IsTail (tail : List Char) : Prop := tail = [] ∨ ∃ rest, tail = 'e' :: rest

theorem IsTail.takeWhile (h : IsTail tail) : tail.takeWhile Char.isDigit = [] := by
  obtain rfl | ⟨rest, rfl⟩ := h <;> rfl

theorem IsTail.dropWhile (h : IsTail tail) : tail.dropWhile Char.isDigit = tail := by
  obtain rfl | ⟨rest, rfl⟩ := h <;> rfl

/-- Digits without a point. -/
theorem read?_whole (hwhole : ∀ c ∈ whole, c.isDigit = true) (hne : whole ≠ [])
    (htail : IsTail tail) :
    read? (whole ++ tail) = (exponent? tail).map fun e => ⟨Double.digitsValue whole, e⟩ := by
  have htake : (whole ++ tail).takeWhile Char.isDigit = whole := by
    rw [List.takeWhile_append_of_pos hwhole, htail.takeWhile, List.append_nil]
  have hdrop : (whole ++ tail).dropWhile Char.isDigit = tail := by
    rw [List.dropWhile_append_of_pos hwhole, htail.dropWhile]
  rw [read?, htake, hdrop]
  obtain rfl | ⟨rest, rfl⟩ := htail <;> simp [hne]

/-- Digits with a point. -/
theorem read?_point (hwhole : ∀ c ∈ whole, c.isDigit = true)
    (hfraction : ∀ c ∈ fraction, c.isDigit = true) (hne : whole ++ fraction ≠ [])
    (htail : IsTail tail) :
    read? (whole ++ '.' :: (fraction ++ tail)) =
      (exponent? tail).map fun e =>
        ⟨Double.digitsValue (whole ++ fraction), e - fraction.length⟩ := by
  have htake : (whole ++ '.' :: (fraction ++ tail)).takeWhile Char.isDigit = whole := by
    rw [List.takeWhile_append_of_pos hwhole, List.takeWhile_cons_of_neg (by decide),
      List.append_nil]
  have hdrop : (whole ++ '.' :: (fraction ++ tail)).dropWhile Char.isDigit
      = '.' :: (fraction ++ tail) := by
    rw [List.dropWhile_append_of_pos hwhole, List.dropWhile_cons_of_neg (by decide)]
  have htake' : (fraction ++ tail).takeWhile Char.isDigit = fraction := by
    rw [List.takeWhile_append_of_pos hfraction, htail.takeWhile, List.append_nil]
  have hdrop' : (fraction ++ tail).dropWhile Char.isDigit = tail := by
    rw [List.dropWhile_append_of_pos hfraction, htail.dropWhile]
  rw [read?, htake, hdrop]
  simp only [htake', hdrop', if_neg hne]

theorem exponentValue?_toString (n : Int) :
    Double.exponentValue? (toString n).toList = some n := by
  have hdigits : ∀ n, Nat.toDigits 10 n ≠ [] ∧ (Nat.toDigits 10 n).all Char.isDigit = true :=
    fun _ => ⟨Nat.toDigits_ne_nil, List.all_eq_true.mpr fun _ => isDigit_of_mem_toDigits⟩
  cases n with
  | ofNat n =>
    rw [Int.ofNat_eq_natCast, toList_toString_nat]
    unfold Double.exponentValue?
    split
    case h_1 heq =>
      have := isDigit_of_mem_toDigits (heq ▸ List.mem_cons_self)
      simp at this
    case h_2 heq =>
      have := isDigit_of_mem_toDigits (heq ▸ List.mem_cons_self)
      simp at this
    case h_3 => rw [if_pos (hdigits n), digitsValue_toDigits]
  | negSucc n =>
    rw [toList_toString_negSucc]
    rw [Double.exponentValue?, if_pos (hdigits (n + 1)), digitsValue_toDigits]
    rfl

theorem exponent?_toString (n : Int) : exponent? ('e' :: (toString n).toList) = some n := by
  rw [exponent?, if_pos (.inl rfl), exponentValue?_toString]

/-! ## Reading what is written -/

/-- **Reading what is written.** An integer that is written without an exponent gets another digit;
any other decimal is read as it was. -/
theorem read?_write (layout : DecimalLayout) (d : Decimal) :
    read? (layout.write d) = some
      (if layout.least < d.scale + Double.digitCount d.digits ∧
          d.scale + Double.digitCount d.digits ≤ layout.most ∧ 0 ≤ d.scale then
        ⟨d.digits * 10 ^ d.scale.toNat * 10, -1⟩
      else d) := by
  have hdigits : ∀ c ∈ Nat.toDigits 10 d.digits, c.isDigit = true :=
    fun _ => isDigit_of_mem_toDigits
  have hzeros : ∀ count, ∀ c ∈ List.replicate count '0', c.isDigit = true := by
    intro count c hc
    rw [List.eq_of_mem_replicate hc]
    rfl
  have hzero : ∀ c ∈ ['0'], c.isDigit = true := by simp
  have hvalue : Double.digitsValue (Nat.toDigits 10 d.digits) = d.digits := digitsValue_toDigits _
  -- a number with a given value is `d` if the place of its point is right
  have hsame : ∀ {digits : Nat} {scale : Int}, digits = d.digits → scale = d.scale →
      (⟨digits, scale⟩ : Decimal) = d := by
    rintro _ _ rfl rfl
    rfl
  rw [Double.digitCount]
  fun_cases DecimalLayout.write layout d with
  | case1 digits point hrange hscale =>
    have hpadded : ∀ c ∈ digits ++ List.replicate d.scale.toNat '0', c.isDigit = true :=
      List.forall_mem_append.mpr ⟨hdigits, hzeros _⟩
    have hread := read?_point hpadded hzero (by simp) (.inl rfl)
    rw [digitsValue_append, digitsValue_append, digitsValue_replicate, hvalue] at hread
    rw [if_pos ⟨hrange.1, hrange.2, hscale⟩]
    refine hread.trans (congrArg some ?_)
    rw [List.length_replicate, Nat.mul_comm _ d.digits, Nat.add_zero, Nat.mul_comm _ (_ * _)]
    rfl
  | case2 digits point hrange hscale hpositive =>
    have hwhole : ∀ c ∈ digits.take point.toNat, c.isDigit = true :=
      fun c hc => hdigits c (List.mem_of_mem_take hc)
    have hfraction : ∀ c ∈ digits.drop point.toNat, c.isDigit = true :=
      fun c hc => hdigits c (List.mem_of_mem_drop hc)
    have hread := read?_point hwhole hfraction (by simp [digits]) (.inl rfl)
    rw [List.append_nil, List.take_append_drop] at hread
    rw [if_neg (fun h => hscale h.2.2)]
    refine hread.trans (congrArg some (hsame hvalue ?_))
    have hpoint : point = d.scale + (Nat.toDigits 10 d.digits).length := rfl
    rw [List.length_drop]
    omega
  | case3 digits point hrange hscale hpositive =>
    have hfraction : ∀ c ∈ List.replicate (-point).toNat '0' ++ digits, c.isDigit = true :=
      List.forall_mem_append.mpr ⟨hzeros _, hdigits⟩
    have hread := read?_point hzero hfraction (by simp) (.inl rfl)
    rw [List.append_nil] at hread
    rw [if_neg (fun h => hscale h.2.2)]
    refine hread.trans (congrArg some (hsame ?_ ?_))
    · rw [digitsValue_append, digitsValue_append, digitsValue_replicate, hvalue,
        show Double.digitsValue ['0'] = 0 from rfl, Nat.mul_zero, Nat.mul_zero, Nat.zero_add,
        Nat.zero_add]
    · rw [List.length_append, List.length_replicate]
      omega
  | case4 digits point hrange exponent first second rest heq =>
    have hall : ∀ c ∈ first :: second :: rest, c.isDigit = true := heq ▸ hdigits
    rw [List.forall_mem_cons] at hall
    have hread := read?_point (List.forall_mem_singleton.mpr hall.1) hall.2 (by simp)
      (.inr ⟨(toString (point - 1)).toList, rfl⟩)
    rw [exponent?_toString] at hread
    rw [if_neg (fun h => hrange ⟨h.1, h.2.1⟩)]
    refine hread.trans (congrArg some (hsame ?_ ?_))
    · rw [← hvalue]
      exact congrArg Double.digitsValue heq.symm
    · have hlength : digits.length = rest.length + 2 := congrArg List.length heq
      rw [List.length_cons]
      omega
  | case5 digits point hrange exponent hsingle =>
    have hread := read?_whole hdigits Nat.toDigits_ne_nil
      (.inr ⟨(toString (point - 1)).toList, rfl⟩)
    rw [exponent?_toString] at hread
    rw [if_neg (fun h => hrange ⟨h.1, h.2.1⟩)]
    refine hread.trans (congrArg some (hsame hvalue ?_))
    have hlength : digits.length = 1 := by
      rcases hlist : digits with _ | ⟨first, _ | ⟨second, rest⟩⟩
      · exact absurd hlist Nat.toDigits_ne_nil
      · rfl
      · exact (hsingle _ _ _ hlist).elim
    omega

/-- The number that is read is the number that was written. -/
theorem value_read?_write (layout : DecimalLayout) (d : Decimal) :
    (read? (layout.write d)).map value = some d.value := by
  rw [read?_write, Option.map_some, Option.some_inj]
  split_ifs with h
  · obtain ⟨scale, hscale⟩ := Int.eq_ofNat_of_zero_le h.2.2
    simp only [value, hscale, Int.toNat_natCast, zpow_natCast]
    push_cast
    field_simp
  · rfl

/-- What is written starts with a digit. -/
theorem exists_isDigit_write (layout : DecimalLayout) (d : Decimal) :
    ∃ c rest, layout.write d = c :: rest ∧ c.isDigit = true := by
  obtain ⟨c, others, hdigits⟩ := List.exists_cons_of_ne_nil (Nat.toDigits_ne_nil (n := d.digits))
  have hc : c.isDigit = true := isDigit_of_mem_toDigits (hdigits ▸ List.mem_cons_self)
  fun_cases DecimalLayout.write layout d with
  | case1 digits point hrange hscale =>
    exact ⟨c, _, by rw [show digits = c :: others from hdigits]; rfl, hc⟩
  | case2 digits point hrange hscale hpositive =>
    obtain ⟨k, hk⟩ : ∃ k, point.toNat = k + 1 := ⟨point.toNat - 1, by omega⟩
    exact ⟨c, _, by rw [hk, show digits = c :: others from hdigits]; rfl, hc⟩
  | case3 digits point hrange hscale hpositive => exact ⟨'0', _, rfl, rfl⟩
  | case4 digits point hrange exponent first second rest heq =>
    exact ⟨first, _, rfl, isDigit_of_mem_toDigits (heq ▸ List.mem_cons_self)⟩
  | case5 digits point hrange exponent hsingle =>
    exact ⟨c, _, by rw [show digits = c :: others from hdigits]; rfl, hc⟩

/-! ## Integers -/

theorem read?_of_isDigit (htext : ∀ c ∈ text, c.isDigit = true) (hne : text ≠ []) :
    read? text = some ⟨Double.digitsValue text, 0⟩ := by
  have hread := read?_whole htext hne (.inl rfl)
  rwa [List.append_nil] at hread

/-- The text of an integer denotes it. -/
theorem valueOf?_toString (n : Nat) : valueOf? (toString (n : Int)) = some (n : ℚ) := by
  rw [valueOf?, toList_toString_nat,
    read?_of_isDigit (fun _ => isDigit_of_mem_toDigits) Nat.toDigits_ne_nil, digitsValue_toDigits,
    Option.map_some, value, zpow_zero, mul_one]

end Decimal

namespace Double

theorem toLower_of_isDigit {c : Char} (hc : c.isDigit = true) : c.toLower = c := by
  simp only [Char.isDigit, Bool.and_eq_true, decide_eq_true_eq] at hc
  exact dif_neg fun hupper => absurd (UInt32.le_trans hupper.1 hc.2) (by decide)

/-- **A text that starts with a digit is read as a decimal** before it is rounded. -/
theorem ofText?_of_isDigit {text : String} {c : Char} {rest : List Char}
    (htext : text.toList = c :: rest) (hc : c.isDigit = true) :
    ofText? text =
      (Decimal.read? text.toList).map fun d => ofDecimal false d.digits d.scale := by
  have hsign : ofText? text = ofMagnitude? false text.toList := by
    rw [ofText?]
    split
    case h_1 heq =>
      rw [heq] at htext
      cases htext
      cases hc
    case h_2 heq =>
      rw [heq] at htext
      cases htext
      cases hc
    case h_3 => rfl
  have hname : ∀ name : String, name.toList.head? ≠ some c →
      String.ofList (text.toList.map Char.toLower) ≠ name := by
    rintro name hhead rfl
    rw [String.toList_ofList, htext, List.map_cons, List.head?_cons, toLower_of_isDigit hc] at hhead
    exact hhead rfl
  have hletter : ∀ letter : Char, letter.isDigit = false → some letter ≠ some c := by
    rintro letter hletter ⟨⟩
    rw [hc] at hletter
    cases hletter
  rw [hsign, ofMagnitude?]
  split
  case h_1 heq => exact absurd heq (hname "inf" (hletter 'i' rfl))
  case h_2 heq => exact absurd heq (hname "infinity" (hletter 'i' rfl))
  case h_3 heq => exact absurd heq (hname "nan" (hletter 'n' rfl))
  case h_4 => exact ofUnsigned?_eq_map false text.toList

end Double

end LocalizedQuery
