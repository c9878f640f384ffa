import LocalizedQuery.Decimal.Shortest
import Mathlib.Tactic.Linarith

/-!
# Integers that are read as doubles

From `2 ^ 54` on the doubles are integers, and so are the quarters of their last place. An integer
of that size is read as the double in whose interval (`ReadingInterval.ofDouble`) it lies, and there
is exactly one such double (`Coarse.ofRatio_eq_iff`). So rounding and the search for the shortest
decimal, which are written independently of each other, agree on which integers belong together.

The lower end of an interval is the delicate one. Below a power of two the doubles get twice as
dense, so that the integers just below it that are read as it have one bit less: their mantissa is
rounded up to `2 ^ 53` and carried.

## Main results

* `Double.roundedQuotient_eq_iff` — rounding to the nearest, ties to even
* `Coarse.ofRatio_eq_iff` — which integers are read as a double
* `Coarse.exists_holds` — every large integer lies in an interval
* `Coarse.exponent_le_iff` — which of them are read as a finite double
* `Double.ofDecimal_eq_ofRatio` — the power of ten of a decimal makes no difference
-/

namespace LocalizedQuery

/-! ## Rounding -/

namespace Double

/-- **Rounding to the nearest,** ties to even: which numerators have a quotient. -/
theorem roundedQuotient_eq_iff {num den q : Nat} (hden : 0 < den) :
    roundedQuotient num den = q ↔
      if q % 2 = 0 then 2 * (q * den) ≤ 2 * num + den ∧ 2 * num ≤ 2 * (q * den) + den
      else 2 * (q * den) < 2 * num + den ∧ 2 * num < 2 * (q * den) + den := by
  have hnum : num / den * den + num % den = num := by rw [Nat.mul_comm, Nat.div_add_mod]
  have hmod : num % den < den := Nat.mod_lt num hden
  have hfar : ∀ {a b : Nat}, a < b → a * den + den ≤ b * den := by
    intro a b h
    rw [← Nat.add_one_mul]
    exact Nat.mul_le_mul_right den h
  rw [roundedQuotient]
  generalize num / den = a at *
  generalize num % den = t at *
  have hnext : (a + 1) * den = a * den + den := Nat.add_one_mul a den
  -- only the quotient and its successor are near enough
  rcases Nat.lt_trichotomy q a with h | rfl | h
  · have := hfar h
    split_ifs <;> omega
  · split_ifs <;> omega
  · obtain rfl | h' : q = a + 1 ∨ a + 1 < q := by omega
    · rw [hnext]
      split_ifs <;> omega
    · have := hfar h'
      split_ifs <;> omega

theorem le_roundedQuotient {num den a : Nat} (hden : 0 < den) (h : a * den ≤ num) :
    a ≤ roundedQuotient num den := by
  have hquotient : a ≤ num / den := (Nat.le_div_iff_mul_le hden).mpr h
  rw [roundedQuotient]
  split_ifs <;> omega

theorem roundedQuotient_le {num den a : Nat} (hden : 0 < den) (h : num < a * den) :
    roundedQuotient num den ≤ a := by
  have hquotient : num / den < a := (Nat.div_lt_iff_lt_mul hden).mpr h
  rw [roundedQuotient]
  split_ifs <;> omega

/-- The double with a mantissa and an exponent, or an infinity if the exponent is too great. -/
def bounded (negative : Bool) (mantissa : Nat) (exponent : Int) : Double :=
  if greatestExponent < exponent then .infinity negative else .finite negative mantissa exponent

/-- The least integer that is read as an infinity. -/
def limit : Nat := 2 ^ 1024 - 2 ^ 970

variable {negative : Bool} {n e : Nat}

theorem exponentOf_one (h : n.log2 = e + 52) : exponentOf n 1 = (e : Int) := by
  have hn : n ≠ 0 := by
    rintro rfl
    simp at h
  have hguess : (n.log2 : Int) - ((Nat.log2 1 : Nat) : Int) - 52 = (e : Int) := by
    rw [show Nat.log2 1 = 0 from by decide]
    omega
  have hbits : ¬ n / 2 ^ e < 2 ^ 52 := by
    rw [Nat.not_lt, Nat.le_div_iff_mul_le (by positivity), ← Nat.pow_add, Nat.add_comm, ← h]
    exact Nat.log2_self_le hn
  rw [exponentOf, hguess]
  simp only [scaledBy, Int.natCast_nonneg, if_true, Int.toNat_natCast, Nat.one_mul, Nat.pow_eq,
    if_neg hbits, leastExponent]
  omega

/-- How an integer with at least 53 bits is rounded. -/
theorem ofRatio_one (h : n.log2 = e + 52) :
    ofRatio negative n 1 =
      if roundedQuotient n (2 ^ e) = 2 ^ 53 then bounded negative (2 ^ 52) (e + 1 : Nat)
      else bounded negative (roundedQuotient n (2 ^ e)) e := by
  have hn : n ≠ 0 := by
    rintro rfl
    simp at h
  rw [ofRatio, if_neg hn, exponentOf_one h]
  simp only [scaledBy, Int.natCast_nonneg, if_true, Int.toNat_natCast, Nat.one_mul, Nat.pow_eq]
  by_cases hcarry : roundedQuotient n (2 ^ e) = 2 ^ 53
  · simp only [if_pos hcarry, bounded, Int.natCast_succ]
  · simp only [if_neg hcarry, bounded]

/-- Small integers have small exponents. -/
theorem exponent_le_of_ofRatio_one {m : Nat} {k : Int}
    (h : ofRatio negative n 1 = .finite negative m k) :
    k ≤ max leastExponent (n.log2 - 52) + 1 := by
  have hexponent : exponentOf n 1 ≤ max leastExponent (n.log2 - 52) := by
    rw [exponentOf, show Nat.log2 1 = 0 from by decide]
    dsimp only
    split_ifs <;> omega
  rw [ofRatio] at h
  split_ifs at h with hzero
  · cases h
    omega
  · dsimp only at h
    split_ifs at h with hcarry hlarge hlarge' <;> cases h <;> omega

end Double

/-! ## Intervals -/

/-- Whether an integer lies in an interval. The ends are understood as integers. -/
def ReadingInterval.Holds (r : ReadingInterval) (n : Nat) : Prop :=
  if r.closed then r.low ≤ n ∧ n ≤ r.high else r.low < n ∧ n < r.high

/-- A double with a mantissa of 53 bits whose last place counts at least four. -/
structure Coarse where
  mantissa : Nat
  exponent : Nat
  le_mantissa : 2 ^ 52 ≤ mantissa
  mantissa_lt : mantissa < 2 ^ 53
  two_le : 2 ≤ exponent

namespace Coarse

/-- A quarter of the last place. -/
def quarter (x : Coarse) : Nat := 2 ^ (x.exponent - 2)

/-- What is read as the double. -/
def interval (x : Coarse) : ReadingInterval := .ofDouble x.mantissa x.exponent

variable {x : Coarse} {negative : Bool} {n : Nat}

theorem quarter_pos (x : Coarse) : 0 < x.quarter := Nat.two_pow_pos _

theorem two_pow_exponent (x : Coarse) : 2 ^ x.exponent = 4 * x.quarter := by
  rw [quarter, show 4 = 2 ^ 2 from rfl, ← Nat.pow_add, Nat.add_sub_cancel' x.two_le]

theorem quarter_le {k : Nat} (h : x.exponent ≤ k + 2) : x.quarter ≤ 2 ^ k :=
  Nat.pow_le_pow_right (by decide) (by omega)

theorem le_quarter {k : Nat} (h : k + 2 ≤ x.exponent) : 2 ^ k ≤ x.quarter :=
  Nat.pow_le_pow_right (by decide) (by omega)

theorem mul_quarter_le (x : Coarse) : 2 ^ 52 * x.quarter ≤ x.mantissa * x.quarter :=
  Nat.mul_le_mul_right _ x.le_mantissa

theorem mul_quarter_add_le (x : Coarse) :
    x.mantissa * x.quarter + x.quarter ≤ 2 ^ 53 * x.quarter := by
  rw [← Nat.add_one_mul]
  exact Nat.mul_le_mul_right _ x.mantissa_lt

theorem add_le_mul_quarter (h : x.mantissa ≠ 2 ^ 52) :
    2 ^ 52 * x.quarter + x.quarter ≤ x.mantissa * x.quarter := by
  rw [← Nat.add_one_mul]
  exact Nat.mul_le_mul_right _ (Nat.lt_of_le_of_ne x.le_mantissa (Ne.symm h))

/-- How far the interval reaches down. -/
def reach (x : Coarse) : Nat := if x.mantissa = 2 ^ 52 then x.quarter else 2 * x.quarter

theorem value_interval (x : Coarse) : x.interval.value = 4 * (x.mantissa * x.quarter) := by
  have hquarter : ((x.exponent : Int) - 2).toNat = x.exponent - 2 := by omega
  simp only [interval, ReadingInterval.ofDouble, hquarter, Nat.pow_eq, Nat.mul_assoc]
  rfl

theorem den_interval (x : Coarse) : x.interval.den = 1 := by
  have hquarter : (2 - (x.exponent : Int)).toNat = 0 := by
    have := x.two_le
    omega
  simp only [interval, ReadingInterval.ofDouble, hquarter, Nat.pow_eq, Nat.pow_zero]

/-- The interval in quarters of the last place. -/
theorem holds_iff (x : Coarse) :
    x.interval.Holds n ↔
      if x.mantissa % 2 = 0 then
        4 * (x.mantissa * x.quarter) ≤ n + x.reach ∧
          n ≤ 4 * (x.mantissa * x.quarter) + 2 * x.quarter
      else
        4 * (x.mantissa * x.quarter) < n + x.reach ∧
          n < 4 * (x.mantissa * x.quarter) + 2 * x.quarter := by
  have hquarter : ((x.exponent : Int) - 2).toNat = x.exponent - 2 := by omega
  have hexponent : Double.leastExponent < (x.exponent : Int) := by
    rw [Double.leastExponent]
    omega
  have hhigh : x.interval.high = 4 * (x.mantissa * x.quarter) + 2 * x.quarter := by
    simp only [interval, ReadingInterval.ofDouble, hquarter, Nat.pow_eq, Nat.add_mul, Nat.mul_assoc]
    rfl
  have hlow : x.interval.low = 4 * (x.mantissa * x.quarter) - x.reach := by
    simp only [interval, ReadingInterval.ofDouble, hquarter, Nat.pow_eq, hexponent, and_true,
      Nat.sub_mul, Nat.mul_assoc, reach]
    split_ifs
    · rw [Nat.one_mul]
      rfl
    · rfl
  have hclosed : x.interval.closed = true ↔ x.mantissa % 2 = 0 := by
    simp [interval, ReadingInterval.ofDouble]
  have hreach : x.reach ≤ 4 * (x.mantissa * x.quarter) := by
    have := x.mul_quarter_le
    rw [reach]
    split_ifs <;> omega
  simp only [ReadingInterval.Holds, hclosed, hlow, hhigh]
  split_ifs <;> omega

theorem log2_eq {e : Nat} (hlow : 2 ^ 52 * 2 ^ e ≤ n) (hhigh : n < 2 ^ 53 * 2 ^ e) :
    n.log2 = e + 52 := by
  have hpos : 0 < 2 ^ e := Nat.two_pow_pos e
  rw [← Nat.pow_add] at hlow hhigh
  have hn : n ≠ 0 := by
    have := Nat.two_pow_pos (52 + e)
    omega
  rw [Nat.log2_eq_iff hn, Nat.add_comm e 52, Nat.add_right_comm]
  exact ⟨hlow, hhigh⟩

/-- **What lies in the interval of a double** is read as it. -/
theorem ofRatio_of_holds (h : x.interval.Holds n) :
    Double.ofRatio negative n 1 = Double.bounded negative x.mantissa x.exponent := by
  have hquarter := x.two_pow_exponent
  have hpos := x.quarter_pos
  have hlower := x.mul_quarter_le
  have hupper := x.mul_quarter_add_le
  rw [holds_iff, reach] at h
  by_cases hlarge : 2 ^ 52 * 2 ^ x.exponent ≤ n
  · have hhigh : n < 2 ^ 53 * 2 ^ x.exponent := by
      split_ifs at h <;> omega
    have hmantissa : Double.roundedQuotient n (2 ^ x.exponent) = x.mantissa := by
      rw [Double.roundedQuotient_eq_iff (Nat.two_pow_pos _), hquarter,
        Nat.mul_left_comm x.mantissa]
      split_ifs at h ⊢ <;> omega
    rw [Double.ofRatio_one (log2_eq hlarge hhigh), hmantissa, if_neg (Nat.ne_of_lt x.mantissa_lt)]
  · -- the integers below a power of two, whose mantissa is carried
    have hmantissa : x.mantissa = 2 ^ 52 := by
      by_contra hne
      have hgreater := add_le_mul_quarter hne
      split_ifs at h <;> omega
    obtain ⟨e, he⟩ : ∃ e, x.exponent = e + 1 := ⟨x.exponent - 1, by have := x.two_le; omega⟩
    have hhalf : 2 ^ e = 2 * x.quarter := by
      rw [he, Nat.pow_succ] at hquarter
      omega
    have hbelow : 2 ^ 54 * x.quarter ≤ n + x.quarter := by
      rw [if_pos hmantissa, hmantissa, if_pos (by decide)] at h
      omega
    have hcarry : Double.roundedQuotient n (2 ^ e) = 2 ^ 53 := by
      rw [Double.roundedQuotient_eq_iff (Nat.two_pow_pos _), hhalf, if_pos (by decide)]
      omega
    have hlog : n.log2 = e + 52 := log2_eq (by omega) (by omega)
    rw [Double.ofRatio_one hlog, if_pos hcarry, hmantissa, he]

/-- **Every large integer lies in an interval.** -/
theorem exists_holds (h : 2 ^ 54 ≤ n) :
    ∃ x : Coarse, x.interval.Holds n ∧ n.log2 ≤ x.exponent + 52 := by
  have hn : n ≠ 0 := by omega
  have hlog : 54 ≤ n.log2 := (Nat.le_log2 hn).mpr h
  obtain ⟨e, he⟩ : ∃ e, n.log2 = e + 52 := ⟨n.log2 - 52, by omega⟩
  have htwo : 2 ≤ e := by omega
  have hlow : 2 ^ 52 * 2 ^ e ≤ n := by
    rw [← Nat.pow_add, Nat.add_comm, ← he]
    exact Nat.log2_self_le hn
  have hhigh : n < 2 ^ 53 * 2 ^ e := by
    have hnext : n < 2 ^ (n.log2 + 1) := Nat.lt_log2_self
    rw [he] at hnext
    rwa [← Nat.pow_add, Nat.add_comm 53 e]
  have hpos : 0 < 2 ^ e := Nat.two_pow_pos e
  have hlower := Double.le_roundedQuotient hpos hlow
  have hupper := Double.roundedQuotient_le hpos hhigh
  have hround := (Double.roundedQuotient_eq_iff hpos).mp
    (Eq.refl (Double.roundedQuotient n (2 ^ e)))
  generalize Double.roundedQuotient n (2 ^ e) = m at *
  rcases Nat.lt_or_eq_of_le hupper with hlt | rfl
  · obtain ⟨x, rfl, rfl⟩ : ∃ x : Coarse, x.mantissa = m ∧ x.exponent = e :=
      ⟨⟨m, e, hlower, hlt, by omega⟩, rfl, rfl⟩
    refine ⟨x, ?_, Nat.le_of_eq he⟩
    rw [x.two_pow_exponent] at hround hlow
    rw [Nat.mul_left_comm x.mantissa] at hround
    rw [holds_iff, reach]
    split_ifs at hround ⊢ with heven hpower hpower
    · rw [hpower] at hround ⊢
      omega
    · omega
    · rw [hpower] at hround ⊢
      omega
    · omega
  · obtain ⟨x, hmantissa, hexponent⟩ : ∃ x : Coarse, x.mantissa = 2 ^ 52 ∧ x.exponent = e + 1 :=
      ⟨⟨2 ^ 52, e + 1, Nat.le_refl _, by decide, by omega⟩, rfl, rfl⟩
    refine ⟨x, ?_, by omega⟩
    have hquarter := x.two_pow_exponent
    rw [hexponent, Nat.pow_succ] at hquarter
    rw [if_pos (by decide)] at hround
    rw [holds_iff, reach, hmantissa, if_pos rfl, if_pos (by decide)]
    omega

/-- Up to an exponent are the doubles that integers below a bound are read as. -/
theorem exponent_le_add_iff (h : x.interval.Holds n) (k : Nat) :
    x.exponent ≤ k + 2 ↔ n < (2 ^ 55 - 2) * 2 ^ k := by
  have hpos := x.quarter_pos
  have hlower := x.mul_quarter_le
  rw [holds_iff, reach] at h
  constructor
  · intro hexponent
    have hquarter := quarter_le hexponent
    -- the greatest mantissa is odd, so that the end of its interval is left out
    by_cases hmost : x.mantissa = 2 ^ 53 - 1
    · rw [hmost, if_neg (by decide)] at h
      omega
    · have hupper : x.mantissa * x.quarter + 2 * x.quarter ≤ 2 ^ 53 * x.quarter := by
        rw [← Nat.add_mul]
        have := x.mantissa_lt
        exact Nat.mul_le_mul_right _ (by omega)
      split_ifs at h <;> omega
  · intro hn
    by_contra hexponent
    have hquarter : 2 ^ (k + 1) ≤ x.quarter := le_quarter (Nat.not_le.mp hexponent)
    rw [Nat.pow_succ] at hquarter
    by_cases hleast : x.mantissa = 2 ^ 52
    · rw [if_pos hleast] at h
      split_ifs at h <;> omega
    · have hgreater := add_le_mul_quarter hleast
      split_ifs at h <;> omega

/-- **Which integers are read as finite doubles.** -/
theorem exponent_le_iff (h : x.interval.Holds n) : x.exponent ≤ 971 ↔ n < Double.limit := by
  have hlimit : Double.limit = (2 ^ 55 - 2) * 2 ^ 969 := by decide +kernel
  rw [hlimit]
  exact exponent_le_add_iff h 969

/-- **Which integers are read as a double.** -/
theorem ofRatio_eq_iff (hthree : 3 ≤ x.exponent) (hexponent : x.exponent ≤ 971) :
    Double.ofRatio negative n 1 = .finite negative x.mantissa x.exponent ↔ x.interval.Holds n := by
  have hfinite : ∀ {y : Coarse}, y.exponent ≤ 971 →
      Double.bounded negative y.mantissa y.exponent = .finite negative y.mantissa y.exponent := by
    intro y hy
    rw [Double.bounded, if_neg]
    rw [Double.greatestExponent]
    omega
  constructor
  · intro hread
    have hle := Double.exponent_le_of_ofRatio_one hread
    have hlog : 54 ≤ n.log2 := by
      rw [Double.leastExponent] at hle
      omega
    have hn : n ≠ 0 := by
      rintro rfl
      simp at hlog
    obtain ⟨y, hy, -⟩ := exists_holds ((Nat.le_log2 hn).mp hlog)
    rw [ofRatio_of_holds hy, Double.bounded] at hread
    split_ifs at hread
    obtain ⟨-, hmantissa, hexponents⟩ := Double.finite.inj hread
    have hsame : y = x := by
      cases x
      cases y
      simp_all
    exact hsame ▸ hy
  · intro h
    rw [ofRatio_of_holds h, hfinite hexponent]

end Coarse

namespace Double

variable {negative : Bool} {n : Nat}

theorem ofRatio_of_limit_le (h : limit ≤ n) : ofRatio negative n 1 = .infinity negative := by
  have hlarge : 2 ^ 54 ≤ limit := by decide +kernel
  obtain ⟨x, hx, -⟩ := Coarse.exists_holds (hlarge.trans h)
  have hexponent : ¬ x.exponent ≤ 971 := fun hle =>
    absurd h (Nat.not_le.mpr ((Coarse.exponent_le_iff hx).mp hle))
  rw [Coarse.ofRatio_of_holds hx, bounded, if_pos (by rw [greatestExponent]; omega)]

/-! ## Decimals -/

theorem lt_pow_digitCount (n : Nat) : n < 10 ^ digitCount n :=
  (Nat.length_toDigits_le_iff (by decide) Nat.length_toDigits_pos).mp (Nat.le_refl _)

theorem pow_le_of_lt_digitCount {k : Nat} (hn : n ≠ 0) (h : k < digitCount n) : 10 ^ k ≤ n := by
  rcases Nat.eq_zero_or_pos k with rfl | hk
  · exact Nat.one_le_iff_ne_zero.mpr hn
  · by_contra hlt
    have := (Nat.length_toDigits_le_iff (by decide) hk).mpr (Nat.not_le.mp hlt)
    rw [digitCount] at h
    omega

/-- **The power of ten of a decimal makes no difference,** as long as it is not negative. -/
theorem ofDecimal_eq_ofRatio (negative : Bool) (digits scale : Nat) :
    ofDecimal negative digits scale = ofRatio negative (digits * 10 ^ scale) 1 := by
  rcases Nat.eq_zero_or_pos digits with rfl | hdigits
  · simp [ofDecimal, ofRatio]
  · have hpoint : ¬ (digits = 0 ∨ (scale : Int) + digitCount digits < -330) := by omega
    rw [ofDecimal]
    simp only [if_neg hpoint, Int.natCast_nonneg, if_true, Int.toNat_natCast, Nat.pow_eq]
    split_ifs with hgreat
    · obtain ⟨k, hk⟩ : ∃ k, digitCount digits = k + 1 :=
        Nat.exists_eq_succ_of_ne_zero (Nat.ne_of_gt Nat.length_toDigits_pos)
      have hlarge : limit ≤ digits * 10 ^ scale :=
        calc limit ≤ 10 ^ 310 := by decide +kernel
          _ ≤ 10 ^ (k + scale) := Nat.pow_le_pow_right (by decide) (by omega)
          _ = 10 ^ k * 10 ^ scale := Nat.pow_add _ _ _
          _ ≤ digits * 10 ^ scale :=
            Nat.mul_le_mul_right _ (pow_le_of_lt_digitCount (by omega) (by omega))
      rw [ofRatio_of_limit_le hlarge]
    · rfl

end Double

end LocalizedQuery
