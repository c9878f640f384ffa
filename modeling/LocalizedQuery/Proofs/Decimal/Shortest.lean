import LocalizedQuery.Proofs.Decimal.Rounding

/-!
# The shortest decimal of a large double

A double of at least `2 ^ 63` is written as an integer that is read as the double again, and that
ends in as many zeros as any such integer (`Coarse.exists_shortest`). Two facts carry this. The
numbers that are read as the double form an interval around it, so that of the multiples of a power
of ten only the two around the double have to be tried. And the interval is so wide that one of them
belongs to it at the seventeenth digit at the latest, but not wide enough for two multiples of the
power of ten that the double starts with.

## Main results

* `ReadingInterval.exists_search` — where the search ends
* `Coarse.exists_shortest` — the shortest decimal of a large double
* `Coarse.natAbs_sub_le` — integers that are read alike are close to each other
-/

namespace LocalizedQuery

namespace ReadingInterval

variable {r : ReadingInterval} {scale digits n : Nat}

/-! ## The search -/

theorem lifted_natCast (scale num : Nat) : lifted scale num = num := by
  rw [lifted, Int.toNat_neg_natCast, Nat.pow_eq, Nat.pow_zero, Nat.mul_one]

theorem unit_natCast (hden : r.den = 1) (scale : Nat) : r.unit scale = 10 ^ scale := by
  rw [unit, hden, Nat.one_mul, Int.toNat_natCast, Nat.pow_eq]

theorem contains_iff (hden : r.den = 1) :
    r.contains scale digits = true ↔ r.Holds (digits * 10 ^ scale) := by
  simp only [contains, lifted_natCast, unit_natCast hden, Holds]
  split_ifs <;> simp

/-- An interval has no gaps. -/
theorem Holds.between {low high : Nat} (hlow : r.Holds low) (hhigh : r.Holds high)
    (h : low ≤ n) (h' : n ≤ high) : r.Holds n := by
  rw [Holds] at *
  split_ifs at * <;> omega

/-- How far an integer is from the value of an interval. -/
def distance (r : ReadingInterval) (n : Nat) : Nat := ((n : Int) - r.value).natAbs

/-- Of the multiples of a power of ten in an interval, one of the two around the value is the
nearest. -/
theorem around_value (hvalue : r.Holds r.value) {c : Nat} (hc : r.Holds (c * 10 ^ scale)) :
    ∃ c', (c' = r.value / 10 ^ scale ∨ c' = r.value / 10 ^ scale + 1) ∧
      r.Holds (c' * 10 ^ scale) ∧ r.distance (c' * 10 ^ scale) ≤ r.distance (c * 10 ^ scale) := by
  have hdown : r.value / 10 ^ scale * 10 ^ scale ≤ r.value := Nat.div_mul_le_self _ _
  have hup : r.value < (r.value / 10 ^ scale + 1) * 10 ^ scale :=
    Nat.lt_mul_of_div_lt (Nat.lt_succ_self _) (Nat.pow_pos (by decide))
  simp only [distance]
  rcases Nat.lt_or_ge (r.value / 10 ^ scale) c with h | h
  · have hmul := Nat.mul_le_mul_right (10 ^ scale) (Nat.succ_le_of_lt h)
    rw [Nat.succ_eq_add_one] at hmul
    exact ⟨_, .inr rfl, hvalue.between hc (Nat.le_of_lt hup) hmul, by omega⟩
  · have hmul := Nat.mul_le_mul_right (10 ^ scale) h
    exact ⟨_, .inl rfl, hc.between hvalue hmul hdown, by omega⟩

theorem not_holds_of_nearest?_eq_none (hden : r.den = 1) (hvalue : r.Holds r.value)
    (h : r.nearest? scale = none) (c : Nat) : ¬ r.Holds (c * 10 ^ scale) := by
  intro hc
  obtain ⟨c', haround, hholds, -⟩ := around_value hvalue hc
  rw [← contains_iff hden] at hholds
  simp only [nearest?, lifted_natCast, unit_natCast hden] at h
  split at h
  · split_ifs at h
  all_goals rcases haround with rfl | rfl <;> simp_all

/-- A multiple of a power of ten in an interval, with none nearer to the value. -/
structure IsNearest (r : ReadingInterval) (scale digits : Nat) : Prop where
  holds : r.Holds (digits * 10 ^ scale)
  le_succ : digits ≤ r.value / 10 ^ scale + 1
  distance_le : ∀ c, r.Holds (c * 10 ^ scale) →
    r.distance (digits * 10 ^ scale) ≤ r.distance (c * 10 ^ scale)

theorem isNearest_of_nearest?_eq_some (hden : r.den = 1) (hvalue : r.Holds r.value)
    (h : r.nearest? scale = some digits) : r.IsNearest scale digits := by
  -- it is enough to compare with the two multiples around the value
  suffices hnear : r.Holds (digits * 10 ^ scale) ∧ digits ≤ r.value / 10 ^ scale + 1 ∧
      ∀ c, (c = r.value / 10 ^ scale ∨ c = r.value / 10 ^ scale + 1) → r.Holds (c * 10 ^ scale) →
        r.distance (digits * 10 ^ scale) ≤ r.distance (c * 10 ^ scale) by
    obtain ⟨hholds, hle, hnear⟩ := hnear
    refine ⟨hholds, hle, fun c hc => ?_⟩
    obtain ⟨c', haround, hc', hle'⟩ := around_value hvalue hc
    exact (hnear c' haround hc').trans hle'
  have hdown : r.value / 10 ^ scale * 10 ^ scale ≤ r.value := Nat.div_mul_le_self _ _
  have hup : r.value < (r.value / 10 ^ scale + 1) * 10 ^ scale :=
    Nat.lt_mul_of_div_lt (Nat.lt_succ_self _) (Nat.pow_pos (by decide))
  have hmiddle : (2 * (r.value / 10 ^ scale) + 1) * 10 ^ scale
      = r.value / 10 ^ scale * 10 ^ scale + (r.value / 10 ^ scale + 1) * 10 ^ scale := by
    rw [← Nat.add_mul]
    congr 1
    omega
  simp only [← contains_iff hden]
  simp only [nearest?, lifted_natCast, unit_natCast hden, hmiddle] at h
  generalize r.value / 10 ^ scale = a at *
  split at h
  case h_1 hleft hright =>
    have hnear : ∀ c, (c = a ∨ c = a + 1) → r.contains scale c = true →
        r.distance (digits * 10 ^ scale) ≤ r.distance (c * 10 ^ scale) := by
      rintro c hc -
      simp only [distance]
      split_ifs at h <;> cases h <;> rcases hc with rfl | rfl <;> omega
    obtain rfl | rfl : digits = a ∨ digits = a + 1 := by
      split_ifs at h <;> cases h <;> simp
    · exact ⟨hleft, Nat.le_succ _, hnear⟩
    · exact ⟨hright, Nat.le_refl _, hnear⟩
  case h_2 hleft hright =>
    cases h
    refine ⟨hleft, by omega, ?_⟩
    rintro c (rfl | rfl) hc
    · exact Nat.le_refl _
    · rw [hright] at hc
      cases hc
  case h_3 hleft hright =>
    cases h
    refine ⟨hright, Nat.le_refl _, ?_⟩
    rintro c (rfl | rfl) hc
    · rw [hleft] at hc
      cases hc
    · exact Nat.le_refl _
  case h_4 => cases h

/-- **Where the search ends,** if it gets as far as some multiple in the interval: on the coarsest
grid that has one. -/
theorem exists_search (hden : r.den = 1) (hvalue : r.Holds r.value) {lowest count : Nat}
    (hlowest : ∃ c, r.Holds (c * 10 ^ lowest)) (hscale : lowest ≤ scale)
    (hcount : scale < lowest + count) :
    ∃ digits found : Nat, r.search scale count = ⟨digits, found⟩ ∧ r.IsNearest found digits ∧
      lowest ≤ found ∧ ∀ i ≤ scale, ∀ c, r.Holds (c * 10 ^ i) → i ≤ found := by
  induction count generalizing scale with
  | zero => omega
  | succ count ih =>
    cases h : r.nearest? scale with
    | some digits =>
      exact ⟨digits, scale, by rw [search, h], isNearest_of_nearest?_eq_some hden hvalue h, hscale,
        fun i hi _ _ => hi⟩
    | none =>
      have hnone := not_holds_of_nearest?_eq_none hden hvalue h
      have hlt : lowest < scale := by
        refine Nat.lt_of_le_of_ne hscale ?_
        rintro rfl
        exact hlowest.elim hnone
      obtain ⟨scale, rfl⟩ : ∃ scale', scale = scale' + 1 := ⟨scale - 1, by omega⟩
      obtain ⟨digits, found, hsearch, hnearest, hle, hcoarsest⟩ :=
        ih (Nat.le_of_lt_succ hlt) (by omega)
      refine ⟨digits, found, ?_, hnearest, hle, ?_⟩
      · rw [search, h, Nat.cast_succ, Int.add_sub_cancel]
        exact hsearch
      · intro i hi c hc
        rcases Nat.lt_or_eq_of_le hi with hlt' | rfl
        · exact hcoarsest i (Nat.le_of_lt_succ hlt') c hc
        · exact absurd hc (hnone c)

end ReadingInterval

/-- Moving final zeros into the power of ten. -/
theorem Decimal.exists_withoutFinalZeros (count digits scale : Nat) :
    ∃ digits' zeros : Nat,
      withoutFinalZeros count ⟨digits, scale⟩ = ⟨digits', (scale + zeros : Nat)⟩ ∧
      digits = digits' * 10 ^ zeros := by
  induction count generalizing digits scale with
  | zero => exact ⟨digits, 0, rfl, (Nat.mul_one _).symm⟩
  | succ count ih =>
    rw [withoutFinalZeros]
    split_ifs with h
    · obtain ⟨digits', zeros, hrest, hdigits⟩ := ih (digits / 10) (scale + 1)
      refine ⟨digits', zeros + 1, ?_, ?_⟩
      · rw [← Nat.add_right_comm, Nat.add_assoc] at hrest
        exact hrest
      · dsimp only at h
        rw [Nat.pow_succ, ← Nat.mul_assoc, ← hdigits]
        omega
    · exact ⟨digits, 0, rfl, (Nat.mul_one _).symm⟩

namespace Coarse

variable {x : Coarse} {n n' : Nat}

/-! ## The size of intervals -/

theorem holds_value (x : Coarse) : x.interval.Holds x.interval.value := by
  have hpos := x.quarter_pos
  rw [holds_iff, value_interval, reach]
  split_ifs <;> omega

/-- **Integers that are read alike are close to each other:** they differ by at most four quarters
of the last place, and so hardly at all in relation to their size. -/
theorem natAbs_sub_le (h : x.interval.Holds n) (h' : x.interval.Holds n') :
    ((n' : Int) - n).natAbs ≤ 4 * x.quarter ∧ ((n' : Int) - n).natAbs * 2 ^ 52 ≤ n := by
  have hlower := x.mul_quarter_le
  rw [holds_iff, reach] at h h'
  by_cases hleast : x.mantissa = 2 ^ 52
  · rw [if_pos hleast] at h h'
    split_ifs at h h' <;> omega
  · have hgreater := add_le_mul_quarter hleast
    rw [if_neg hleast] at h h'
    split_ifs at h h' <;> omega

/-- Multiples of a number that differ by less than the number are the same. -/
theorem eq_of_dvd {g : Nat} (hg : ((n' : Int) - n).natAbs < g) (hn : g ∣ n) (hn' : g ∣ n') :
    n' = n := by
  have hdvd : (g : Int) ∣ n' - n :=
    Int.dvd_sub (Int.natCast_dvd_natCast.mpr hn') (Int.natCast_dvd_natCast.mpr hn)
  have hzero := Int.eq_zero_of_dvd_of_natAbs_lt_natAbs hdvd (by rwa [Int.natAbs_natCast])
  omega

/-- Some multiple with seventeen digits lies in the interval. -/
theorem exists_multiple {scale : Nat} (h : 10 ^ 16 * 10 ^ scale ≤ x.interval.value) :
    ∃ c, x.interval.Holds (c * 10 ^ scale) := by
  have hpos := x.quarter_pos
  have hupper := x.mul_quarter_add_le
  obtain ⟨c, hdown, hup⟩ :
      ∃ c, c * 10 ^ scale ≤ x.interval.value ∧ x.interval.value < (c + 1) * 10 ^ scale :=
    ⟨x.interval.value / 10 ^ scale, Nat.div_mul_le_self _ _,
      Nat.lt_mul_of_div_lt (Nat.lt_succ_self _) (Nat.pow_pos (by decide))⟩
  have hnext : (c + 1) * 10 ^ scale = c * 10 ^ scale + 10 ^ scale := Nat.add_one_mul _ _
  by_contra hnone
  have hleft := mt (Exists.intro c) hnone
  have hright := mt (Exists.intro (c + 1)) hnone
  rw [value_interval] at *
  rw [holds_iff, reach] at hleft hright
  by_cases hleast : x.mantissa = 2 ^ 52
  · rw [if_pos hleast, hleast] at hleft
    rw [hleast] at h hup hdown hright
    split_ifs at hleft hright <;> omega
  · rw [if_neg hleast] at hleft
    split_ifs at hleft hright <;> omega

/-! ## The shortest decimal -/

theorem two_pow_le_value (h : 11 ≤ x.exponent) : 2 ^ 63 ≤ x.interval.value := by
  have hquarter : 2 ^ 9 ≤ x.quarter := le_quarter h
  have hlower := x.mul_quarter_le
  rw [value_interval]
  omega

theorem pow_le_of_holds (h : 11 ≤ x.exponent) (hn : x.interval.Holds n) : 10 ^ 18 ≤ n := by
  have hvalue := two_pow_le_value h
  have hclose := (natAbs_sub_le hn x.holds_value).2
  omega

theorem point_interval (x : Coarse) :
    x.interval.point = (Double.digitCount x.interval.value : Int) := by
  obtain ⟨k, hk⟩ : ∃ k, Double.digitCount x.interval.value = k + 1 :=
    Nat.exists_eq_succ_of_ne_zero (Nat.ne_of_gt Nat.length_toDigits_pos)
  have hguess : (Double.digitCount x.interval.value : Int) - (Double.digitCount 1 : Int) = k := by
    rw [hk, show Double.digitCount 1 = 1 from rfl]
    omega
  have hvalue : x.interval.value ≠ 0 := by
    have := x.quarter_pos
    have := x.mul_quarter_le
    rw [value_interval]
    omega
  have hle : 10 ^ k ≤ x.interval.value := Double.pow_le_of_lt_digitCount hvalue (by omega)
  rw [ReadingInterval.point, x.den_interval, hguess, ReadingInterval.lifted_natCast,
    ReadingInterval.unit_natCast x.den_interval, if_neg (Nat.not_lt.mpr hle), hk, Nat.cast_succ]

/-- Where the search for the shortest decimal ends. The grids that are tried go from
`10 ^ (lowest + 16)` down to `10 ^ lowest`. -/
structure Found (x : Coarse) (digits scale lowest : Nat) : Prop where
  nearest : x.interval.IsNearest scale digits
  lowest_le : lowest ≤ scale
  value_lt : x.interval.value < 10 ^ (lowest + 17)
  coarsest : ∀ i ≤ lowest + 16, ∀ c, x.interval.Holds (c * 10 ^ i) → i ≤ scale

theorem exists_found (h : 11 ≤ x.exponent) :
    ∃ digits scale lowest : Nat,
      x.interval.search (x.interval.point - 1) 17 = ⟨digits, scale⟩ ∧
      x.Found digits scale lowest := by
  have hvalue := two_pow_le_value h
  have hbelow := Double.lt_pow_digitCount x.interval.value
  obtain ⟨lowest, hlowest⟩ : ∃ lowest, Double.digitCount x.interval.value = lowest + 17 := by
    refine ⟨Double.digitCount x.interval.value - 17, ?_⟩
    by_contra hfew
    have : 10 ^ Double.digitCount x.interval.value ≤ 10 ^ 17 :=
      Nat.pow_le_pow_right (by decide) (by omega)
    omega
  rw [hlowest] at hbelow
  have hfirst : 10 ^ (lowest + 16) ≤ x.interval.value :=
    Double.pow_le_of_lt_digitCount (by omega) (by omega)
  rw [Nat.add_comm, Nat.pow_add] at hfirst
  have hmultiple : ∃ c, x.interval.Holds (c * 10 ^ lowest) := exists_multiple hfirst
  have hstart : x.interval.point - 1 = ((lowest + 16 : Nat) : Int) := by
    rw [point_interval, hlowest]
    omega
  obtain ⟨digits, scale, hsearch, hnearest, hle, hcoarsest⟩ :=
    ReadingInterval.exists_search x.den_interval x.holds_value hmultiple
      (show lowest ≤ lowest + 16 by omega) (show lowest + 16 < lowest + 17 by omega)
  exact ⟨digits, scale, lowest, hstart ▸ hsearch, hnearest, hle, hbelow, hcoarsest⟩

namespace Found

variable {digits scale lowest : Nat}

/-- Seventeen digits are enough. -/
theorem digits_le (h : x.Found digits scale lowest) : digits ≤ 10 ^ 17 := by
  have hquotient : x.interval.value / 10 ^ scale < 10 ^ 17 := by
    rw [Nat.div_lt_iff_lt_mul (Nat.pow_pos (by decide)), ← Nat.pow_add]
    have hle := h.lowest_le
    exact Nat.lt_of_lt_of_le h.value_lt (Nat.pow_le_pow_right (by decide) (by omega))
  exact h.nearest.le_succ.trans hquotient

/-- No integer that is read as the double ends in more zeros. -/
theorem dvd (h : x.Found digits scale lowest) {k : Nat} (hn : x.interval.Holds n)
    (hk : 10 ^ k ∣ n) : 10 ^ k ∣ digits * 10 ^ scale := by
  have hcoarsest : ∀ i ≤ lowest + 16, 10 ^ i ∣ n → i ≤ scale := by
    rintro i hi ⟨c, rfl⟩
    exact h.coarsest i hi c (Nat.mul_comm c _ ▸ hn)
  rcases Nat.lt_or_ge scale k with hlt | hge
  · -- a power of ten that is greater than the first one tried has at most one multiple
    have hstart : lowest + 16 < k := by
      by_contra hsmall
      exact absurd (hcoarsest k (Nat.not_lt.mp hsmall) hk) (Nat.not_le.mpr hlt)
    have hgrid : 10 ^ (lowest + 16) ∣ n := (Nat.pow_dvd_pow 10 (Nat.le_of_lt hstart)).trans hk
    have hgrid' : 10 ^ (lowest + 16) ∣ digits * 10 ^ scale :=
      (Nat.pow_dvd_pow 10 (hcoarsest _ (Nat.le_refl _) hgrid)).trans (Nat.dvd_mul_left _ _)
    have hwide : 4 * x.quarter < 10 ^ (lowest + 16) := by
      have hvalue := h.value_lt
      have hlower := x.mul_quarter_le
      have hpos := x.quarter_pos
      rw [value_interval, Nat.pow_succ] at hvalue
      omega
    have hclose := (natAbs_sub_le hn h.nearest.holds).1
    rw [eq_of_dvd (Nat.lt_of_le_of_lt hclose hwide) hgrid hgrid']
    exact hk
  · exact (Nat.pow_dvd_pow 10 hge).trans (Nat.dvd_mul_left _ _)

end Found

/-- **The shortest decimal of a large double:** an integer that is read as the double, that ends in
as many zeros as any such integer, and that no such integer with as many zeros is nearer to the
double than. Seventeen digits are enough for it. -/
theorem exists_shortest (h : 11 ≤ x.exponent) :
    ∃ digits scale : Nat, Double.shortest x.mantissa x.exponent = ⟨digits, scale⟩ ∧
      x.interval.Holds (digits * 10 ^ scale) ∧
      (∀ n k, x.interval.Holds n → 10 ^ k ∣ n → 10 ^ k ∣ digits * 10 ^ scale) ∧
      (∀ n, x.interval.Holds n → (∀ k, 10 ^ k ∣ digits * 10 ^ scale → 10 ^ k ∣ n) →
        x.interval.distance (digits * 10 ^ scale) ≤ x.interval.distance n) ∧
      ∃ c k, c < 10 ^ 17 ∧ digits * 10 ^ scale = c * 10 ^ k := by
  obtain ⟨digits, scale, lowest, hsearch, hfound⟩ := exists_found h
  obtain ⟨digits', zeros, hshortest, hdigits⟩ := Decimal.exists_withoutFinalZeros 17 digits scale
  have hsame : digits' * 10 ^ (scale + zeros) = digits * 10 ^ scale := by
    rw [hdigits, Nat.add_comm, Nat.pow_add, Nat.mul_assoc]
  have hmantissa : x.mantissa ≠ 0 := by
    have := x.le_mantissa
    omega
  refine ⟨digits', scale + zeros, ?_, ?_⟩
  · rw [Double.shortest, if_neg hmantissa]
    exact (congrArg (Decimal.withoutFinalZeros 17) hsearch).trans hshortest
  rw [hsame]
  refine ⟨hfound.nearest.holds, fun n k => hfound.dvd, ?_, ?_⟩
  · intro n hn hk
    obtain ⟨c, rfl⟩ := hk scale (Nat.dvd_mul_left _ _)
    rw [Nat.mul_comm _ c] at hn ⊢
    exact hfound.nearest.distance_le c hn
  · rcases Nat.lt_or_eq_of_le hfound.digits_le with hlt | rfl
    · exact ⟨digits, scale, hlt, rfl⟩
    · exact ⟨1, 17 + scale, by decide, by rw [Nat.one_mul, Nat.pow_add]⟩

end Coarse

end LocalizedQuery
