import SiblingQuery.Number.Numeral
import SiblingQuery.Proofs.Rounding

/-!
# The double nearest to a numeral

What is left of a number after it has been rounded to a double, said about the number itself: when
it is too large for any double (`exists_round_iff`), when nothing is left of it
(`magnitude_eq_zero_iff`), when a whole number is left (`exists_magnitude_eq_iff`), and which whole
numbers stay as they are (`magnitude_of_le`).

`Numeral.nearest` is such a rounding of the number that is written (`nearest_eq`).  It decides very
small and very large numbers by counting digits, so the count is compared with the number, and the
number with the ends of the doubles.

What is rounded has a clipped exponent.  That is the exponent as it is written, unless it is beyond
655360 in size, and then it is still beyond 65536 on the same side of zero (`clipped_cases`).
-/

namespace SiblingQuery

namespace Double

variable {num den : ℕ} {negative : Bool} {d : Double}

/-! ## The ends of the doubles -/

/-- Half a step above the largest double. -/
lemma overflow_eq : (2 : ℚ) ^ 1024 - 2 ^ 970 = (2 ^ 53 - 1 / 2) * 2 ^ (971 : ℤ) := by
  have hhigh : (2 : ℚ) ^ 1024 = 2 ^ 54 * 2 ^ 970 := pow_add 2 54 970
  have hlow : (2 : ℚ) ^ (971 : ℤ) = 2 ^ 970 * 2 := by
    rw [← pow_succ]
    exact zpow_natCast 2 971
  rw [hhigh, hlow]
  generalize (2 : ℚ) ^ 970 = step
  ring

/-- A number below the end of the words is no overflow. -/
lemma lt_overflow {q : ℚ} (h : q < 2 ^ 64) : q < 2 ^ 1024 - 2 ^ 970 := by
  have hpower : (2 : ℚ) ^ (64 : ℤ) ≤ 2 ^ (971 : ℤ) := zpow_le_zpow_right₀ one_le_two (by norm_num)
  calc q < 2 ^ 64 := h
    _ ≤ 2 ^ (971 : ℤ) := by exact_mod_cast hpower
    _ ≤ (2 ^ 53 - 1 / 2) * 2 ^ (971 : ℤ) := le_mul_of_one_le_left (by positivity) (by norm_num)
    _ = 2 ^ 1024 - 2 ^ 970 := overflow_eq.symm

lemma natCast_lt_overflow {k : ℕ} (h : k ≤ maxWord) : (k : ℚ) < 2 ^ 1024 - 2 ^ 970 := by
  have hlt : k < 2 ^ 64 := h.trans_lt (by decide)
  exact lt_overflow (by exact_mod_cast hlt)

lemma magnitude_of_round (hden : 0 < den) (h : round negative num den = some d) :
    ∃ steps, IsNearest ((num : ℚ) / den / 2 ^ grid ((num : ℚ) / den)) steps ∧
      d.magnitude = steps * 2 ^ grid ((num : ℚ) / den) := by
  rcases Nat.eq_zero_or_pos num with rfl | hnum
  · obtain rfl : zero negative = d := Option.some.inj h
    exact ⟨0, by simpa using IsNearest.natCast 0, by simp [magnitude, zero]⟩
  · obtain ⟨steps, hsteps, hround⟩ := round_eq_onGrid negative hnum hden
    exact ⟨steps, hsteps, (magnitude_of_onGrid (hround ▸ h)).1⟩

/-- A count of steps is full from half a step below on: the tie goes to the full count. -/
lemma steps_ne_full_iff {q : ℚ} {steps : ℕ} (h : IsNearest (q / 2 ^ grid q) steps) :
    steps ≠ 2 ^ 53 ↔ q / 2 ^ grid q < 2 ^ 53 - 1 / 2 := by
  have hmost := steps_le h
  generalize q / 2 ^ grid q = r at h ⊢
  constructor
  · intro hne
    by_contra hge
    have hfull : IsNearest (2 ^ 53 - 1 / 2) (2 ^ 53) :=
      ⟨by norm_num, fun _ => even_two.pow_of_ne_zero (by norm_num)⟩
    exact hne (le_antisymm hmost (hfull.le h (not_lt.1 hge)))
  · rintro hlt rfl
    have hdist := (abs_le.1 h.dist_le).1
    push_cast at hdist
    linarith

/-- From half a step above the largest double on, and only there, rounding is an overflow. -/
lemma exists_round_iff (negative : Bool) (num : ℕ) (hden : 0 < den) :
    (∃ d, round negative num den = some d) ↔ (num : ℚ) / den < 2 ^ 1024 - 2 ^ 970 := by
  rw [overflow_eq]
  rcases Nat.eq_zero_or_pos num with rfl | hnum
  · simp only [Nat.cast_zero, zero_div]
    exact iff_of_true ⟨_, rfl⟩ (by positivity)
  obtain ⟨steps, hsteps, hround⟩ := round_eq_onGrid negative hnum hden
  rw [hround, exists_onGrid_iff]
  have hpos : (0 : ℚ) < num / den := by positivity
  generalize (num : ℚ) / den = q at *
  have hlow := Int.zpow_log_le_self Nat.one_lt_two hpos
  have hhigh := Int.lt_zpow_succ_log_self Nat.one_lt_two q
  rw [Nat.cast_ofNat] at hlow hhigh
  rcases lt_trichotomy (grid q) 971 with hlt | heq | hgt
  · refine iff_of_true (.inl (by omega)) ?_
    have horder : Int.log 2 q + 1 ≤ 52 + 971 := by
      unfold grid at hlt
      omega
    calc q < 2 ^ (Int.log 2 q + 1) := hhigh
      _ ≤ 2 ^ (52 + 971 : ℤ) := zpow_le_zpow_right₀ one_le_two horder
      _ = 2 ^ 52 * 2 ^ (971 : ℤ) := zpow_add₀ two_ne_zero 52 971
      _ ≤ (2 ^ 53 - 1 / 2) * 2 ^ (971 : ℤ) := by gcongr; norm_num
  · -- the coarsest grid, where only the full count is an overflow
    rw [← div_lt_iff₀ (by positivity), ← heq, ← steps_ne_full_iff hsteps, or_iff_right (by omega)]
    exact and_iff_right rfl
  · refine iff_of_false (by omega) (not_lt.2 ?_)
    have horder : (53 + 971 : ℤ) ≤ Int.log 2 q := by
      unfold grid at hgt
      omega
    calc (2 ^ 53 - 1 / 2 : ℚ) * 2 ^ (971 : ℤ) ≤ 2 ^ (53 : ℤ) * 2 ^ (971 : ℤ) := by gcongr; norm_num
      _ = 2 ^ (53 + 971 : ℤ) := (zpow_add₀ two_ne_zero 53 971).symm
      _ ≤ 2 ^ Int.log 2 q := zpow_le_zpow_right₀ one_le_two horder
      _ ≤ q := hlow

/-- Half the least double. -/
lemma half_least_eq : (2 : ℚ) ^ (-1075 : ℤ) = 1 / 2 * 2 ^ (-1074 : ℤ) := by
  rw [show (-1075 : ℤ) = -1 + -1074 by norm_num, zpow_add₀ two_ne_zero]
  norm_num

lemma half_least_lt_one : (2 : ℚ) ^ (-1075 : ℤ) < 1 :=
  zpow_lt_one_of_neg₀ one_lt_two (by norm_num)

/-- Of the whole numbers zero alone is that small. -/
lemma natCast_le_half_least_iff {k : ℕ} : (k : ℚ) / (1 : ℕ) ≤ 2 ^ (-1075 : ℤ) ↔ k = 0 := by
  rw [Nat.cast_one, div_one]
  refine ⟨fun hle => ?_, fun hzero => by rw [hzero, Nat.cast_zero]; positivity⟩
  have hlt : (k : ℚ) < 1 := hle.trans_lt half_least_lt_one
  exact Nat.lt_one_iff.1 (by exact_mod_cast hlt)

/-- Up to half the least double a number is rounded to zero. -/
lemma round_eq_zero (negative : Bool) (num : ℕ) (hden : 0 < den)
    (hle : (num : ℚ) / den ≤ 2 ^ (-1075 : ℤ)) :
    round negative num den = some (zero negative) := by
  rcases Nat.eq_zero_or_pos num with rfl | hnum
  · rfl
  obtain ⟨steps, hsteps, hround⟩ := round_eq_onGrid negative hnum hden
  rw [hround]
  have hpos : (0 : ℚ) < num / den := by positivity
  generalize (num : ℚ) / den = q at *
  have hgrid : grid q = -1074 := by
    have hlt : q < ((2 : ℕ) : ℚ) ^ (-1074 : ℤ) := by
      rw [Nat.cast_ofNat]
      exact hle.trans_lt (zpow_lt_zpow_right₀ one_lt_two (by norm_num))
    have hlog := (Int.lt_zpow_iff_log_lt Nat.one_lt_two hpos).1 hlt
    unfold grid
    omega
  have hnearest : IsNearest (q / 2 ^ grid q) 0 := by
    refine ⟨?_, fun _ => Even.zero⟩
    rw [hgrid, Nat.cast_zero, sub_zero, abs_of_pos (by positivity), div_le_iff₀ (by positivity),
      ← half_least_eq]
    exact hle
  rw [hgrid, hsteps.unique hnearest]
  rfl

/-- Nothing is left of a number exactly if it is at most half the least double. -/
lemma magnitude_eq_zero_iff (hden : 0 < den) (h : round negative num den = some d) :
    d.magnitude = 0 ↔ (num : ℚ) / den ≤ 2 ^ (-1075 : ℤ) := by
  constructor
  · intro hzero
    obtain ⟨steps, hsteps, hmagnitude⟩ := magnitude_of_round hden h
    rcases Nat.eq_zero_or_pos num with rfl | hnum
    · rw [Nat.cast_zero, zero_div]
      positivity
    have hpos : (0 : ℚ) < num / den := by positivity
    generalize (num : ℚ) / den = q at *
    obtain rfl : steps = 0 := by
      rwa [hmagnitude, mul_eq_zero, or_iff_left (by positivity), Nat.cast_eq_zero] at hzero
    have hgrid : grid q = -1074 := by
      have hfinest : -1074 ≤ grid q := le_max_right _ _
      by_contra hne
      exact absurd (le_steps hpos (by omega) hsteps) (by norm_num)
    have hdist := (abs_le.1 hsteps.dist_le).2
    rwa [hgrid, Nat.cast_zero, sub_zero, div_le_iff₀ (by positivity), ← half_least_eq] at hdist
  · intro hle
    rw [round_eq_zero negative num hden hle] at h
    obtain rfl := Option.some.inj h
    simp [magnitude, zero]

/-! ## Whole numbers -/

/-- Rounding moves a number by half a step at most. -/
lemma abs_sub_magnitude_le (hden : 0 < den) (h : round negative num den = some d) :
    |(num : ℚ) / den - d.magnitude| ≤ 2 ^ grid ((num : ℚ) / den) / 2 := by
  obtain ⟨steps, hsteps, hmagnitude⟩ := magnitude_of_round hden h
  generalize (num : ℚ) / den = q at *
  have hstep : (0 : ℚ) < 2 ^ grid q := by positivity
  have hscaled : q - d.magnitude = (q / 2 ^ grid q - steps) * 2 ^ grid q := by
    rw [hmagnitude]
    field_simp
  rw [hscaled, abs_mul, abs_of_pos hstep]
  calc |q / 2 ^ grid q - steps| * 2 ^ grid q ≤ 1 / 2 * 2 ^ grid q := by
        gcongr
        exact hsteps.dist_le
    _ = 2 ^ grid q / 2 := by ring

/-- A grid with steps below one has the whole numbers at even places, so one that is within half a
step is the nearest point even in a tie. -/
lemma exists_isNearest_of_neg {q : ℚ} {k : ℕ} {g : ℤ} (hg : g < 0) (hk : |q - k| ≤ 2 ^ g / 2) :
    ∃ point, IsNearest (q / 2 ^ g) point ∧ (point : ℚ) * 2 ^ g = k := by
  obtain ⟨e, rfl⟩ : ∃ e : ℕ, g = -(e + 1 : ℕ) := ⟨(-g).toNat - 1, by omega⟩
  have hstep : (0 : ℚ) < 2 ^ (-(e + 1 : ℕ) : ℤ) := by positivity
  have hvalue : ((k * 2 ^ (e + 1) : ℕ) : ℚ) * 2 ^ (-(e + 1 : ℕ) : ℤ) = k := by
    rw [zpow_neg, zpow_natCast]
    push_cast
    field_simp
  refine ⟨k * 2 ^ (e + 1), ⟨?_, fun _ => ?_⟩, hvalue⟩
  · have hscaled : q / 2 ^ (-(e + 1 : ℕ) : ℤ) - (k * 2 ^ (e + 1) : ℕ) =
        (q - k) / 2 ^ (-(e + 1 : ℕ) : ℤ) := by
      rw [eq_div_iff hstep.ne', sub_mul, div_mul_cancel₀ _ hstep.ne', hvalue]
    rw [hscaled, abs_div, abs_of_pos hstep, div_le_iff₀ hstep]
    linarith
  · rw [pow_succ]
    exact Nat.even_mul.2 (.inr (Nat.even_mul.2 (.inr even_two)))

/-- A whole number is left of a number exactly if one lies within half a step of it.  On a grid of
whole numbers that is always so. -/
lemma exists_magnitude_eq_iff (hden : 0 < den) (h : round negative num den = some d) :
    (∃ k : ℕ, d.magnitude = k) ↔
      ∃ k : ℕ, |(num : ℚ) / den - k| ≤ 2 ^ grid ((num : ℚ) / den) / 2 := by
  constructor
  · rintro ⟨k, hk⟩
    exact ⟨k, hk ▸ abs_sub_magnitude_le hden h⟩
  rintro ⟨k, hk⟩
  obtain ⟨steps, hsteps, hmagnitude⟩ := magnitude_of_round hden h
  generalize (num : ℚ) / den = q at *
  rcases le_or_gt 0 (grid q) with hgrid | hgrid
  · obtain ⟨e, he⟩ := Int.eq_ofNat_of_zero_le hgrid
    refine ⟨steps * 2 ^ e, ?_⟩
    rw [hmagnitude, he]
    push_cast
    rfl
  · obtain ⟨point, hpoint, hvalue⟩ := exists_isNearest_of_neg hgrid hk
    exact ⟨k, by rw [hmagnitude, hsteps.unique hpoint, hvalue]⟩

/-- Up to `2 ^ 53` whole numbers are doubles. -/
lemma magnitude_of_le {k : ℕ} (hden : 0 < den) (h : round negative num den = some d)
    (hk : (num : ℚ) / den = k) (hle : k ≤ 2 ^ 53) : d.magnitude = k := by
  obtain ⟨n, e, hn, he, hsplit⟩ : ∃ n e : ℕ, n < 2 ^ 53 ∧ e ≤ 970 ∧ k = n * 2 ^ e := by
    rcases hle.lt_or_eq with hlt | rfl
    · exact ⟨k, 0, hlt, by norm_num, by simp⟩
    · exact ⟨2 ^ 52, 1, by norm_num, by norm_num, by norm_num⟩
  have hquotient : (num : ℚ) / den = (n * 2 ^ e : ℕ) / (1 : ℕ) := by
    rw [hk, hsplit, Nat.cast_one, div_one]
  obtain ⟨d', hround, hmagnitude⟩ := exists_round_eq negative hn he
  rw [round_congr negative hden Nat.one_pos hquotient, hround] at h
  obtain rfl := Option.some.inj h
  rw [hmagnitude, hsplit]
  push_cast
  rfl

/-- From the largest word on, a number is rounded beyond the words. -/
lemma le_magnitude_of_maxWord_le (hden : 0 < den) (h : round negative num den = some d)
    (hle : (maxWord : ℚ) ≤ num / den) : 2 ^ 64 ≤ d.magnitude := by
  have hedge : round false maxWord 1 = some ⟨false, 2 ^ 52, 12⟩ := by decide +kernel
  obtain ⟨edge, hround, hmono⟩ := round_mono false maxWord Nat.one_pos hden
    (by rwa [Nat.cast_one, div_one]) h
  obtain rfl := Option.some.inj (hround.symm.trans hedge)
  refine le_trans ?_ hmono
  norm_num [magnitude]

/-! ## Powers of ten -/

/-- The double nearest to a number that is scaled by a power of ten. -/
def ofDecimal (negative : Bool) (m : ℕ) (power : ℤ) : Option Double :=
  if 0 ≤ power then round negative (m * Nat.pow 10 power.toNat) 1
  else round negative m (Nat.pow 10 (-power).toNat)

lemma ofDecimal_zero (negative : Bool) (power : ℤ) :
    ofDecimal negative 0 power = some (zero negative) := by
  rw [ofDecimal, Nat.zero_mul]
  split_ifs <;> rfl

lemma ofDecimal_true (m : ℕ) (power : ℤ) :
    ofDecimal true m power = (ofDecimal false m power).map neg := by
  unfold ofDecimal
  split_ifs
  · exact round_true ..
  · exact round_true ..

/-- Up to this power of ten there is no double but zero. -/
lemma ten_zpow_le : (10 : ℚ) ^ (-331 : ℤ) ≤ 2 ^ (-1075 : ℤ) := by
  rw [zpow_neg, zpow_neg, inv_le_inv₀ (by positivity) (by positivity)]
  calc (2 : ℚ) ^ (93 * 11 + 52 : ℤ) = (2 ^ (93 : ℤ)) ^ (11 : ℤ) * 2 ^ (52 : ℤ) := by
        rw [zpow_add₀ two_ne_zero, zpow_mul]
    _ ≤ (10 ^ (28 : ℤ)) ^ (11 : ℤ) * 10 ^ (23 : ℤ) := by gcongr <;> norm_num
    _ = 10 ^ (28 * 11 + 23 : ℤ) := by rw [zpow_add₀ (by norm_num), zpow_mul]

/-- From this power of ten on there is no double. -/
lemma le_ten_zpow : (2 : ℚ) ^ 1024 - 2 ^ 970 ≤ 10 ^ (310 : ℤ) := by
  calc (2 : ℚ) ^ 1024 - 2 ^ 970 = (2 ^ 53 - 1 / 2) * 2 ^ (971 : ℤ) := overflow_eq
    _ ≤ 2 ^ (54 : ℤ) * 2 ^ (93 * 10 + 41 : ℤ) := by gcongr <;> norm_num
    _ = (2 ^ (93 : ℤ)) ^ (10 : ℤ) * 2 ^ (95 : ℤ) := by
        rw [zpow_add₀ two_ne_zero, zpow_mul]
        ring
    _ ≤ (10 ^ (28 : ℤ)) ^ (10 : ℤ) * 10 ^ (30 : ℤ) := by gcongr <;> norm_num
    _ = 10 ^ (28 * 10 + 30 : ℤ) := by rw [zpow_add₀ (by norm_num), zpow_mul]

/-- A number that is scaled by a power of ten is a quotient. -/
lemma ofDecimal_eq_round (m : ℕ) (power : ℤ) :
    ∃ num den : ℕ, 0 < den ∧ (num : ℚ) / den = m * 10 ^ power ∧
      ∀ negative, ofDecimal negative m power = round negative num den := by
  rcases le_or_gt 0 power with hnonneg | hneg
  · obtain ⟨k, rfl⟩ := Int.eq_ofNat_of_zero_le hnonneg
    refine ⟨m * Nat.pow 10 k, 1, Nat.one_pos, ?_, fun negative => if_pos hnonneg⟩
    rw [Nat.pow_eq, Nat.cast_mul, Nat.cast_pow, Nat.cast_one, div_one, zpow_natCast]
    rfl
  · obtain ⟨k, rfl⟩ : ∃ k : ℕ, power = -k := ⟨(-power).toNat, by omega⟩
    refine ⟨m, Nat.pow 10 k, Nat.pow_pos (by norm_num), ?_, fun negative => ?_⟩
    · rw [Nat.pow_eq, Nat.cast_pow, zpow_neg, zpow_natCast, div_eq_mul_inv]
      rfl
    · rw [ofDecimal, if_neg (not_le.2 hneg), neg_neg, Int.toNat_natCast]

end Double

/-! ## Runs of digits -/

section Digits

variable {digits : List Char}

lemma digitValue_le {c : Char} (h : c.isDigit = true) : digitValue c ≤ 9 := by
  simp only [Char.isDigit, Bool.and_eq_true, decide_eq_true_eq] at h
  have hle : c.toNat ≤ 57 := h.2
  have hzero : '0'.toNat = 48 := rfl
  unfold digitValue
  omega

/-- More digits make a number larger: each counts ten times what it counted before. -/
lemma le_ofDigitChars (digits : List Char) (n : ℕ) :
    n * 10 ^ digits.length ≤ Nat.ofDigitChars 10 digits n := by
  induction digits generalizing n with
  | nil => simp
  | cons c digits ih =>
    rw [Nat.ofDigitChars_cons]
    calc n * 10 ^ (c :: digits).length = (10 * n) * 10 ^ digits.length := by
          rw [List.length_cons, pow_succ]
          ring
      _ ≤ (10 * n + (c.toNat - '0'.toNat)) * 10 ^ digits.length := by gcongr; omega
      _ ≤ _ := ih _

lemma le_ofDigitChars_self (digits : List Char) (n : ℕ) : n ≤ Nat.ofDigitChars 10 digits n :=
  (Nat.le_mul_of_pos_right n (Nat.pow_pos (by norm_num))).trans (le_ofDigitChars digits n)

/-- A number is below the power of ten that has a digit more. -/
lemma ofDigitChars_lt (h : ∀ c ∈ digits, c.isDigit = true) (n : ℕ) :
    Nat.ofDigitChars 10 digits n < (n + 1) * 10 ^ digits.length := by
  induction digits generalizing n with
  | nil => simp
  | cons c digits ih =>
    obtain ⟨hc, hdigits⟩ := List.forall_mem_cons.1 h
    have hvalue := digitValue_le hc
    unfold digitValue at hvalue
    rw [Nat.ofDigitChars_cons, List.length_cons, pow_succ]
    calc Nat.ofDigitChars 10 digits (10 * n + (c.toNat - '0'.toNat))
        < (10 * n + (c.toNat - '0'.toNat) + 1) * 10 ^ digits.length := ih hdigits _
      _ ≤ (n + 1) * 10 * 10 ^ digits.length := by gcongr; omega
      _ = (n + 1) * (10 ^ digits.length * 10) := by ring

lemma natOfDigits_dropWhile (digits : List Char) :
    Numeral.natOfDigits (digits.dropWhile (· = '0')) = Numeral.natOfDigits digits := by
  induction digits with
  | nil => rfl
  | cons c digits ih =>
    by_cases hc : c = '0'
    · subst hc
      rw [List.dropWhile_cons_of_pos (by simp), ih, Numeral.natOfDigits, Numeral.natOfDigits,
        Nat.ofDigitChars_cons]
      rfl
    · rw [List.dropWhile_cons_of_neg (by simpa using hc)]

/-- A number that begins with another digit than zero has as many powers of ten as digits. -/
lemma length_dropWhile_le {bound : ℕ} (h : ∀ c ∈ digits, c.isDigit = true)
    (hlt : Numeral.natOfDigits digits < 10 ^ bound) :
    (digits.dropWhile (· = '0')).length ≤ bound := by
  rw [← natOfDigits_dropWhile] at hlt
  cases hdigits : digits.dropWhile (· = '0') with
  | nil => simp
  | cons c rest =>
    have hmem : c ∈ digits := by
      apply (List.dropWhile_suffix (· = '0')).subset
      rw [hdigits]
      exact List.mem_cons_self
    have hfirst : c ≠ '0' := by
      have hnot := List.head?_dropWhile_not (· = '0') digits
      rw [hdigits] at hnot
      simpa using hnot
    have hdigit : 1 ≤ c.toNat - '0'.toNat := by
      have hrange := h c hmem
      simp only [Char.isDigit, Bool.and_eq_true, decide_eq_true_eq] at hrange
      have hge : '0'.toNat ≤ c.toNat := hrange.1
      have hne : c.toNat ≠ '0'.toNat := fun heq => hfirst (Char.toNat_inj.1 heq)
      omega
    rw [hdigits, Numeral.natOfDigits, Nat.ofDigitChars_cons] at hlt
    have hle := le_ofDigitChars rest (10 * 0 + (c.toNat - '0'.toNat))
    -- the first digit is at least one, so the number is at least the power of ten behind it
    have hpower : 10 ^ rest.length < 10 ^ bound := by
      calc 10 ^ rest.length = 1 * 10 ^ rest.length := (one_mul _).symm
        _ ≤ (10 * 0 + (c.toNat - '0'.toNat)) * 10 ^ rest.length := by gcongr; omega
        _ ≤ _ := hle
        _ < 10 ^ bound := hlt
    exact (Nat.pow_lt_pow_iff_right (by norm_num)).1 hpower

/-- A number other than zero lies between the powers of ten that its digits count, without the
zeros at the front. -/
lemma natOfDigits_bounds (h : ∀ c ∈ digits, c.isDigit = true)
    (hzero : Numeral.natOfDigits digits ≠ 0) :
    10 ^ ((digits.dropWhile (· = '0')).length - 1) ≤ Numeral.natOfDigits digits ∧
      Numeral.natOfDigits digits < 10 ^ (digits.dropWhile (· = '0')).length := by
  constructor
  · by_contra hlt
    have hle := length_dropWhile_le h (not_le.1 hlt)
    have hempty : (digits.dropWhile (· = '0')).length - 1 = 0 := by omega
    rw [hempty, pow_zero] at hlt
    exact hlt (Nat.one_le_iff_ne_zero.2 hzero)
  · have hrest : ∀ c ∈ digits.dropWhile (· = '0'), c.isDigit = true :=
      fun c hc => h c ((List.dropWhile_suffix _).subset hc)
    have hlt := ofDigitChars_lt hrest 0
    rwa [zero_add, one_mul, ← Numeral.natOfDigits, natOfDigits_dropWhile] at hlt

end Digits

/-! ## Numerals -/

namespace Numeral

variable {n : Numeral}

/-- All digits of a numeral as one number. -/
def significand (n : Numeral) : ℕ := natOfDigits (n.whole ++ n.fraction.getD [])

/-- The power of ten that scales the digits of a numeral. -/
def power (n : Numeral) : ℤ := n.exponentValue - ((n.fraction.getD []).length : ℤ)

/-- The number that is written. -/
def value (n : Numeral) : ℚ :=
  if n.negative then -(n.significand * 10 ^ n.power) else n.significand * 10 ^ n.power

/-- Digits that are left out stand behind others that come to 65536 at least. -/
lemma clipDigits_cases (digits : List Char) (reached : ℕ) :
    clipDigits reached digits = digits ∨
      655360 ≤ Nat.ofDigitChars 10 digits reached ∧
        0x10000 ≤ Nat.ofDigitChars 10 (clipDigits reached digits) reached ∧
        Nat.ofDigitChars 10 (clipDigits reached digits) reached ≤
          Nat.ofDigitChars 10 digits reached := by
  induction digits generalizing reached with
  | nil => exact .inl rfl
  | cons c digits ih =>
    rw [clipDigits]
    split_ifs with hlow
    · have hnext : reached * 10 + digitValue c = 10 * reached + (c.toNat - '0'.toNat) := by
        rw [digitValue, mul_comm]
      rw [Nat.ofDigitChars_cons, Nat.ofDigitChars_cons, List.cons.injEq, hnext]
      simpa using ih _
    · right
      have hle := le_ofDigitChars_self (c :: digits) reached
      have hten := le_ofDigitChars_self digits (10 * reached + (c.toNat - '0'.toNat))
      rw [Nat.ofDigitChars_cons] at hle ⊢
      rw [Nat.ofDigitChars_nil]
      exact ⟨by omega, not_lt.1 hlow, hle⟩

/-- An exponent is taken as it is written, or else both lie far from zero on the same side. -/
lemma clipped_cases (n : Numeral) : n.clipped = n ∨
    655360 ≤ n.exponentValue ∧ 0x10000 ≤ n.clipped.exponentValue ∨
    n.exponentValue ≤ -655360 ∧ n.exponentValue ≤ n.clipped.exponentValue := by
  obtain ⟨negative, whole, fraction, _ | ⟨down, digits⟩⟩ := n
  · exact .inl rfl
  rcases clipDigits_cases digits 0 with hsame | ⟨hlarge, hclip, hle⟩
  · exact .inl (by simp [clipped, hsame])
  · right
    rw [← natOfDigits] at hlarge hclip
    rw [← natOfDigits, ← natOfDigits] at hle
    cases down with
    | false =>
      left
      change (655360 : ℤ) ≤ natOfDigits digits ∧ (0x10000 : ℤ) ≤ natOfDigits (clipDigits 0 digits)
      exact_mod_cast And.intro hlarge hclip
    | true =>
      right
      change -(natOfDigits digits : ℤ) ≤ -655360 ∧
        -(natOfDigits digits : ℤ) ≤ -(natOfDigits (clipDigits 0 digits) : ℤ)
      omega

lemma clipped_eq_self (h : n.exponentValue.natAbs < 655360) : n.clipped = n := by
  rcases clipped_cases n with hsame | ⟨hlarge, -⟩ | ⟨hlarge, -⟩
  · exact hsame
  · omega
  · omega

/-- A numeral is rounded once, also where its digits are only counted. -/
lemma nearest_eq (hdigits : ∀ c ∈ n.whole ++ n.fraction.getD [], c.isDigit = true) :
    n.nearest = Double.ofDecimal n.negative n.significand n.clipped.power := by
  have hpower : n.clipped.power =
      n.clipped.exponentValue - ((n.fraction.getD []).length : ℤ) := rfl
  unfold nearest
  simp only [natOfDigits_dropWhile]
  rw [← significand, ← hpower]
  generalize n.clipped.power = power
  by_cases hzero : n.significand = 0
  · rw [if_pos (.inl hzero), hzero, Double.ofDecimal_zero]
  obtain ⟨num, den, hden, hquotient, hround⟩ := Double.ofDecimal_eq_round n.significand power
  obtain ⟨hlow, hhigh⟩ := natOfDigits_bounds hdigits hzero
  rw [← significand] at hlow hhigh
  generalize ((n.whole ++ n.fraction.getD []).dropWhile (· = '0')).length = count at hlow hhigh ⊢
  -- far below the least double and far above the largest, counting the digits is enough
  split_ifs with hsmall hlarge hpower
  · have horder : power + count ≤ -331 := by omega
    rw [hround, Double.round_eq_zero _ _ hden]
    calc (num : ℚ) / den = n.significand * 10 ^ power := hquotient
      _ ≤ 10 ^ count * 10 ^ power := by
          gcongr
          exact_mod_cast hhigh.le
      _ = 10 ^ (power + count) := by
          rw [zpow_add₀ (by norm_num), zpow_natCast, mul_comm]
      _ ≤ 10 ^ (-331 : ℤ) := zpow_le_zpow_right₀ (by norm_num) horder
      _ ≤ 2 ^ (-1075 : ℤ) := Double.ten_zpow_le
  · have horder : 310 ≤ power + (count - 1 : ℕ) := by omega
    have hover : ¬∃ d, Double.round n.negative num den = some d := by
      rw [Double.exists_round_iff _ _ hden, not_lt]
      calc (2 : ℚ) ^ 1024 - 2 ^ 970 ≤ 10 ^ (310 : ℤ) := Double.le_ten_zpow
        _ ≤ 10 ^ (power + (count - 1 : ℕ)) := zpow_le_zpow_right₀ (by norm_num) horder
        _ = 10 ^ (count - 1) * 10 ^ power := by
            rw [zpow_add₀ (by norm_num), zpow_natCast, mul_comm]
        _ ≤ n.significand * 10 ^ power := by
            gcongr
            exact_mod_cast hlow
        _ = (num : ℚ) / den := hquotient.symm
    rw [hround, Option.eq_none_iff_forall_ne_some.2 (not_exists.1 hover)]
  · rw [Double.ofDecimal, if_pos hpower]
  · rw [Double.ofDecimal, if_neg hpower]

end Numeral

end SiblingQuery
