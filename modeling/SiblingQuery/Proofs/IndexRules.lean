import SiblingQuery.Json.Source
import SiblingQuery.Proofs.DecimalTexts
import SiblingQuery.Proofs.JsonTokens

/-!
# One rule for every index

A position can be given as an integer, as a double, as a JSON number and as a text, and each of
these goes through readers of its own: words, signed words, and two readings of a numeral as a
double.  `Position.Follows` is the one rule that all of them keep for an integer below
`10 ^ 308` in size.

The readers differ where an integer passes the words.  There a double is read, and all that counts
of it is its sign and that it is not below `2 ^ 64`: rounding keeps the order of magnitudes, so it
is enough to know what becomes of a few numbers at the edges.
-/

namespace SiblingQuery

/-! ## Doubles that are whole -/

namespace Double

variable {d : Double}

lemma whole?_eq_some_iff {n : ℕ} : d.whole? = some n ↔ d.magnitude = n := by
  have hpos : (0 : ℚ) < d.denominator := by exact_mod_cast d.denominator_pos
  have hvalue : d.magnitude = n ↔ d.numerator = n * d.denominator := by
    rw [magnitude_eq_div, div_eq_iff hpos.ne']
    norm_cast
  rw [hvalue, whole?]
  split_ifs with hmod
  · rw [Option.some.injEq,
      Nat.div_eq_iff_eq_mul_left d.denominator_pos (Nat.dvd_of_mod_eq_zero hmod)]
  · rw [false_iff]
    intro heq
    exact hmod (by rw [heq, Nat.mul_mod_left])

lemma isNegative_iff : d.isNegative = true ↔ d.value < 0 := by
  have hmagnitude : 0 < d.magnitude ↔ d.mantissa ≠ 0 := by
    rw [magnitude, mul_pos_iff_of_pos_right (by positivity), Nat.cast_pos, Nat.pos_iff_ne_zero]
  rw [isNegative, value, Bool.and_eq_true, decide_eq_true_iff, ← hmagnitude]
  cases d.negative with
  | false => simpa using d.magnitude_nonneg
  | true => simp

end Double

namespace Position

/-! ## The rule -/

/-- An answer keeps the index rules for an integer: a natural number is an index, at most the
largest word, and a negative number is not. -/
structure Follows (n : ℤ) (answer : Except FindError Position) : Prop where
  index : 0 ≤ n → answer = .ok (.index (min n.toNat maxWord))
  invalid : n < 0 → answer = .error .invalidIndex

lemma follows_ofInt (n : ℤ) : Follows n (ofInt n) where
  index h := if_neg (by omega)
  invalid h := if_pos h

/-! ## Doubles -/

/-- A negative zero is no number below zero. -/
lemma ofDouble_zero (negative : Bool) :
    ofDouble (.finite (Double.zero negative)) = .ok (.index 0) := by
  have hmagnitude : (Double.zero negative).magnitude = (0 : ℕ) := by
    simp [Double.magnitude, Double.zero]
  rw [ofDouble, Double.whole?_eq_some_iff.2 hmagnitude]
  simp [Double.isNegative, Double.zero]

lemma follows_ofDouble_of_value {d : Double} {n : ℤ} (h : d.value = n) :
    Follows n (ofDouble (.finite d)) := by
  have hmagnitude : d.magnitude = (n.natAbs : ℕ) := by
    rw [Nat.cast_natAbs, Int.cast_abs, ← h, Double.value]
    split_ifs
    · rw [abs_neg, abs_of_nonneg d.magnitude_nonneg]
    · rw [abs_of_nonneg d.magnitude_nonneg]
  have hnegative : d.isNegative = true ↔ n < 0 := by
    rw [Double.isNegative_iff, h, Int.cast_lt_zero]
  rw [ofDouble, Double.whole?_eq_some_iff.2 hmagnitude]
  simp only
  constructor
  · intro hn
    rw [if_neg (mt hnegative.1 (not_lt.2 hn)), (by omega : n.natAbs = n.toNat)]
  · exact fun hn => if_pos (hnegative.2 hn)

lemma ofDouble_of_isNegative {d : Double} (h : d.isNegative = true) :
    ofDouble (.finite d) = .error .invalidIndex := by
  cases hwhole : d.whole? with
  | none => rw [ofDouble, hwhole]
  | some m =>
    rw [ofDouble, hwhole]
    exact if_pos h

lemma ofDouble_of_not_whole {d : Double} (h : ∀ n : ℤ, d.value ≠ n) :
    ofDouble (.finite d) = .error .invalidIndex := by
  cases hwhole : d.whole? with
  | none => rw [ofDouble, hwhole]
  | some n =>
    have hmagnitude := Double.whole?_eq_some_iff.1 hwhole
    rw [Double.value] at h
    split_ifs at h
    · exact absurd (by rw [hmagnitude]; simp) (h (-n))
    · exact absurd (by rw [hmagnitude]; simp) (h n)

/-- A double that is read for a number beyond the words is all that the rule asks for if it has the
sign of the number and, unless that is negative, lies beyond the words too. -/
lemma follows_ofDouble_of_large {d : Double} {n : ℤ} (hmantissa : d.mantissa < 2 ^ 53)
    (hsign : d.negative = true ↔ n < 0) (hpos : 0 < d.magnitude)
    (hlarge : 0 ≤ n → 2 ^ 64 ≤ d.magnitude ∧ maxWord ≤ n.toNat) :
    Follows n (ofDouble (.finite d)) := by
  have hnegative : d.isNegative = true ↔ n < 0 := by
    rw [Double.isNegative_iff, ← hsign, Double.value]
    split_ifs with h
    · simpa [h] using hpos
    · simpa [h] using d.magnitude_nonneg
  constructor
  · intro hn
    obtain ⟨hbeyond, hword⟩ := hlarge hn
    obtain ⟨m, hm, hvalue⟩ := Double.whole?_of_le_magnitude hmantissa (by linarith)
    have hmaxWord : maxWord ≤ m := by
      have : (2 ^ 64 : ℚ) ≤ m := hvalue ▸ hbeyond
      have : 2 ^ 64 ≤ m := by exact_mod_cast this
      unfold maxWord
      omega
    rw [ofDouble, hm]
    simp only
    rw [if_neg (mt hnegative.1 (not_lt.2 hn)), min_eq_right hmaxWord, min_eq_right hword]
  · exact fun hn => ofDouble_of_isNegative (hnegative.2 hn)

end Position

/-! ## Digits that are gathered -/

section Digits

variable {digits : List Char}

/-- What digits gathered before the point come to: all of them, or the first ones, scaled by one
power of ten for each that is left out. -/
lemma Numeral.gatherWhole_cases (h : ∀ c ∈ digits, c.isDigit = true) (n : ℕ) (hn : n ≤ maxWord) :
    Numeral.gatherWhole digits ⟨n, 0⟩ = ⟨Nat.ofDigitChars 10 digits n, 0⟩ ∧
        Nat.ofDigitChars 10 digits n ≤ maxWord ∨
      ∃ significand power : ℕ, Numeral.gatherWhole digits ⟨n, 0⟩ = ⟨significand, power⟩ ∧
        significand ≤ maxWord ∧ maxWord < significand * 10 + 10 ∧ 1 ≤ power ∧
        significand * 10 ^ power ≤ Nat.ofDigitChars 10 digits n ∧
        maxWord < Nat.ofDigitChars 10 digits n := by
  induction digits generalizing n with
  | nil => exact .inl ⟨rfl, hn⟩
  | cons c digits ih =>
    have hc := digitValue_le (h c List.mem_cons_self)
    rw [Numeral.gatherWhole, Nat.ofDigitChars_cons]
    have hnext : 10 * n + (c.toNat - '0'.toNat) = n * 10 + digitValue c := by
      rw [digitValue, mul_comm]
    rw [hnext]
    simp only
    split_ifs with hover
    · right
      have hle := le_ofDigitChars digits (n * 10 + digitValue c)
      have hone : 1 ≤ 10 ^ digits.length := Nat.one_le_pow _ _ (by norm_num)
      refine ⟨n, digits.length + 1, ?_, hn, by omega, by omega, ?_, by nlinarith⟩
      · congr 1
        push_cast
        ring
      · calc n * 10 ^ (digits.length + 1) = n * 10 * 10 ^ digits.length := by ring
          _ ≤ (n * 10 + digitValue c) * 10 ^ digits.length := by gcongr; omega
          _ ≤ _ := hle
    · exact ih (fun c hc => h c (List.mem_cons_of_mem _ hc)) _ (not_lt.1 hover)

end Digits

/-! ## Integers beyond the words, read as doubles -/

namespace Numeral

variable {numeral : Numeral}

/-- A natural number scaled by a power of ten, in doubles. -/
def scaledBy (significand power : ℕ) : Option Double :=
  (Double.ofNat? significand).bind fun d => (Double.powerOfTen? power).bind d.mul

/-- Of two products the one with the larger factors is the larger.  If that is no overflow, neither
is the other. -/
lemma scaledBy_mono {m n p q : ℕ} {y : Double} (hmn : m ≤ n) (hpq : p ≤ q)
    (hy : scaledBy n q = some y) : ∃ x, scaledBy m p = some x ∧ x.magnitude ≤ y.magnitude := by
  simp only [scaledBy, Option.bind_eq_some_iff] at hy ⊢
  obtain ⟨a, ha, b, hb, hmul⟩ := hy
  obtain ⟨c, hc, hca⟩ := Double.round_mono false m Nat.one_pos Nat.one_pos
    (by gcongr) ha
  obtain ⟨d, hd, hdb⟩ := Double.round_mono false (Nat.pow 10 p) Nat.one_pos
    Nat.one_pos (by gcongr; exact Nat.pow_le_pow_right (by norm_num) hpq) hb
  obtain ⟨x, hx, hle⟩ := Double.mul_mono hca hdb hmul
  exact ⟨x, ⟨c, hc, d, hd, hx⟩, hle⟩

lemma sign_of_scaledBy {n p : ℕ} {d : Double} (h : scaledBy n p = some d) :
    d.negative = false ∧ d.mantissa < 2 ^ 53 := by
  simp only [scaledBy, Option.bind_eq_some_iff] at h
  obtain ⟨a, ha, b, hb, hmul⟩ := h
  have hden : 0 < a.denominator * b.denominator :=
    Nat.mul_pos a.denominator_pos b.denominator_pos
  refine ⟨?_, Double.mantissa_lt_of_round hmul hden⟩
  rw [Double.negative_of_round hmul hden, Double.negative_of_round ha Nat.one_pos,
    Double.negative_of_round hb Nat.one_pos]
  rfl

lemma scale_natCast {power : ℕ} (h : power ≤ 308) (d : Double) :
    scale d power = (Double.powerOfTen? power).bind d.mul := by
  rw [scale, if_neg (by omega), if_pos (by omega), Int.toNat_natCast]

/-- Below `10 ^ 308` a product of a word and a power of ten is no overflow. -/
lemma exists_scaledBy {significand power : ℕ} (hword : significand ≤ maxWord)
    (hlt : significand * 10 ^ power < 10 ^ 308) (hfull : power = 0 ∨ 10 ^ 18 ≤ significand) :
    power ≤ 289 ∧ ∃ d, scaledBy significand power = some d := by
  have hpower : power ≤ 289 := by
    rcases hfull with rfl | hfull
    · omega
    · by_contra hgt
      have : 10 ^ 308 ≤ significand * 10 ^ power := by
        calc 10 ^ 308 = 10 ^ 18 * 10 ^ 290 := pow_add 10 18 290
          _ ≤ significand * 10 ^ power :=
            Nat.mul_le_mul hfull (pow_le_pow_right₀ (by norm_num) (not_le.1 hgt))
      exact absurd hlt (not_lt.2 this)
  refine ⟨hpower, ?_⟩
  rcases hpower.eq_or_lt with rfl | hlt'
  · have hshort : significand ≤ 10 ^ 19 := by
      by_contra hgt
      have : 10 ^ 308 ≤ significand * 10 ^ 289 := by
        calc 10 ^ 308 = 10 ^ 19 * 10 ^ 289 := pow_add 10 19 289
          _ ≤ significand * 10 ^ 289 := Nat.mul_le_mul_right _ (not_le.1 hgt).le
      exact absurd hlt (not_lt.2 this)
    obtain ⟨bound, hbound⟩ : ∃ d, scaledBy (10 ^ 19) 289 = some d :=
      Option.isSome_iff_exists.1 (by decide +kernel)
    exact (scaledBy_mono hshort le_rfl hbound).imp fun _ => And.left
  · obtain ⟨bound, hbound⟩ : ∃ d, scaledBy maxWord 288 = some d :=
      Option.isSome_iff_exists.1 (by decide +kernel)
    exact (scaledBy_mono hword (by omega) hbound).imp fun _ => And.left

/-- What a reading of an integer as a double keeps of it: the sign, whether it is zero, and that it
lies beyond the words. -/
structure Keeps (numeral : Numeral) (d : Double) : Prop where
  mantissa_lt : d.mantissa < 2 ^ 53
  negative_eq : d.negative = numeral.negative
  magnitude_pos : 0 < d.magnitude ↔ 0 < natOfDigits numeral.whole
  beyond : maxWord < natOfDigits numeral.whole → 2 ^ 64 ≤ d.magnitude

/-! ### The gathered double -/

/-- The gathered digits of an integer are scaled by a power of ten for each digit left out. -/
lemma gathered_eq_scale (hinteger : numeral.isInteger = true) {significand power : ℕ}
    (hgather : gatherWhole numeral.whole ⟨0, 0⟩ = ⟨significand, power⟩) :
    numeral.gathered = ((Double.ofNat? significand).bind (scale · (clampPower power))).map
      fun d => if numeral.negative then d.neg else d := by
  obtain ⟨hfraction, hexponent⟩ := isInteger_iff.1 hinteger
  rw [gathered, hfraction, Option.getD_none, hgather, exponentValue, hexponent]
  simp only [gatherFraction, Int.natAbs_zero, add_zero]
  rw [if_neg (by norm_num)]

lemma bind_scale_eq_scaledBy (significand : ℕ) {power : ℕ} (h : power ≤ 308) :
    (Double.ofNat? significand).bind (scale · (clampPower power)) = scaledBy significand power := by
  have hexact : clampPower (power : ℤ) = power := by
    unfold clampPower
    omega
  simp only [hexact, scale_natCast h]
  rfl

/-- A power of ten that is no double makes every number but zero an overflow. -/
lemma bind_scale_eq_none {significand power : ℕ} (hpos : 0 < significand) (h : 308 < power) :
    (Double.ofNat? significand).bind (scale · (clampPower power)) = none := by
  have hlarge : 308 < clampPower (power : ℤ) := by
    unfold clampPower
    omega
  refine Option.bind_eq_none_iff.2 fun d hd => ?_
  have hmagnitude : d.magnitude ≠ 0 := by
    rw [Ne, Double.magnitude_eq_zero_iff Nat.one_pos hd, Double.natCast_le_half_least_iff]
    exact hpos.ne'
  have hmantissa : d.mantissa ≠ 0 := by
    intro hzero
    exact hmagnitude (by rw [Double.magnitude, hzero, Nat.cast_zero, zero_mul])
  rw [scale, if_pos hlarge, if_neg hmantissa]

/-- Scaling keeps whether an integer is zero, and that it lies beyond the words. -/
lemma magnitude_of_scaledBy {digits : List Char} (hdigits : ∀ c ∈ digits, c.isDigit = true)
    {significand power : ℕ} (hgather : gatherWhole digits ⟨0, 0⟩ = ⟨significand, power⟩)
    {d : Double} (hd : scaledBy significand power = some d) :
    (0 < d.magnitude ↔ 0 < natOfDigits digits) ∧
      (maxWord < natOfDigits digits → 2 ^ 64 ≤ d.magnitude) := by
  -- either all digits fit a word, or the first of them nearly fill one and at least one is left
  rcases gatherWhole_cases hdigits 0 (Nat.zero_le _) with
    ⟨hwhole, hfits⟩ | ⟨gathered, left, hwhole, hword, hfull, hleft, hle, hover⟩
  · obtain ⟨rfl, hpower⟩ := Gathered.mk.inj (hgather.symm.trans hwhole)
    obtain rfl : power = 0 := by exact_mod_cast hpower
    rw [← natOfDigits] at hfits hd
    refine ⟨⟨fun hpos => ?_, fun hpos => ?_⟩, fun hover => absurd hfits (not_le.2 hover)⟩
    · by_contra hzero
      have : scaledBy 0 0 = some (Double.zero false) := by decide +kernel
      obtain ⟨d', hd', hle⟩ := scaledBy_mono (not_lt.1 hzero) le_rfl this
      obtain rfl := Option.some.inj (hd.symm.trans hd')
      refine absurd hpos (not_lt.2 (hle.trans ?_))
      norm_num [Double.magnitude, Double.zero]
    · obtain ⟨one, hone, hle⟩ := scaledBy_mono hpos le_rfl hd
      have : scaledBy 1 0 = some ⟨false, 2 ^ 52, -52⟩ := by decide +kernel
      obtain rfl := Option.some.inj (hone.symm.trans this)
      refine lt_of_lt_of_le ?_ hle
      norm_num [Double.magnitude]
  · obtain ⟨rfl, hpower⟩ := Gathered.mk.inj (hgather.symm.trans hwhole)
    obtain rfl : power = left := by exact_mod_cast hpower
    have hmany : 1844674407370955161 ≤ significand := by
      unfold maxWord at hfull
      omega
    -- ten times the least such significand is past the largest word
    obtain ⟨edge, hedge, hlow⟩ := scaledBy_mono hmany hleft hd
    have : scaledBy 1844674407370955161 1 = some ⟨false, 2 ^ 52, 12⟩ := by decide +kernel
    obtain rfl := Option.some.inj (hedge.symm.trans this)
    have hlarge : (2 : ℚ) ^ 64 ≤ d.magnitude := by
      refine le_trans ?_ hlow
      norm_num [Double.magnitude]
    exact ⟨⟨fun _ => (Nat.zero_le _).trans_lt hover, fun _ => lt_of_lt_of_le (by norm_num) hlarge⟩,
      fun _ => hlarge⟩

/-- The gathered double of an integer, if it is no overflow. -/
lemma keeps_of_gathered (hinteger : numeral.isInteger = true)
    (hdigits : ∀ c ∈ numeral.whole, c.isDigit = true) {d : Double}
    (h : numeral.gathered = some d) : numeral.Keeps d := by
  obtain ⟨significand, power, hgather, hpos⟩ : ∃ significand power : ℕ,
      gatherWhole numeral.whole ⟨0, 0⟩ = ⟨significand, power⟩ ∧ (0 < significand ∨ power = 0) := by
    rcases gatherWhole_cases hdigits 0 (Nat.zero_le _) with
      ⟨hgather, -⟩ | ⟨significand, power, hgather, -, hfull, -⟩
    · exact ⟨_, 0, hgather, .inr rfl⟩
    · exact ⟨significand, power, hgather, .inl (by unfold maxWord at hfull; omega)⟩
  rw [gathered_eq_scale hinteger hgather] at h
  obtain ⟨scaled, hscaled, rfl⟩ := Option.map_eq_some_iff.1 h
  have hpower : power ≤ 308 := by
    by_contra hlarge
    rw [bind_scale_eq_none (by omega) (not_le.1 hlarge)] at hscaled
    cases hscaled
  rw [bind_scale_eq_scaledBy significand hpower] at hscaled
  obtain ⟨hsign, hmantissa⟩ := sign_of_scaledBy hscaled
  obtain ⟨hzero, hbeyond⟩ := magnitude_of_scaledBy hdigits hgather hscaled
  split_ifs with hnegative
  · exact ⟨hmantissa, by rw [hnegative, Double.neg, hsign]; rfl, hzero, hbeyond⟩
  · exact ⟨hmantissa, by rw [hsign]; simpa using hnegative, hzero, hbeyond⟩

lemma exists_gathered (hinteger : numeral.isInteger = true)
    (hdigits : ∀ c ∈ numeral.whole, c.isDigit = true)
    (hlt : natOfDigits numeral.whole < 10 ^ 308) :
    ∃ d, numeral.gathered = some d ∧ numeral.Keeps d := by
  obtain ⟨significand, power, hgather, hpower, d, hd⟩ : ∃ significand power : ℕ,
      gatherWhole numeral.whole ⟨0, 0⟩ = ⟨significand, power⟩ ∧ power ≤ 289 ∧
        ∃ d, scaledBy significand power = some d := by
    rcases gatherWhole_cases hdigits 0 (Nat.zero_le _) with
      ⟨hgather, hfits⟩ | ⟨significand, power, hgather, hword, hfull, -, hle, -⟩
    · exact ⟨_, 0, hgather, exists_scaledBy hfits
        (by rwa [pow_zero, mul_one] : _ * 10 ^ 0 < 10 ^ 308) (.inl rfl)⟩
    · refine ⟨significand, power, hgather, exists_scaledBy hword (hle.trans_lt hlt) (.inr ?_)⟩
      unfold maxWord at hfull
      omega
  have hgathered := gathered_eq_scale hinteger hgather
  rw [bind_scale_eq_scaledBy significand (by omega), hd] at hgathered
  exact ⟨_, hgathered, keeps_of_gathered hinteger hdigits hgathered⟩

/-! ### The nearest double -/

lemma nearest_of_isInteger (hinteger : numeral.isInteger = true)
    (hdigits : ∀ c ∈ numeral.whole, c.isDigit = true) :
    numeral.nearest = Double.round numeral.negative (natOfDigits numeral.whole) 1 := by
  obtain ⟨hfraction, hexponent⟩ := isInteger_iff.1 hinteger
  rw [nearest_eq (by simpa [hfraction] using hdigits), clipped_of_isInteger hinteger, significand,
    power, exponentValue, hfraction, hexponent]
  simp [Double.ofDecimal]

/-- The double nearest to an integer, if it is no overflow. -/
lemma keeps_of_nearest (hinteger : numeral.isInteger = true)
    (hdigits : ∀ c ∈ numeral.whole, c.isDigit = true) {d : Double}
    (h : numeral.nearest = some d) : numeral.Keeps d := by
  rw [nearest_of_isInteger hinteger hdigits] at h
  refine ⟨Double.mantissa_lt_of_round h Nat.one_pos, Double.negative_of_round h Nat.one_pos, ?_,
    fun hover => ?_⟩
  · rw [d.magnitude_nonneg.lt_iff_ne', Ne, Double.magnitude_eq_zero_iff Nat.one_pos h,
      Nat.pos_iff_ne_zero, Double.natCast_le_half_least_iff]
  · refine Double.le_magnitude_of_maxWord_le Nat.one_pos h ?_
    rw [Nat.cast_one, div_one]
    exact_mod_cast hover.le

lemma exists_nearest (numeral : Numeral) (hinteger : numeral.isInteger = true)
    (hdigits : ∀ c ∈ numeral.whole, c.isDigit = true)
    (hlt : natOfDigits numeral.whole < 10 ^ 308) :
    ∃ d, numeral.nearest = some d ∧ numeral.Keeps d := by
  obtain ⟨most, hmost⟩ : ∃ d, Double.round false (10 ^ 308) 1 = some d :=
    Option.isSome_iff_exists.1 (by decide +kernel)
  obtain ⟨d, hd, -⟩ := Double.round_mono numeral.negative
    (natOfDigits numeral.whole) Nat.one_pos Nat.one_pos (by gcongr) hmost
  have hnearest := (nearest_of_isInteger hinteger hdigits).trans hd
  exact ⟨d, hnearest, keeps_of_nearest hinteger hdigits hnearest⟩

end Numeral

/-! ## Texts -/

/-- An integer in decimal digits: after a sign or none at least one digit, where the first ones may
be zeros. -/
inductive IsDecimal : List Char → ℤ → Prop
  | unsigned {digits : List Char} (hne : digits ≠ []) (h : ∀ c ∈ digits, c.isDigit = true) :
    IsDecimal digits (Numeral.natOfDigits digits)
  | plus {digits : List Char} (hne : digits ≠ []) (h : ∀ c ∈ digits, c.isDigit = true) :
    IsDecimal ('+' :: digits) (Numeral.natOfDigits digits)
  | minus {digits : List Char} (hne : digits ≠ []) (h : ∀ c ∈ digits, c.isDigit = true) :
    IsDecimal ('-' :: digits) (-Numeral.natOfDigits digits)

lemma IsDecimal.isBlank {text : List Char} {n : ℤ} (h : IsDecimal text n) :
    text ≠ [] ∧ ∀ c ∈ text, Text.isBlank c = false := by
  cases h with
  | unsigned hne h => exact ⟨hne, fun c hc => isBlank_of_isDigit (h c hc)⟩
  | plus hne h =>
    exact ⟨nofun, List.forall_mem_cons.2 ⟨by decide, fun c hc => isBlank_of_isDigit (h c hc)⟩⟩
  | minus hne h =>
    exact ⟨nofun, List.forall_mem_cons.2 ⟨by decide, fun c hc => isBlank_of_isDigit (h c hc)⟩⟩

open Numeral in
/-- An integer in decimal digits is a numeral without point and exponent. -/
lemma IsDecimal.exists_writes {core : List Char} {n : ℤ} (h : IsDecimal core n) :
    ∃ numeral : Numeral, numeral.Writes core ∧ numeral.isInteger = true ∧ numeral.integer = n := by
  cases h with
  | unsigned hne hdigits => exact ⟨_, .mk .none (writesUnsigned_digits false hne hdigits), rfl, rfl⟩
  | plus hne hdigits => exact ⟨_, .mk .plus (writesUnsigned_digits false hne hdigits), rfl, rfl⟩
  | minus hne hdigits => exact ⟨_, .mk .minus (writesUnsigned_digits true hne hdigits), rfl, rfl⟩

namespace Position

open Numeral

/-- An integer keeps the rule where it is read as a double, whichever way that is: a natural number
is read so only beyond the words. -/
lemma follows_of_keeps {numeral : Numeral} {d : Double} (hkeeps : numeral.Keeps d)
    (hover : numeral.negative = false → maxWord < natOfDigits numeral.whole) :
    Follows numeral.integer (ofDouble (.finite d)) := by
  rcases Nat.eq_zero_or_pos (natOfDigits numeral.whole) with hzero | hpos
  · have hmagnitude : d.magnitude = 0 :=
      le_antisymm (not_lt.1 (mt hkeeps.magnitude_pos.1 (by omega))) d.magnitude_nonneg
    apply follows_ofDouble_of_value
    rw [Double.value, hmagnitude, integer, hzero]
    simp
  refine follows_ofDouble_of_large hkeeps.mantissa_lt ?_ (hkeeps.magnitude_pos.2 hpos) ?_
  · rw [hkeeps.negative_eq, integer]
    split_ifs with hnegative
    · simpa [hnegative] using hpos
    · simp [hnegative]
  · intro hn
    rw [integer] at hn ⊢
    split_ifs at hn ⊢ with hnegative
    · omega
    · have hover := hover (by simpa using hnegative)
      exact ⟨hkeeps.beyond hover, by omega⟩

/-! ### JSON numbers -/

/-- A JSON number that is written as an integer keeps the rule, however large it is. -/
lemma follows_ofNumeral? {numeral : Numeral} (hinteger : numeral.isInteger = true)
    (hdigits : ∀ c ∈ numeral.whole, c.isDigit = true) {number : Number}
    (h : Number.ofNumeral? numeral = some number) :
    Follows numeral.integer (ofJson (.num number)) := by
  unfold Number.ofNumeral? at h
  simp only [hinteger, Bool.true_and, Bool.and_eq_true, Bool.not_eq_true', decide_eq_true_eq] at h
  split_ifs at h with hnatural hnegative
  · obtain rfl := Option.some.inj h
    rw [integer, if_neg (by simp [hnatural.1])]
    exact follows_ofInt _
  · obtain rfl := Option.some.inj h
    rw [integer, if_pos hnegative.1.1]
    exact follows_ofInt _
  · obtain ⟨d, hd, rfl⟩ := Option.map_eq_some_iff.1 h
    refine follows_of_keeps (keeps_of_gathered hinteger hdigits hd) fun hsign => ?_
    by_contra hle
    exact hnatural ⟨hsign, not_lt.1 hle⟩

lemma follows_ofJson {numeral : Numeral} (hinteger : numeral.isInteger = true)
    (hdigits : ∀ c ∈ numeral.whole, c.isDigit = true)
    (hlt : natOfDigits numeral.whole < 10 ^ 308) :
    ∃ number, Number.ofNumeral? numeral = some number ∧
      Follows numeral.integer (ofJson (.num number)) := by
  obtain ⟨d, hd, -⟩ := exists_gathered hinteger hdigits hlt
  obtain ⟨number, hnumber⟩ : ∃ number, Number.ofNumeral? numeral = some number := by
    unfold Number.ofNumeral?
    simp only
    split_ifs
    · exact ⟨_, rfl⟩
    · exact ⟨_, rfl⟩
    · exact ⟨.float d, by rw [hd]; rfl⟩
  exact ⟨number, hnumber, follows_ofNumeral? hinteger hdigits hnumber⟩

/-! ### Decimal texts -/

/-- A text that writes an integer keeps the rule, unless the integer is too large for doubles. -/
lemma follows_parse_of_nearest {text : String} {numeral : Numeral} {d : Double}
    (hwrites : numeral.Writes (Text.trim text.toList)) (hinteger : numeral.isInteger = true)
    (hd : numeral.nearest = some d) : Follows numeral.integer (parse text) := by
  rw [parse_of_writes hwrites]
  split_ifs with hword
  · exact follows_ofInt _
  · rw [nearestBits, hd]
    exact follows_of_keeps (keeps_of_nearest hinteger hwrites.isDigit_whole hd)
      (maxWord_lt_of_not_isWord hinteger hword)

lemma follows_parse {text : String} {core : List Char} {n : ℤ}
    (htrim : Text.trim text.toList = core) (hdecimal : IsDecimal core n)
    (hlt : n.natAbs < 10 ^ 308) : Follows n (parse text) := by
  obtain ⟨numeral, hwrites, hinteger, rfl⟩ := hdecimal.exists_writes
  rw [natAbs_integer] at hlt
  obtain ⟨d, hd, -⟩ := exists_nearest numeral hinteger hwrites.isDigit_whole hlt
  exact follows_parse_of_nearest (htrim ▸ hwrites) hinteger hd

/-! ## Every way to give an index -/

/-- An integer below `10 ^ 308` in size, however it is given, keeps the index rules: as an integer,
as a double that is this number, as a JSON number, as a JSON text that writes it without point and
exponent, and as a decimal text with blanks around it.  A double that is not an integer is never
an index. -/
theorem index_rules_agree :
    (∀ n : ℤ, |n| < 10 ^ 308 →
      Follows n (ofInt n) ∧
      (∀ bits d, Double.ofBits bits = .finite d → d.value = n →
        Follows n (ofDouble (Double.ofBits bits))) ∧
      Follows n (ofJson (.num (.int n))) ∧
      (∀ (text : String) (numeral : Numeral),
        Json.Source.read text.toList = some (.number numeral) → numeral.isInteger = true →
        numeral.integer = n →
        ∃ value, Json.parse? text = some value ∧ Follows n (ofJson value)) ∧
      ∀ before core after : List Char, (∀ c ∈ before, Text.isBlank c = true) →
        (∀ c ∈ after, Text.isBlank c = true) → IsDecimal core n →
        Follows n (parse (String.ofList (before ++ (core ++ after))))) ∧
    ∀ bits, (∀ d, Double.ofBits bits = .finite d → ∀ n : ℤ, d.value ≠ n) →
      ofDouble (Double.ofBits bits) = .error .invalidIndex := by
  refine ⟨fun n hn => ⟨follows_ofInt n, ?_, follows_ofInt n, ?_, ?_⟩, fun bits hbits => ?_⟩
  · intro bits d hd hvalue
    rw [hd]
    exact follows_ofDouble_of_value hvalue
  · intro text numeral hread hinteger hvalue
    have hdigits : ∀ c ∈ numeral.whole, c.isDigit = true := by
      obtain ⟨rest, hnext, -⟩ := Json.Token.scan_eq_cons_iff.1 (Json.Source.scan_of_read hread)
      exact (Json.Token.isDigit_of_numeral? (Json.Token.numeral?_of_next? hnext)).2
    have hlt : natOfDigits numeral.whole < 10 ^ 308 := by
      have hsize : |numeral.integer| = natOfDigits numeral.whole := by
        rw [integer]
        split_ifs <;> simp
      rw [← hvalue, hsize] at hn
      exact_mod_cast hn
    obtain ⟨number, hnumber, hfollows⟩ := follows_ofJson hinteger hdigits hlt
    refine ⟨.num number, ?_, hvalue ▸ hfollows⟩
    rw [Json.parse?, hread, Option.bind_some, Json.Source.value?, hnumber]
    rfl
  · intro before core after hbefore hafter hdecimal
    obtain ⟨hne, hcore⟩ := hdecimal.isBlank
    refine follows_parse ?_ hdecimal ?_
    · rw [String.toList_ofList]
      exact Text.trim_eq hbefore hafter hcore hne
    · rw [Int.abs_eq_natAbs] at hn
      exact_mod_cast hn
  · cases hkind : Double.ofBits bits with
    | finite d => exact ofDouble_of_not_whole (hbits d hkind)
    | infinite negative => rfl
    | nan => rfl

/-- Where the words end, and at zero: `2 ^ 64` as a double, as a JSON text and as a decimal text is
the largest index, a negative zero is the index zero, and a half is none. -/
theorem index_rules_agree_at_edges :
    |(2 ^ 64 : ℤ)| < 10 ^ 308 ∧
      Follows (2 ^ 64) (ofDouble (Double.ofBits 0x43F0000000000000)) ∧
      (∃ value, Json.parse? "18446744073709551616" = some value ∧
        Follows (2 ^ 64) (ofJson value)) ∧
      Follows (2 ^ 64)
        (parse (String.ofList ([' '] ++ ("+018446744073709551616".toList ++ ['\n'])))) ∧
      Follows 0 (ofDouble (Double.ofBits 0x8000000000000000)) ∧
      ofDouble (Double.ofBits 0x3FE0000000000000) = .error .invalidIndex := by
  have hsize : |(2 ^ 64 : ℤ)| < 10 ^ 308 := by
    rw [abs_of_pos (by norm_num)]
    exact (by decide +kernel : (2 ^ 64 : ℤ) < 10 ^ 308)
  have hzero : |(0 : ℤ)| < 10 ^ 308 := by
    rw [abs_zero]
    positivity
  have hedge := index_rules_agree.1 (2 ^ 64) hsize
  refine ⟨hsize,
    hedge.2.1 0x43F0000000000000 ⟨false, 2 ^ 52, 12⟩ (by decide +kernel) ?_,
    hedge.2.2.2.1 _ ⟨false, "18446744073709551616".toList, none, none⟩ (by rfl) (by decide)
      (by decide +kernel),
    hedge.2.2.2.2 _ _ _ (List.all_eq_true.1 rfl) (List.all_eq_true.1 rfl) ?_,
    (index_rules_agree.1 0 hzero).2.1 0x8000000000000000 ⟨true, 0, -1074⟩ (by decide +kernel) ?_,
    index_rules_agree.2 _ fun d hd n => ?_⟩
  · norm_num [Double.value, Double.magnitude]
  · exact @IsDecimal.plus "018446744073709551616".toList (by decide) (List.all_eq_true.1 rfl)
  · norm_num [Double.value, Double.magnitude]
  · have hhalf : Double.ofBits 0x3FE0000000000000 = .finite ⟨false, 2 ^ 52, -53⟩ := by
      decide +kernel
    obtain rfl := DoubleBits.finite.inj (hhalf.symm.trans hd)
    intro hvalue
    have htwice : (2 * n : ℚ) = 1 := by
      rw [← hvalue]
      norm_num [Double.value, Double.magnitude]
    have : 2 * n = 1 := by exact_mod_cast htwice
    omega

end Position

end SiblingQuery
