import SiblingQuery.Proofs.Numerals

/-!
# Numbers that are scaled without an error

The JSON reader scales the digits that it has gathered by a power of ten in double arithmetic.  If
the digits make less than `2 ^ 53` and the power is at most `10 ^ 22`, both are doubles themselves,
so the only rounding is that of their product or quotient, and the result is the nearest double
(`Numeral.gathered_eq_nearest`).  Almost every number that is written by hand is one of these, so
both formats read it alike (`Numeral.readsAlike_of_short`).
-/

namespace SiblingQuery

/-! ## Powers of ten -/

namespace Double

/-- Up to here a power of ten is a double. -/
lemma exists_powerOfTen? {k : ℕ} (hk : k ≤ 22) :
    ∃ d, powerOfTen? k = some d ∧ d.negative = false ∧ d.magnitude = 10 ^ k := by
  have hfive : 5 ^ k < 2 ^ 53 := (Nat.pow_le_pow_right (by norm_num) hk).trans_lt (by norm_num)
  obtain ⟨d, hround, hd⟩ := exists_round_eq false hfive (by omega : k ≤ 970)
  have hten : 5 ^ k * 2 ^ k = Nat.pow 10 k := by rw [← Nat.mul_pow, Nat.pow_eq]
  rw [hten] at hround
  refine ⟨d, hround, negative_of_round hround Nat.one_pos, ?_⟩
  rw [hd, Nat.cast_pow, ← mul_pow]
  norm_num

end Double

namespace Numeral

variable {digits : List Char} {n : Numeral}

/-! ## Gathering -/

/-- All digits before the point are gathered, if they fit. -/
lemma gatherWhole_eq {m : ℕ} (hfits : Nat.ofDigitChars 10 digits m ≤ maxWord) (power : ℤ) :
    gatherWhole digits ⟨m, power⟩ = ⟨Nat.ofDigitChars 10 digits m, power⟩ := by
  induction digits generalizing m with
  | nil => rfl
  | cons c digits ih =>
    have hnext : m * 10 + digitValue c = 10 * m + (c.toNat - '0'.toNat) := by
      rw [digitValue, mul_comm]
    rw [Nat.ofDigitChars_cons] at hfits ⊢
    have hle := (le_ofDigitChars_self digits _).trans hfits
    simp only [gatherWhole, hnext]
    rw [if_neg (not_lt.2 hle), ih hfits]

/-- All digits after the point are gathered, if they fit, and each takes a power of ten. -/
lemma gatherFraction_eq {m : ℕ} (hfits : Nat.ofDigitChars 10 digits m ≤ maxWord) (power : ℤ) :
    gatherFraction digits ⟨m, power⟩ =
      ⟨Nat.ofDigitChars 10 digits m, power - (digits.length : ℤ)⟩ := by
  induction digits generalizing m power with
  | nil => simp [gatherFraction]
  | cons c digits ih =>
    have hnext : m * 10 + digitValue c = 10 * m + (c.toNat - '0'.toNat) := by
      rw [digitValue, mul_comm]
    rw [Nat.ofDigitChars_cons] at hfits ⊢
    have hle := (le_ofDigitChars_self digits _).trans hfits
    simp only [gatherFraction, hnext]
    rw [if_neg (not_lt.2 hle), ih hfits, List.length_cons]
    congr 1
    push_cast
    ring

/-! ## Scaling -/

/-- A short number times or through a small power of ten is rounded once. -/
lemma scale_eq_round {m : ℕ} (hm : m < 2 ^ 53) {power : ℤ} (hpower : power.natAbs ≤ 22) :
    (Double.ofNat? m).bind (scale · power) = Double.ofDecimal false m power := by
  obtain ⟨d, hround, hd⟩ := Double.exists_round_eq false hm (Nat.zero_le 970)
  rw [pow_zero, mul_one] at hround
  rw [pow_zero, mul_one] at hd
  have hsign := Double.negative_of_round hround Nat.one_pos
  rw [Double.ofNat?, hround, Option.bind_some, scale, if_neg (by omega), Double.ofDecimal]
  split_ifs with hnonneg
  · obtain ⟨t, ht, htsign, hten⟩ := Double.exists_powerOfTen? (by omega : power.toNat ≤ 22)
    rw [ht, Option.bind_some, Double.mul_eq_round Nat.one_pos, hsign, htsign]
    · rfl
    · rw [hd, hten]
      simp
  · obtain ⟨t, ht, htsign, hten⟩ := Double.exists_powerOfTen? (by omega : (-power).toNat ≤ 22)
    have hsteps : ((-power).toNat - 1) / 308 = 0 := by omega
    simp only [hsteps, Nat.mul_zero, Nat.sub_zero, divideDown, Option.bind_some, ht]
    have hpos : 0 < Nat.pow 10 (-power).toNat := Nat.pow_pos (by norm_num)
    rw [Double.div_eq_round hpos (by rw [hten]; positivity), hsign, htsign]
    · rfl
    · rw [hd, hten]
      simp

/-! ## Both readings -/

/-- A numeral of digits below `2 ^ 53` that are scaled by `10 ^ 22` at most.  Its exponent is taken
as it is written, which only a numeral with many zeros behind its point can miss. -/
structure IsShort (n : Numeral) : Prop where
  isDigit : ∀ c ∈ n.whole ++ n.fraction.getD [], c.isDigit = true
  significand : n.significand < 2 ^ 53
  power : n.power.natAbs ≤ 22
  exponent : n.exponentValue.natAbs < 655360

lemma IsShort.gathered_eq (h : n.IsShort) :
    n.gathered = ((Double.ofNat? n.significand).bind (scale · n.power)).map
      fun d => if n.negative then d.neg else d := by
  have happend : n.significand =
      Nat.ofDigitChars 10 (n.fraction.getD []) (natOfDigits n.whole) := by
    rw [Numeral.significand, natOfDigits, natOfDigits, Nat.ofDigitChars_append]
  have hfits : Nat.ofDigitChars 10 (n.fraction.getD []) (natOfDigits n.whole) ≤ maxWord :=
    happend ▸ h.significand.le.trans (by decide)
  have hwhole : gatherWhole n.whole ⟨0, 0⟩ = ⟨natOfDigits n.whole, 0⟩ :=
    gatherWhole_eq ((le_ofDigitChars_self _ _).trans hfits) 0
  have hclamp : clampPower (0 - ((n.fraction.getD []).length : ℤ) + n.exponentValue) =
      n.power := by
    have hpower := h.power
    unfold Numeral.power at hpower ⊢
    unfold clampPower
    omega
  unfold gathered
  simp only [hwhole, gatherFraction_eq hfits, hclamp, happend]
  rw [if_neg (not_le.2 (h.exponent.trans (by norm_num)))]

/-- The gathered digits of a short numeral are scaled to the nearest double. -/
lemma gathered_eq_nearest (h : n.IsShort) : n.gathered = n.nearest := by
  rw [h.gathered_eq, nearest_eq h.isDigit, clipped_eq_self h.exponent,
    scale_eq_round h.significand h.power]
  cases n.negative with
  | false => simp
  | true =>
    rw [Double.ofDecimal_true]
    rfl

/-- A short numeral reads alike, unless it is a negative zero without a point and an exponent. -/
lemma readsAlike_of_short (h : n.IsShort)
    (hsigned : n.isInteger = true → n.negative = true → natOfDigits n.whole ≠ 0) :
    n.ReadsAlike :=
  ⟨hsigned, fun _ => gathered_eq_nearest h⟩

end Numeral

end SiblingQuery
