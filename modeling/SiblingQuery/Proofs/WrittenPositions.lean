import SiblingQuery.Proofs.Search
import SiblingQuery.Proofs.ShortNumerals

/-!
# Positions that are written as numbers

A number in a text is a position if it is an index, and that is decided on the double nearest to
it.  `Position.Judges` says what this comes to for the number itself, with no double in sight: it is
an index if a whole number lies within half a step of the doubles around it.  So a fraction close
enough to a whole number is an index, as is a negative number that is close enough to zero, and a
number that is too large for doubles is none (`parse_judges`).  The number is the one that is
written with a clipped exponent, which matters to no exponent below 655360 in size.

A JSON number is decided on another double, the one that is gathered from its digits.
`parse_eq_ofJson_iff` says where a text and the JSON number in it are the same position: whenever
the two doubles are equal, and always for an integer that doubles can hold.
-/

namespace SiblingQuery

namespace Position

open Numeral

/-! ## The number that is written -/

/-- A whole number that stands within half a step of a number, on the grid of the doubles there. The
number itself is not too large for doubles, and if it is negative, nothing is left of it. -/
structure StandsFor (q : ℚ) (k : ℕ) : Prop where
  least : -2 ^ (-1075 : ℤ) ≤ q
  most : q < 2 ^ 1024 - 2 ^ 970
  near : |q - k| ≤ 2 ^ Double.grid |q| / 2

/-- An answer judges a number by what it stands for.  A whole number stands for itself, except
between `2 ^ 53` and the largest word, where it may be moved to another. -/
structure Judges (q : ℚ) (answer : Except FindError Position) : Prop where
  index : (∃ k, StandsFor q k) → ∃ k, StandsFor q k ∧ answer = .ok (.index (min k maxWord))
  whole : ∀ k : ℕ, q = k → q < 2 ^ 1024 - 2 ^ 970 → k ≤ 2 ^ 53 ∨ maxWord ≤ k →
    answer = .ok (.index (min k maxWord))
  invalid : (¬∃ k, StandsFor q k) → answer = .error .invalidIndex

variable {q : ℚ} {num den : ℕ} {d : Double} {n : Numeral} {text : String}

lemma StandsFor.natCast {k : ℕ} (h : (k : ℚ) < 2 ^ 1024 - 2 ^ 970) : StandsFor k k := by
  refine ⟨(neg_nonpos.2 (by positivity)).trans (Nat.cast_nonneg k), h, ?_⟩
  rw [sub_self, abs_zero]
  positivity

/-- A number that stands for nothing is refused. -/
lemma judges_of_not_standsFor (h : ¬∃ k, StandsFor q k) : Judges q (.error .invalidIndex) := by
  refine ⟨fun hsome => absurd hsome h, fun k hk hlt _ => absurd ⟨k, ?_⟩ h, fun _ => rfl⟩
  rw [hk] at hlt ⊢
  exact .natCast hlt

lemma judges_natCast {k : ℕ} (hk : k ≤ maxWord) : Judges k (.ok (.index k)) := by
  have hself : StandsFor k k := .natCast (Double.natCast_lt_overflow hk)
  refine ⟨fun _ => ⟨k, hself, by rw [min_eq_left hk]⟩, fun m hm _ _ => ?_,
    fun hnone => absurd ⟨k, hself⟩ hnone⟩
  obtain rfl : k = m := by exact_mod_cast hm
  rw [min_eq_left hk]

/-- What is rounded to zero is the index zero. -/
lemma judges_zero (h : |q| ≤ 2 ^ (-1075 : ℤ)) : Judges q (.ok (.index 0)) := by
  have hzero : StandsFor q 0 := by
    refine ⟨(abs_le.1 h).1, ?_, ?_⟩
    · exact Double.lt_overflow (by linarith [(le_abs_self q).trans h, Double.half_least_lt_one])
    · rw [Nat.cast_zero, sub_zero]
      refine h.trans ?_
      rw [Double.half_least_eq, one_div, inv_mul_eq_div]
      gcongr
      · exact one_le_two
      · exact le_max_right _ _
  refine ⟨fun _ => ⟨0, hzero, by rw [Nat.zero_min]⟩, fun k hk _ _ => ?_,
    fun hnone => absurd ⟨0, hzero⟩ hnone⟩
  obtain rfl : k = 0 := by
    rw [← Double.natCast_le_half_least_iff, Nat.cast_one, div_one, ← hk]
    exact (le_abs_self q).trans h
  rw [Nat.zero_min]

/-- A number that is not below zero and is rounded to a whole double stands for it.  Should it be
another integer itself, it is one that the doubles around it skip, or beyond the words. -/
lemma judges_of_magnitude_eq (hden : 0 < den) (h : Double.round false num den = some d) {k : ℕ}
    (hk : d.magnitude = k) : Judges ((num : ℚ) / den) (.ok (.index (min k maxWord))) := by
  have hnonneg : (0 : ℚ) ≤ num / den := by positivity
  have hnear : StandsFor ((num : ℚ) / den) k := by
    refine ⟨(neg_nonpos.2 (by positivity)).trans hnonneg,
      (Double.exists_round_iff false num hden).1 ⟨d, h⟩, ?_⟩
    rw [abs_of_nonneg hnonneg, ← hk]
    exact Double.abs_sub_magnitude_le hden h
  refine ⟨fun _ => ⟨k, hnear, rfl⟩, fun m hm _ hexact => ?_, fun hnone => absurd ⟨k, hnear⟩ hnone⟩
  rcases hexact with hle | hge
  · obtain rfl : m = k := by
      have hsame := Double.magnitude_of_le hden h hm hle
      exact_mod_cast hsame.symm.trans hk
    rfl
  · have hbeyond := Double.le_magnitude_of_maxWord_le hden h (by rw [hm]; exact_mod_cast hge)
    have hmax : maxWord ≤ k := by
      rw [hk] at hbeyond
      have : 2 ^ 64 ≤ k := by exact_mod_cast hbeyond
      unfold maxWord
      omega
    rw [min_eq_right hmax, min_eq_right hge]

/-- Rounding a number that is not below zero, without an overflow, is a judgement on it. -/
lemma judges_round (hden : 0 < den) (h : Double.round false num den = some d) :
    Judges ((num : ℚ) / den) (ofDouble (.finite d)) := by
  have hnonneg : (0 : ℚ) ≤ num / den := by positivity
  have hsign : d.isNegative = false := by
    rw [Double.isNegative, Double.negative_of_round h hden, Bool.false_and]
  have hwhole_iff := Double.exists_magnitude_eq_iff hden h
  by_cases hwhole : ∃ k : ℕ, d.magnitude = k
  · obtain ⟨k, hk⟩ := hwhole
    rw [ofDouble, Double.whole?_eq_some_iff.2 hk]
    simpa only [hsign, Bool.false_eq_true, if_false] using judges_of_magnitude_eq hden h hk
  · have hnone : d.whole? = none := by
      cases hsome : d.whole? with
      | none => rfl
      | some k => exact absurd ⟨k, Double.whole?_eq_some_iff.1 hsome⟩ hwhole
    rw [ofDouble, hnone]
    refine judges_of_not_standsFor ?_
    rintro ⟨k, hk⟩
    refine hwhole (hwhole_iff.2 ⟨k, ?_⟩)
    simpa [abs_of_nonneg hnonneg] using hk.near

/-- A number below zero is refused, if anything is left of it. -/
lemma ofDouble_of_round_true (hden : 0 < den) (h : Double.round true num den = some d)
    (hsize : 2 ^ (-1075 : ℤ) < (num : ℚ) / den) :
    ofDouble (.finite d) = .error .invalidIndex := by
  refine ofDouble_of_isNegative ?_
  rw [Double.isNegative_iff, Double.value, if_pos (Double.negative_of_round h hden), neg_lt_zero]
  refine d.magnitude_nonneg.lt_of_ne' ?_
  rw [Ne, Double.magnitude_eq_zero_iff hden h, not_le]
  exact hsize

/-- The nearest double is a judgement on the number that is written. -/
lemma judges_nearestBits (hdigits : ∀ c ∈ n.whole ++ n.fraction.getD [], c.isDigit = true) :
    Judges n.clipped.value (ofDouble n.nearestBits) := by
  obtain ⟨num, den, hden, hquotient, hround⟩ :=
    Double.ofDecimal_eq_round n.significand n.clipped.power
  have hnonneg : (0 : ℚ) ≤ num / den := by positivity
  have hnearest : n.nearest = Double.round n.negative num den :=
    (nearest_eq hdigits).trans (hround _)
  have hvalue : n.clipped.value = if n.negative then -(n.significand * 10 ^ n.clipped.power : ℚ)
      else n.significand * 10 ^ n.clipped.power := rfl
  rw [hvalue, ← hquotient]
  -- numbers that round to zero come first: for them the sign makes no difference
  rcases le_or_gt ((num : ℚ) / den) (2 ^ (-1075 : ℤ)) with htiny | hsize
  · rw [nearestBits, hnearest, Double.round_eq_zero _ _ hden htiny]
    simp only [ofDouble_zero]
    refine judges_zero ?_
    split_ifs
    · rwa [abs_neg, abs_of_nonneg hnonneg]
    · rwa [abs_of_nonneg hnonneg]
  cases hnegative : n.negative with
  | false =>
    rw [hnegative] at hnearest
    rw [if_neg Bool.false_ne_true, nearestBits, hnearest]
    cases hresult : Double.round false num den with
    | some d => exact judges_round hden hresult
    | none =>
      have hover := mt (Double.exists_round_iff false num hden).2 (by simp [hresult])
      refine judges_of_not_standsFor ?_
      rintro ⟨k, hk⟩
      exact hover hk.most
  | true =>
    rw [hnegative] at hnearest
    have hrefused : ofDouble n.nearestBits = .error .invalidIndex := by
      rw [nearestBits, hnearest]
      cases hresult : Double.round true num den with
      | none => rfl
      | some d => exact ofDouble_of_round_true hden hresult hsize
    rw [if_pos rfl, hrefused]
    refine judges_of_not_standsFor ?_
    rintro ⟨k, hk⟩
    linarith [hk.least]

/-- An integer below the end of the doubles keeps the rule for integers, however small it is. -/
lemma follows_parse_of_value_lt (h : n.Writes (Text.trim text.toList))
    (hinteger : n.isInteger = true) (hlt : n.value < 2 ^ 1024 - 2 ^ 970) :
    Follows n.integer (parse text) := by
  cases hresult : n.nearest with
  | some d => exact follows_parse_of_nearest h hinteger hresult
  | none =>
    -- the integer lies beyond the doubles, so it must be below zero
    have hsize : (2 : ℚ) ^ 1024 - 2 ^ 970 ≤ natOfDigits n.whole := by
      rw [nearest_of_isInteger hinteger h.isDigit_whole] at hresult
      have hover := mt (Double.exists_round_iff n.negative (natOfDigits n.whole) Nat.one_pos).2
        (by simp [hresult])
      rwa [Nat.cast_one, div_one, not_lt] at hover
    have hnegative : n.negative = true := by
      by_contra hpositive
      rw [value_of_isInteger hinteger, integer, if_neg hpositive, Int.cast_natCast] at hlt
      exact absurd hsize (not_le.2 hlt)
    have hbeyond : maxWord < natOfDigits n.whole := by
      by_contra hword
      exact absurd hsize (not_le.2 (Double.natCast_lt_overflow (not_lt.1 hword)))
    have hword : ¬n.IsWord := fun hword => absurd hword.natOfDigits_le (not_le.2 hbeyond)
    rw [parse_of_writes h, if_neg hword, nearestBits, hresult]
    refine ⟨fun hn => ?_, fun _ => rfl⟩
    rw [integer, if_pos hnegative] at hn
    omega

/-- A word is judged as it is written, and every other number by the nearest double. -/
lemma judges_parse (h : n.Writes (Text.trim text.toList)) :
    Judges n.clipped.value (parse text) := by
  rw [parse_of_writes h]
  split_ifs with hword
  · obtain ⟨hinteger, -, hmost⟩ := hword
    rw [clipped_of_isInteger hinteger, value_of_isInteger hinteger, ofInt]
    split_ifs with hnegative
    · refine judges_of_not_standsFor ?_
      rintro ⟨k, hk⟩
      have hle : (n.integer : ℚ) ≤ -1 := by exact_mod_cast Int.le_sub_one_of_lt hnegative
      linarith [hk.least, Double.half_least_lt_one]
    · obtain ⟨k, hk⟩ := Int.eq_ofNat_of_zero_le (not_lt.1 hnegative)
      have hfits : k ≤ maxWord := by omega
      rw [hk, Int.toNat_natCast, min_eq_left hfits, Int.cast_natCast]
      exact judges_natCast hfits
  · exact judges_nearestBits h.isDigit

/-- A text that writes a number is judged by the number that is written, with a clipped exponent: it
is an index if the number stands for one, and otherwise it is refused as an index.  Below 655360 in
size the exponent is the one that is written.  Without point and exponent a number that doubles can
hold is judged exactly. -/
theorem parse_judges (h : n.Writes (Text.trim text.toList)) :
    Judges n.clipped.value (parse text) ∧
      (n.exponentValue.natAbs < 655360 → n.clipped.value = n.value) ∧
      (n.isInteger = true → n.value < 2 ^ 1024 - 2 ^ 970 → Follows n.integer (parse text)) :=
  ⟨judges_parse h, fun hexponent => by rw [clipped_eq_self hexponent], follows_parse_of_value_lt h⟩

/-- A sign, a point and an exponent, and an integer with zeros at its front, between blanks. -/
theorem parse_judges_padded :
    parse " +2.50e1\u00A0" = .ok (.index 25) ∧ parse "-007\n" = .error .invalidIndex := by
  let twentyFive : Numeral := ⟨false, ['2'], some ['5', '0'], some (false, ['1'])⟩
  have htwentyFive : twentyFive.Writes (Text.trim " +2.50e1\u00A0".toList) := by
    have htrim : Text.trim " +2.50e1\u00A0".toList = "+2.50e1".toList := by decide
    have hpower : SpellsExponent twentyFive.exponent ['e', '1'] :=
      .some (.inl rfl) .none (by decide) (List.all_eq_true.1 rfl)
    have hpoint : WritesFraction twentyFive.fraction ['.', '5', '0'] :=
      .some (List.all_eq_true.1 rfl)
    rw [htrim]
    exact .mk .plus (@WritesUnsigned.mk twentyFive _ _ (List.all_eq_true.1 rfl) hpoint (by decide)
      hpower)
  have hvalue : twentyFive.value = (25 : ℕ) := by
    have hsignificand : twentyFive.significand = 250 := by decide
    have hpower : twentyFive.power = -1 := by decide
    rw [value, if_neg (by decide), hsignificand, hpower]
    norm_num
  let seven : Numeral := ⟨true, ['0', '0', '7'], none, none⟩
  have hseven : seven.Writes (Text.trim "-007\n".toList) := by
    have htrim : Text.trim "-007\n".toList = "-007".toList := by decide
    rw [htrim]
    exact .mk .minus
      (@WritesUnsigned.mk seven [] [] (List.all_eq_true.1 rfl) .none (by decide) .none)
  have hlt : seven.value < 2 ^ 1024 - 2 ^ 970 := by
    have hinteger : seven.integer = -7 := by decide
    rw [value_of_isInteger rfl, hinteger]
    exact Double.lt_overflow (by norm_num)
  obtain ⟨hjudges, hexact, -⟩ := parse_judges htwentyFive
  have hclipped : twentyFive.clipped.value = (25 : ℕ) := (hexact (by decide)).trans hvalue
  exact ⟨hjudges.whole 25 hclipped (hclipped ▸ Double.natCast_lt_overflow (by decide))
      (.inl (by norm_num)),
    ((parse_judges hseven).2.2 rfl hlt).invalid (by decide)⟩

/-- Twenty nines behind the point are nearer to one than to any double below it. -/
theorem not_parse_exact : ¬∀ (text : String) (n : Numeral), n.Writes (Text.trim text.toList) →
    ((∃ k, parse text = .ok (.index k)) ↔ ∃ k : ℕ, n.value = k) := by
  intro hall
  let n : Numeral := ⟨false, ['0'], some "99999999999999999999".toList, none⟩
  have hwrites : n.Writes (Text.trim "0.99999999999999999999".toList) := by
    have htrim : Text.trim "0.99999999999999999999".toList = "0.99999999999999999999".toList := by
      decide
    have hpoint : WritesFraction n.fraction ".99999999999999999999".toList :=
      .some (List.all_eq_true.1 rfl)
    rw [htrim]
    exact .mk .none (@WritesUnsigned.mk n _ [] (List.all_eq_true.1 rfl) hpoint (by decide) .none)
  have hindex : parse "0.99999999999999999999" = .ok (.index 1) := by
    have hword : ¬n.IsWord := by decide
    have hbits : n.nearestBits = .finite ⟨false, 2 ^ 52, -52⟩ := by decide +kernel
    have hwhole : Double.whole? ⟨false, 2 ^ 52, -52⟩ = some 1 := by decide +kernel
    rw [parse_of_writes hwrites, if_neg hword, hbits, ofDouble, hwhole]
    rfl
  obtain ⟨k, hk⟩ := (hall _ n hwrites).1 ⟨1, hindex⟩
  have hvalue : n.value * 10 ^ 20 = 99999999999999999999 := by
    have hsignificand : n.significand = 99999999999999999999 := by decide +kernel
    have hpower : n.power = -20 := by decide +kernel
    rw [value, if_neg (by decide), hsignificand, hpower]
    norm_num
  rw [hk] at hvalue
  have hwhole : k * 10 ^ 20 = 99999999999999999999 := by exact_mod_cast hvalue
  omega

/-! ## JSON numbers -/

/-- The rule for integers leaves no choice. -/
lemma Follows.unique {i : ℤ} {first second : Except FindError Position} (hfirst : Follows i first)
    (hsecond : Follows i second) : first = second := by
  rcases le_or_gt 0 i with hnonneg | hneg
  · rw [hfirst.index hnonneg, hsecond.index hnonneg]
  · rw [hfirst.invalid hneg, hsecond.invalid hneg]

end Position

/-! ### The number in a text -/

namespace Json

open Numeral

variable {text : String} {n : Numeral} {number : Number}

lemma Source.exists_number {source : Source} {depth : ℕ}
    (h : source.value? depth = some (.num number)) :
    ∃ n, source = .number n ∧ Number.ofNumeral? n = some number := by
  cases source with
  | number n =>
    obtain ⟨found, hfound, heq⟩ := Option.map_eq_some_iff.1 h
    obtain rfl := Json.num.inj heq
    exact ⟨n, rfl, hfound⟩
  | null => cases h
  | bool => cases h
  | string quoted =>
    obtain ⟨_, -, heq⟩ := Option.map_eq_some_iff.1 h
    cases heq
  | array items =>
    cases depth with
    | zero => cases h
    | succ depth =>
      obtain ⟨_, -, heq⟩ := Option.map_eq_some_iff.1 h
      cases heq
  | object members =>
    cases depth with
    | zero => cases h
    | succ depth =>
      obtain ⟨_, -, heq⟩ := Option.map_eq_some_iff.1 h
      cases heq

lemma isBlank_of_isSpace {c : Char} (h : Token.isSpace c = true) : Text.isBlank c = true := by
  simp only [Token.isSpace, Bool.or_eq_true, decide_eq_true_eq] at h
  rcases h with ((rfl | rfl) | rfl) | rfl <;> decide

lemma isBlank_of_isNumberChar {c : Char} (h : isNumberChar c = true) : Text.isBlank c = false := by
  simp only [isNumberChar, Bool.or_eq_true] at h
  rcases h with h | h
  · exact isBlank_of_isDigit h
  · simp only [List.contains_eq_mem, decide_eq_true_eq, List.mem_cons, List.not_mem_nil,
      or_false] at h
    rcases h with rfl | rfl | rfl | rfl | rfl <;> decide

/-- The blanks of JSON are blanks of a text too, so trimming leaves the number alone. -/
lemma spells_of_read (h : Source.read text.toList = some (.number n)) :
    n.Spells (Text.trim text.toList) := by
  obtain ⟨rest, hnext, hrest⟩ := Token.scan_eq_cons_iff.1 (Source.scan_of_read h)
  obtain ⟨word, hword, hspells⟩ := spells_of_numeral? (Token.numeral?_of_next? hnext)
  have hbefore : ∀ c ∈ text.toList.takeWhile Token.isSpace, Text.isBlank c = true :=
    fun c hc => isBlank_of_isSpace (List.mem_takeWhile_imp hc)
  have hafter : ∀ c ∈ rest, Text.isBlank c = true := by
    have hblank := Token.pastSpaces_of_scan_nil hrest
    rw [Token.pastSpaces, List.dropWhile_eq_nil_iff] at hblank
    exact fun c hc => isBlank_of_isSpace (hblank c hc)
  have hcore : ∀ c ∈ word, Text.isBlank c = false :=
    fun c hc => isBlank_of_isNumberChar (hspells.isNumberChar c hc)
  have hne : word ≠ [] := by
    obtain ⟨c, tail, -, rfl | rfl⟩ := Yaml.Scalar.exists_digit_of_spells hspells
    · exact List.cons_ne_nil _ _
    · exact List.cons_ne_nil _ _
  have htext : text.toList = text.toList.takeWhile Token.isSpace ++ (word ++ rest) := by
    rw [← hword]
    exact (List.takeWhile_append_dropWhile).symm
  rw [htext, Text.trim_eq hbefore hafter hcore hne]
  exact hspells

end Json

namespace Position

open Numeral

variable {text : String} {n : Numeral} {number : Number}

/-- A number that is no word is read as the double that is gathered from its digits. -/
lemma ofNumeral?_of_not_isWord (h : ¬n.IsWord) :
    Number.ofNumeral? n = n.gathered.map .float := by
  unfold Number.ofNumeral?
  simp only [Bool.and_eq_true, Bool.not_eq_true', decide_eq_true_eq]
  rw [if_neg, if_neg]
  · rintro ⟨⟨⟨hinteger, hnegative⟩, -⟩, hle⟩
    refine h ⟨hinteger, ?_, ?_⟩ <;> rw [integer, if_pos hnegative] <;> omega
  · rintro ⟨⟨hinteger, hnegative⟩, hle⟩
    refine h ⟨hinteger, ?_, ?_⟩ <;> rw [integer, if_neg (by simp [hnegative])] <;> omega

/-- A text that is a JSON number, and the number that JSON reads from it, are both judged as
indices.  They are the same position exactly if the number is an integer that fits a word or the
nearest double is judged as the gathered one is.  So they are the same if the two doubles are, which
they are for a short number, and for every integer below the end of the doubles. -/
theorem parse_eq_ofJson_iff (h : Json.parse? text = some (.num number)) :
    ∃ n d, Json.Source.read text.toList = some (.number n) ∧ n.Spells (Text.trim text.toList) ∧
      Number.ofNumeral? n = some number ∧ n.gathered = some d ∧
      IsJudgement (parse text) ∧ IsJudgement (ofJson (.num number)) ∧
      (parse text = ofJson (.num number) ↔
        n.IsWord ∨ ofDouble n.nearestBits = ofDouble (.finite d)) ∧
      (n.nearest = some d ∨ n.IsShort ∨
          n.isInteger = true ∧ n.value < 2 ^ 1024 - 2 ^ 970 →
        parse text = ofJson (.num number)) := by
  obtain ⟨source, hread, hvalue⟩ := Option.bind_eq_some_iff.1 h
  obtain ⟨n, rfl, hnumber⟩ := Json.Source.exists_number hvalue
  have hspells := Json.spells_of_read hread
  have hwrites := hspells.writes
  have hdigits := hwrites.isDigit_whole
  have hparse := parse_of_writes hwrites
  have hjudged : IsJudgement (parse text) := by
    rw [hparse]
    split_ifs
    · exact isJudgement_ofInt _
    · exact isJudgement_ofDouble _
  obtain ⟨d, hd, hiff⟩ : ∃ d, n.gathered = some d ∧ (parse text = ofJson (.num number) ↔
      n.IsWord ∨ ofDouble n.nearestBits = ofDouble (.finite d)) := by
    -- an integer that fits a word is taken as it is by both, and a double is not looked at
    by_cases hword : n.IsWord
    · have hlt : natOfDigits n.whole < 10 ^ 308 := hword.natOfDigits_le.trans_lt (by decide +kernel)
      obtain ⟨d, hd, -⟩ := exists_gathered hword.1 hdigits hlt
      refine ⟨d, hd, iff_of_true ?_ (.inl hword)⟩
      rw [hparse, if_pos hword]
      exact (follows_ofInt _).unique (follows_ofNumeral? hword.1 hdigits hnumber)
    · rw [ofNumeral?_of_not_isWord hword] at hnumber
      obtain ⟨d, hd, rfl⟩ := Option.map_eq_some_iff.1 hnumber
      refine ⟨d, hd, ?_⟩
      rw [hparse, if_neg hword, or_iff_right hword]
      rfl
  have hsame : n.nearest = some d → parse text = ofJson (.num number) := by
    intro hnearest
    exact hiff.2 (.inr (by rw [nearestBits, hnearest]))
  refine ⟨n, d, hread, hspells, hnumber, hd, hjudged, isJudgement_ofJson number, hiff, ?_⟩
  rintro (hnearest | hshort | ⟨hinteger, hlt⟩)
  · exact hsame hnearest
  · exact hsame (gathered_eq_nearest hshort ▸ hd)
  · exact (follows_parse_of_value_lt hwrites hinteger hlt).unique
      (follows_ofNumeral? hinteger hdigits hnumber)

/-- Digits behind the point and an exponent that takes them back, between the blanks of JSON. -/
theorem parse_eq_ofJson_of_short :
    Json.parse? "\t2.50e1\n" = some (.num (.float ⟨false, 25 * 2 ^ 48, -48⟩)) ∧
      parse "\t2.50e1\n" = ofJson (.num (.float ⟨false, 25 * 2 ^ 48, -48⟩)) := by
  have hread : Json.Source.read "\t2.50e1\n".toList =
      some (.number ⟨false, ['2'], some ['5', '0'], some (false, ['1'])⟩) := by rfl
  have hjson : Json.parse? "\t2.50e1\n" = some (.num (.float ⟨false, 25 * 2 ^ 48, -48⟩)) := by
    have hnumber : Number.ofNumeral? ⟨false, ['2'], some ['5', '0'], some (false, ['1'])⟩ =
        some (.float ⟨false, 25 * 2 ^ 48, -48⟩) := by decide +kernel
    rw [Json.parse?, hread, Option.bind_some, Json.Source.value?, hnumber]
    rfl
  obtain ⟨n, d, hsource, -, -, -, -, -, -, hsame⟩ := parse_eq_ofJson_iff hjson
  obtain rfl := Json.Source.number.inj (Option.some.inj (hread.symm.trans hsource))
  exact ⟨hjson, hsame (.inr (.inl ⟨List.all_eq_true.1 rfl, by decide, by decide, by decide⟩))⟩

/-- The digits of this number make a word that is no double, and the quotient of the double next to
it by a power of ten falls short of the whole number that is written. -/
theorem not_parse_eq_ofJson : ¬∀ (text : String) (number : Number),
    Json.parse? text = some (.num number) → parse text = ofJson (.num number) := by
  intro hall
  let n : Numeral := ⟨false, "1050575321".toList, some "0000000000".toList, none⟩
  have hread : Json.Source.read "1050575321.0000000000".toList = some (.number n) := by rfl
  have hjson : Json.parse? "1050575321.0000000000" =
      some (.num (.float ⟨false, 8812864542343167, -23⟩)) := by
    have hnumber : Number.ofNumeral? n = some (.float ⟨false, 8812864542343167, -23⟩) := by
      decide +kernel
    rw [Json.parse?, hread, Option.bind_some, Json.Source.value?, hnumber]
    rfl
  have hword : ¬n.IsWord := by decide
  have hbits : n.nearestBits = .finite ⟨false, 8812864542343168, -23⟩ := by decide +kernel
  have hwhole : Double.whole? ⟨false, 8812864542343168, -23⟩ = some 1050575321 := by decide +kernel
  have hfraction : Double.whole? ⟨false, 8812864542343167, -23⟩ = none := by decide +kernel
  have hsame := hall _ _ hjson
  rw [parse_of_writes (Json.spells_of_read hread).writes, if_neg hword, hbits, ofJson, ofDouble,
    ofDouble, hwhole, hfraction] at hsame
  cases hsame

end Position

end SiblingQuery
