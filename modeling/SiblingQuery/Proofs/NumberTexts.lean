import SiblingQuery.Proofs.PathTexts
import SiblingQuery.Proofs.WrittenPositions

/-!
# Which texts are numbers

A position in a text is tried as a word, then as a signed integer and then as a real number, and
what none of the three readers takes is no position at all.  `Real.IsNumber` is the grammar of the
last one: a sign or none, and then a name or a numeral.  The grammars of the first two lie within it
(`Word.isNumber_of_parse`, `Word.isNumber_of_parseSigned?`), so it alone decides what is a number.

The second reader could be left out.  What it takes and the first does not is an integer behind a
minus sign, and of such a number the nearest double keeps all that the index rules ask for
(`Position.parse_eq_parseUnsigned`).

A number from minus one down is no index, whichever reader takes it.  For the last one it is the
number with a clipped exponent that counts, and that may be another: where the exponent is not taken
whole and even more digits stand behind the point, nothing is left of a number that is written as a
huge one.
-/

namespace SiblingQuery

/-! ## The grammar -/

namespace Real

open Numeral

/-- The names of an infinity and of what is no number to count with, in capitals or not. -/
def IsName (word : List Char) : Prop :=
  word.map Char.toLower ∈ ["inf".toList, "infinity".toList, "nan".toList]

/-- What is written as a number: after a sign or none a name, or else a numeral. -/
inductive IsNumber : List Char → Prop
  | named {negative : Bool} {sign name : List Char} (hsign : SpellsSign negative sign)
      (hname : IsName name) : IsNumber (sign ++ name)
  | numeral {n : Numeral} {word : List Char} (h : n.Writes word) : IsNumber word

variable {negative : Bool} {n : Numeral} {word body name power : List Char}
  {exponent : Option (Bool × List Char)} {bits : DoubleBits}

/-! ### Exponents and numerals -/

/-- The reader of exponents takes exactly what an exponent is spelled as. -/
lemma exponent?_eq_some_iff : exponent? power = some exponent ↔ SpellsExponent exponent power := by
  refine ⟨fun h => ?_, exponent?_of_spells⟩
  unfold exponent? at h
  split at h
  · obtain rfl := Option.some.inj h
    exact .none
  · next mark rest =>
    split_ifs at h with hmark
    have hread {negative : Bool} {sign digits : List Char} (hsign : SpellsSign negative sign)
        (h : (if digits ≠ [] ∧ digits.all Char.isDigit then some (some (negative, digits))
          else none) = some exponent) : SpellsExponent exponent (mark :: (sign ++ digits)) := by
      split_ifs at h with hdigits
      obtain rfl := Option.some.inj h
      exact .some hmark hsign hdigits.1 (List.all_eq_true.1 hdigits.2)
    dsimp only at h
    split at h
    · exact hread .minus h
    · exact hread .plus h
    · exact hread .none h

/-- The reader of numerals takes exactly what a numeral is written as. -/
lemma numeral?_eq_some_iff :
    numeral? negative body = some n ↔ n.negative = negative ∧ n.WritesUnsigned body := by
  constructor
  · intro h
    have hwhole : ∀ c ∈ body.takeWhile Char.isDigit, c.isDigit = true :=
      fun c hc => List.mem_takeWhile_imp hc
    rw [← List.takeWhile_append_dropWhile (p := Char.isDigit) (l := body)]
    unfold numeral? at h
    split at h
    · next rest hrest =>
      dsimp only at h
      split_ifs at h with hne
      obtain ⟨exponent, hexponent, rfl⟩ := Option.map_eq_some_iff.1 h
      have hpoint : WritesFraction (some (rest.takeWhile Char.isDigit))
          ('.' :: rest.takeWhile Char.isDigit) := .some fun c hc => List.mem_takeWhile_imp hc
      have hbody := @WritesUnsigned.mk ⟨negative, _, _, exponent⟩ _ _ hwhole hpoint
        (by simpa using hne) (exponent?_eq_some_iff.1 hexponent)
      rw [List.cons_append, List.takeWhile_append_dropWhile, ← hrest] at hbody
      exact ⟨rfl, hbody⟩
    · dsimp only at h
      split_ifs at h with hne
      obtain ⟨exponent, hexponent, rfl⟩ := Option.map_eq_some_iff.1 h
      exact ⟨rfl, @WritesUnsigned.mk ⟨negative, _, none, exponent⟩ [] _ hwhole .none
        (by simpa using hne) (exponent?_eq_some_iff.1 hexponent)⟩
  · rintro ⟨rfl, h⟩
    exact numeral?_of_writes h

/-! ### Signs and names -/

lemma exists_sign_of_parse? (h : parse? word = some bits) : ∃ negative sign body,
    word = sign ++ body ∧ SpellsSign negative sign ∧ unsigned? negative body = some bits := by
  unfold parse? at h
  split at h
  · exact ⟨true, _, _, rfl, .minus, h⟩
  · exact ⟨false, _, _, rfl, .plus, h⟩
  · exact ⟨false, [], _, rfl, .none, h⟩

/-- No name begins with a digit, a point or a sign. -/
lemma IsName.exists_cons (h : IsName name) : ∃ c rest, name = c :: rest ∧ 65 ≤ c.toNat := by
  cases name with
  | nil => simp [IsName] at h
  | cons c rest =>
    refine ⟨c, rest, rfl, ?_⟩
    have hletter : c.toLower = 'i' ∨ c.toLower = 'n' := by
      simp only [IsName, List.map_cons, List.mem_cons, List.not_mem_nil, or_false] at h
      rcases h with h | h | h
      · exact .inl (List.cons.inj h).1
      · exact .inl (List.cons.inj h).1
      · exact .inr (List.cons.inj h).1
    by_contra hlow
    have hsame : c.toLower = c := by
      unfold Char.toLower
      exact dif_neg fun hcapital => hlow hcapital.1
    rw [hsame] at hletter
    rcases hletter with rfl | rfl
    · exact hlow (by decide)
    · exact hlow (by decide)

lemma isName_iff : IsName word ↔
    (String.ofList (word.map Char.toLower) = "inf" ∨
      String.ofList (word.map Char.toLower) = "infinity") ∨
      String.ofList (word.map Char.toLower) = "nan" := by
  simp only [IsName, List.mem_cons, List.not_mem_nil, or_false, or_assoc, String.ext_iff,
    String.toList_ofList]

lemma unsigned?_of_isName (h : IsName name) (negative : Bool) :
    unsigned? negative name = some (.infinite negative) ∨ unsigned? negative name = some .nan := by
  rw [isName_iff] at h
  unfold unsigned?
  by_cases hinf : String.ofList (name.map Char.toLower) = "inf" ∨
      String.ofList (name.map Char.toLower) = "infinity"
  · exact .inl (if_pos hinf)
  · exact .inr ((if_neg hinf).trans (if_pos (h.resolve_left hinf)))

/-- Without a sign, a name or a numeral is read as a number, and nothing else is. -/
lemma exists_unsigned?_iff : (∃ bits, unsigned? negative body = some bits) ↔
    IsName body ∨ ∃ n : Numeral, n.negative = negative ∧ n.WritesUnsigned body := by
  by_cases hname : IsName body
  · refine iff_of_true ?_ (.inl hname)
    rcases unsigned?_of_isName hname negative with h | h
    · exact ⟨_, h⟩
    · exact ⟨_, h⟩
  · rw [or_iff_right hname]
    rw [isName_iff, not_or] at hname
    unfold unsigned?
    simp only [if_neg hname.1, if_neg hname.2, Option.map_eq_some_iff, ← numeral?_eq_some_iff]
    exact ⟨fun ⟨_, n, hn, _⟩ => ⟨n, hn⟩, fun ⟨n, hn⟩ => ⟨_, n, hn, rfl⟩⟩

/-- The reader of real numbers takes exactly what is written as a number. -/
lemma exists_parse?_iff : (∃ bits, parse? word = some bits) ↔ IsNumber word := by
  constructor
  · rintro ⟨bits, h⟩
    obtain ⟨negative, sign, body, rfl, hsign, hbody⟩ := exists_sign_of_parse? h
    rcases exists_unsigned?_iff.1 ⟨bits, hbody⟩ with hname | ⟨n, rfl, hn⟩
    · exact .named hsign hname
    · exact .numeral (.mk hsign hn)
  · rintro (⟨hsign, hname⟩ | h)
    · obtain ⟨bits, hbits⟩ := exists_unsigned?_iff.2 (.inl hname)
      refine ⟨bits, (parse?_sign_append hsign ?_).trans hbits⟩
      obtain ⟨c, rest, rfl, hc⟩ := hname.exists_cons
      rintro _ ⟨⟩
      constructor
      · rintro rfl
        exact absurd hc (by decide)
      · rintro rfl
        exact absurd hc (by decide)
    · exact ⟨_, parse?_of_writes h⟩

end Real

/-! ## Integers -/

namespace Word

open Numeral

variable {word : List Char}

/-- What is a word is a number. -/
lemma isNumber_of_parse {n : ℕ} (h : parse word = .ok n) : Real.IsNumber word := by
  obtain ⟨hsign, hne, hdigits, -, -⟩ := parse_eq_ok_iff.1 h
  exact .numeral (.mk hsign (writesUnsigned_digits false hne hdigits))

/-- A signed integer that is no word has a minus sign. -/
lemma parseSigned?_cases {k : ℤ} (h : parseSigned? word = some k) : (∃ n, parse word = .ok n) ∨
    ∃ digits, word = '-' :: digits ∧ digits ≠ [] ∧ (∀ c ∈ digits, c.isDigit = true) ∧
      natOfDigits digits ≤ signedBound ∧ k = -natOfDigits digits := by
  -- the digits after a sign, whichever bound the sign sets
  have hread {limit : ℕ} {digits : List Char} {f : ℤ → ℤ}
      (h : Option.map f (do let n ← (readDigits limit digits 0).toOption; pure (n : ℤ)) = some k) :
      (∀ c ∈ digits, c.isDigit = true) ∧ natOfDigits digits ≤ limit ∧
        f (natOfDigits digits) = k := by
    cases hresult : readDigits limit digits 0 with
    | error e =>
      rw [hresult] at h
      cases h
    | ok n =>
      rw [hresult] at h
      obtain ⟨hdigits, rfl, hle⟩ := eq_of_readDigits hresult
      exact ⟨hdigits, hle, Option.some.inj h⟩
  have hfits : signedBound - 1 ≤ maxWord := by decide
  unfold parseSigned? at h
  split at h
  · cases h
  · cases h
  · cases h
  · next digits hne =>
    obtain ⟨hdigits, hle, hk⟩ := hread h
    exact .inr ⟨digits, rfl, hne, hdigits, hle, hk.symm⟩
  · next digits hne =>
    obtain ⟨hdigits, hle, -⟩ := hread h
    exact .inl ⟨_, parse_eq_ok_iff.2 (.mk .plus hne hdigits rfl (hle.trans hfits))⟩
  · next hne _ _ _ _ =>
    obtain ⟨hdigits, hle, -⟩ := hread h
    exact .inl ⟨_, parse_eq_ok_iff.2 (.mk .none hne hdigits rfl (hle.trans hfits))⟩

/-- What is a signed integer is a number. -/
lemma isNumber_of_parseSigned? {k : ℤ} (h : parseSigned? word = some k) : Real.IsNumber word := by
  rcases parseSigned?_cases h with ⟨n, hn⟩ | ⟨digits, rfl, hne, hdigits, -, -⟩
  · exact isNumber_of_parse hn
  · exact .numeral (.mk .minus (writesUnsigned_digits true hne hdigits))

end Word

/-! ## Numerals -/

namespace Numeral

variable {n : Numeral} {word : List Char}

/-- A numeral is written without blanks. -/
lemma Writes.isBlank (h : n.Writes word) : ∀ c ∈ word, Text.isBlank c = false := by
  have hsigns {negative : Bool} {sign : List Char} (hsign : SpellsSign negative sign) :
      ∀ c ∈ sign, Text.isBlank c = false := by
    cases hsign with
    | none => exact List.forall_mem_nil _
    | plus => exact List.forall_mem_singleton.2 rfl
    | minus => exact List.forall_mem_singleton.2 rfl
  have hdigits {run : List Char} (hrun : ∀ c ∈ run, c.isDigit = true) :
      ∀ c ∈ run, Text.isBlank c = false := fun c hc => isBlank_of_isDigit (hrun c hc)
  obtain ⟨hsign, hwhole, hpoint, -, hpower⟩ := h
  refine List.forall_mem_append.2 ⟨hsigns hsign, List.forall_mem_append.2 ⟨hdigits hwhole,
    List.forall_mem_append.2 ⟨?_, ?_⟩⟩⟩
  · generalize n.fraction = fraction at hpoint
    cases hpoint with
    | none => nofun
    | some hrun => exact List.forall_mem_cons.2 ⟨by decide, hdigits hrun⟩
  · generalize n.exponent = exponent at hpower
    cases hpower with
    | none => nofun
    | some hmark hsign _ hrun =>
      refine List.forall_mem_cons.2 ⟨?_, List.forall_mem_append.2 ⟨hsigns hsign, hdigits hrun⟩⟩
      rcases hmark with rfl | rfl
      · decide
      · decide

lemma Writes.trim_eq (h : n.Writes word) : Text.trim word = word := by
  have hne : word ≠ [] := by
    obtain ⟨-, h⟩ := h
    obtain ⟨c, rest, rfl, -⟩ := h.exists_cons
    exact List.append_ne_nil_of_right_ne_nil _ (List.cons_ne_nil c rest)
  simpa using Text.trim_eq (@List.forall_mem_nil _ _) (@List.forall_mem_nil _ _) h.isBlank hne

lemma value_le_neg_one_iff :
    n.value ≤ -1 ↔ n.negative = true ∧ (1 : ℚ) ≤ n.significand * 10 ^ n.power := by
  have hnonneg : (0 : ℚ) ≤ n.significand * 10 ^ n.power := by positivity
  rw [value]
  split_ifs with hnegative
  · rw [neg_le_neg_iff, and_iff_right hnegative]
  · exact iff_of_false (by linarith) fun h => hnegative h.1

/-- A number from minus one down stays there with a clipped exponent, unless the exponent is not
taken whole and more digits stand behind the point than are left of it. -/
lemma clipped_value_le (h : n.value ≤ -1)
    (hexact : n.exponentValue < 655360 ∨ (n.fraction.getD []).length ≤ 0x10000) :
    n.clipped.value ≤ -1 := by
  have hclipped : n.clipped.power = n.clipped.exponentValue - ((n.fraction.getD []).length : ℤ) :=
    rfl
  have hwritten : n.power = n.exponentValue - ((n.fraction.getD []).length : ℤ) := rfl
  rcases clipped_cases n with hsame | ⟨hlarge, hreached⟩ | ⟨-, hle⟩
  · rwa [hsame]
  · obtain ⟨hnegative, hone⟩ := value_le_neg_one_iff.1 h
    refine value_le_neg_one_iff.2 ⟨hnegative, ?_⟩
    have hdigits : n.significand ≠ 0 := by
      intro hzero
      rw [hzero, Nat.cast_zero, zero_mul] at hone
      linarith
    have hpower : 0 ≤ n.clipped.power := by omega
    have hsignificand : (1 : ℚ) ≤ n.significand := by
      exact_mod_cast Nat.one_le_iff_ne_zero.2 hdigits
    exact one_le_mul_of_one_le_of_one_le hsignificand (one_le_zpow₀ (by norm_num) hpower)
  · obtain ⟨hnegative, hone⟩ := value_le_neg_one_iff.1 h
    refine value_le_neg_one_iff.2 ⟨hnegative, hone.trans ?_⟩
    change (n.significand * 10 ^ n.power : ℚ) ≤ n.significand * 10 ^ n.clipped.power
    gcongr
    · norm_num
    · omega

end Numeral

/-! ## Positions -/

namespace Position

open Numeral

variable {q : ℚ} {answer : Except FindError Position} {text : String} {n : Numeral}

/-- The position of a text, without trying it as a signed integer. -/
def parseUnsigned (text : String) : Except FindError Position :=
  let trimmed := Text.trim text.toList
  match Word.parse trimmed with
  | .ok n => .ok (.index n)
  | .error _ =>
    match Real.parse? trimmed with
    | some d => ofDouble d
    | none => .error .invalidPosition

/-- A number from minus one down stands for no index. -/
lemma Judges.eq_invalidIndex (h : Judges q answer) (hq : q ≤ -1) :
    answer = .error .invalidIndex := by
  refine h.invalid ?_
  rintro ⟨k, hk⟩
  linarith [hk.least, Double.half_least_lt_one]

/-- An integer behind a minus sign is the same position as its nearest double. -/
lemma parse_eq_parseUnsigned (text : String) : parse text = parseUnsigned text := by
  unfold parse parseUnsigned
  simp only
  generalize Text.trim text.toList = word
  cases hword : Word.parse word with
  | ok n => rfl
  | error e =>
    cases hsigned : Word.parseSigned? word with
    | none => rfl
    | some k =>
      simp only
      rcases Word.parseSigned?_cases hsigned with
        ⟨n, hn⟩ | ⟨digits, rfl, hne, hdigits, hle, rfl⟩
      · cases hword.symm.trans hn
      · have hwrites : (⟨true, digits, none, none⟩ : Numeral).Writes ('-' :: digits) :=
          .mk .minus (writesUnsigned_digits true hne hdigits)
        obtain ⟨d, hd, hkeeps⟩ := exists_nearest ⟨true, digits, none, none⟩ rfl hdigits
          (hle.trans_lt (by decide +kernel))
        rw [Real.parse?_of_writes hwrites, nearestBits, hd]
        exact (follows_ofInt _).unique (follows_of_keeps hkeeps fun h => by cases h)

/-- What is no number is no position, and every number is a position or no index. -/
lemma parse_eq_invalidPosition_iff :
    parse text = .error .invalidPosition ↔ ¬Real.IsNumber (Text.trim text.toList) := by
  rw [parse_eq_parseUnsigned]
  unfold parseUnsigned
  simp only
  cases hword : Word.parse (Text.trim text.toList) with
  | ok n => exact iff_of_false nofun (not_not.2 (Word.isNumber_of_parse hword))
  | error e =>
    rw [← Real.exists_parse?_iff]
    cases hreal : Real.parse? (Text.trim text.toList) with
    | none => simp
    | some bits =>
      refine iff_of_false ?_ (by simp)
      rcases isJudgement_ofDouble bits with ⟨k, hbits⟩ | hbits
      · simp [hbits]
      · simp [hbits]

/-- An infinity is no index, and neither is what is no number to count with. -/
lemma parse_of_isName {negative : Bool} {sign name : List Char}
    (htrim : Text.trim text.toList = sign ++ name) (hsign : SpellsSign negative sign)
    (hname : Real.IsName name) : parse text = .error .invalidIndex := by
  obtain ⟨c, rest, rfl, hc⟩ := hname.exists_cons
  -- a name begins with a letter, which no word and no sign does
  have hdigit : c.isDigit = false := by
    rw [Bool.eq_false_iff]
    intro hdigit
    simp only [Char.isDigit, Bool.and_eq_true, decide_eq_true_eq] at hdigit
    have hhigh : c.toNat ≤ 57 := hdigit.2
    omega
  have hne {d : Char} (hd : d.toNat < 65) : c ≠ d := by
    rintro rfl
    omega
  have hword : ∀ k, Word.parse (sign ++ c :: rest) ≠ .ok k :=
    Word.parse_ne_ok (List.mem_append_right sign List.mem_cons_self) hdigit (hne (by decide))
  have hreal : Real.parse? (sign ++ c :: rest) = Real.unsigned? negative (c :: rest) :=
    Real.parse?_sign_append hsign (by
      rintro _ ⟨⟩
      exact ⟨hne (by decide), hne (by decide)⟩)
  rw [parse_eq_parseUnsigned, parseUnsigned, htrim]
  cases hresult : Word.parse (sign ++ c :: rest) with
  | ok k => exact absurd hresult (hword k)
  | error e =>
    rw [hreal]
    rcases Real.unsigned?_of_isName hname negative with hbits | hbits
    · rw [hbits]
      rfl
    · rw [hbits]
      rfl

/-- What becomes of a text is decided by the grammar of numbers.  Only what is no number is refused
as a position.  Words and signed integers are numbers, and a text that is tried as a word and as a
real number alone is the same position.  An infinity, what is no number to count with and a number
from minus one down are refused as indices.  That number is the one with a clipped exponent, and so
the one that is written if its exponent is below 655360 or no more than 65536 digits stand behind
its point. -/
theorem parse_follows_grammar (text : String) :
    (parse text = .error .invalidPosition ↔ ¬Real.IsNumber (Text.trim text.toList)) ∧
    (∀ word, (∃ n, Word.parse word = .ok n) ∨ (∃ i, Word.parseSigned? word = some i) →
      Real.IsNumber word) ∧
    parse text = parseUnsigned text ∧
    (∀ negative sign name, Text.trim text.toList = sign ++ name → SpellsSign negative sign →
      Real.IsName name → parse text = .error .invalidIndex) ∧
    ∀ n : Numeral, n.Writes (Text.trim text.toList) →
      (n.clipped.value ≤ -1 ∨ n.value ≤ -1 ∧
        (n.exponentValue < 655360 ∨ (n.fraction.getD []).length ≤ 0x10000)) →
      parse text = .error .invalidIndex := by
  refine ⟨parse_eq_invalidPosition_iff, fun word hword => ?_, parse_eq_parseUnsigned text,
    fun negative sign name htrim hsign hname => parse_of_isName htrim hsign hname,
    fun n hwrites hvalue => ?_⟩
  · rcases hword with ⟨n, hn⟩ | ⟨i, hi⟩
    · exact Word.isNumber_of_parse hn
    · exact Word.isNumber_of_parseSigned? hi
  · have hclipped : n.clipped.value ≤ -1 := by
      rcases hvalue with hvalue | ⟨hvalue, hexact⟩
      · exact hvalue
      · exact clipped_value_le hvalue hexact
    exact (judges_parse hwrites).eq_invalidIndex hclipped

/-- An infinity in capitals and small letters, a mark without an exponent behind it, and a numeral
that is exactly minus one. -/
theorem parse_follows_grammar_mixed :
    parse "\t+iNFinity" = .error .invalidIndex ∧ parse "1.5e+" = .error .invalidPosition ∧
      parse "-10E-1 " = .error .invalidIndex := by
  refine ⟨?_, ?_, ?_⟩
  · have htrim : Text.trim "\t+iNFinity".toList = ['+'] ++ "iNFinity".toList := by decide
    have hname : Real.IsName "iNFinity".toList := by
      unfold Real.IsName
      decide
    exact (parse_follows_grammar _).2.2.2.1 false ['+'] _ htrim .plus hname
  · refine (parse_follows_grammar _).1.2 fun hnumber => ?_
    obtain ⟨bits, hbits⟩ := Real.exists_parse?_iff.2 hnumber
    have hnone : Real.parse? (Text.trim "1.5e+".toList) = none := by decide
    cases hnone.symm.trans hbits
  · let n : Numeral := ⟨true, ['1', '0'], none, some (true, ['1'])⟩
    have hwrites : n.Writes (Text.trim "-10E-1 ".toList) := by
      have htrim : Text.trim "-10E-1 ".toList = "-10E-1".toList := by decide
      have hpower : SpellsExponent n.exponent ['E', '-', '1'] :=
        .some (.inr rfl) .minus (by decide) (List.all_eq_true.1 rfl)
      rw [htrim]
      exact .mk .minus (@WritesUnsigned.mk n [] _ (List.all_eq_true.1 rfl) .none (by decide) hpower)
    have hvalue : n.value ≤ -1 := by
      have hsignificand : n.significand = 10 := by decide
      have hpower : n.power = -1 := by decide
      rw [value_le_neg_one_iff, hsignificand, hpower]
      norm_num [n]
    exact (parse_follows_grammar _).2.2.2.2 n hwrites (.inr ⟨hvalue, .inl (by decide)⟩)

/-- Of the exponent 655360 the last digit is not taken.  Behind a point and 66000 zeros that makes
the difference between a huge number and next to nothing, which is the index zero, also with a minus
sign. -/
theorem not_parse_invalidIndex_of_value_le : ¬∀ (text : String) (n : Numeral),
    n.Writes (Text.trim text.toList) → n.value ≤ -1 → parse text = .error .invalidIndex := by
  intro hall
  obtain ⟨zeros, hlength, hzeros⟩ :
      ∃ zeros : List Char, zeros.length = 66000 ∧ ∀ c ∈ zeros, c = '0' :=
    ⟨List.replicate 66000 '0', List.length_replicate, fun c => List.eq_of_mem_replicate⟩
  let n : Numeral := ⟨true, ['0'], some (zeros ++ ['1']), some (false, "655360".toList)⟩
  let word := '-' :: '0' :: '.' :: (zeros ++ ['1'] ++ "e655360".toList)
  have hwrites : n.Writes word := by
    have hfraction : ∀ c ∈ zeros ++ ['1'], c.isDigit = true := by
      refine List.forall_mem_append.2 ⟨fun c hc => ?_, List.forall_mem_singleton.2 rfl⟩
      rw [hzeros c hc]
      rfl
    have hpower : SpellsExponent n.exponent "e655360".toList :=
      .some (.inl rfl) .none (by decide) (List.all_eq_true.1 rfl)
    exact .mk .minus (@WritesUnsigned.mk n _ _ (List.all_eq_true.1 rfl) (.some hfraction)
      (by simp [n]) hpower)
  have htrim : Text.trim (String.ofList word).toList = word := by
    rw [String.toList_ofList, hwrites.trim_eq]
  have hsignificand : n.significand = 1 := by
    rw [significand, ← natOfDigits_dropWhile]
    change natOfDigits ((['0'] ++ (zeros ++ ['1'])).dropWhile (· = '0')) = 1
    rw [← List.append_assoc, List.dropWhile_append_of_pos]
    · rfl
    · simpa using hzeros
  have hvalue : n.value ≤ -1 := by
    have hpower : n.power = 589359 := by
      have hexponent : n.exponentValue = 655360 := rfl
      rw [power, hexponent]
      simp [n, hlength]
    rw [value_le_neg_one_iff, hsignificand, hpower, Nat.cast_one, one_mul]
    exact ⟨rfl, one_le_zpow₀ (by norm_num) (by norm_num)⟩
  -- the exponent as it is taken has one digit less, so the number is next to nothing
  have hnear : |n.clipped.value| ≤ 2 ^ (-1075 : ℤ) := by
    have hpower : n.clipped.power = -465 := by
      have hexponent : n.clipped.exponentValue = 65536 := rfl
      rw [power, hexponent]
      simp [n, clipped, hlength]
    have hclipped : n.clipped.value = -(n.significand * 10 ^ n.clipped.power) := rfl
    rw [hclipped, hsignificand, hpower, Nat.cast_one, one_mul, abs_neg, abs_of_pos (by positivity)]
    exact (zpow_le_zpow_right₀ (by norm_num) (by norm_num)).trans Double.ten_zpow_le
  have hindex : ∃ k, StandsFor n.clipped.value k := by
    by_contra hnone
    cases (judges_zero hnear).invalid hnone
  obtain ⟨k, -, hk⟩ := (judges_parse (htrim.symm ▸ hwrites)).index hindex
  cases (hall (String.ofList word) n (htrim.symm ▸ hwrites) hvalue).symm.trans hk

end Position

end SiblingQuery
