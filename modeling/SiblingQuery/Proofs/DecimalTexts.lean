import SiblingQuery.Proofs.NearestDouble
import SiblingQuery.Proofs.PrintedNumbers
import SiblingQuery.Query.Position

/-!
# Decimal texts

`Numeral.Writes` says how a numeral is written in decimal: with a sign or none, digits with a point
or none, and an exponent or none.  A position in a text is read by three readers one after the
other.  An integer that fits a word is taken exactly, and every other numeral as the nearest double
(`Position.parse_of_writes`).
-/

namespace SiblingQuery

/-! ## Blanks -/

lemma isBlank_of_isDigit {c : Char} (h : c.isDigit = true) : Text.isBlank c = false := by
  simp only [Char.isDigit, Bool.and_eq_true, decide_eq_true_eq] at h
  have hlow : 48 ≤ c.toNat := h.1
  have hhigh : c.toNat ≤ 57 := h.2
  simp only [Text.isBlank, Bool.or_eq_false_iff, Bool.and_eq_false_iff, decide_eq_false_iff_not]
  omega

lemma Text.trim_eq {before core after : List Char} (hbefore : ∀ c ∈ before, isBlank c = true)
    (hafter : ∀ c ∈ after, isBlank c = true) (hcore : ∀ c ∈ core, isBlank c = false)
    (hne : core ≠ []) : trim (before ++ (core ++ after)) = core := by
  have hstart : (core ++ after).dropWhile isBlank = core ++ after := by
    obtain ⟨c, rest, rfl⟩ := List.exists_cons_of_ne_nil hne
    rw [List.cons_append, List.dropWhile_cons_of_neg (by simp [hcore c])]
  have hfinish : core.reverse.dropWhile isBlank = core.reverse := by
    obtain ⟨c, rest, hreverse⟩ := List.exists_cons_of_ne_nil (mt List.reverse_eq_nil_iff.1 hne)
    have hc : c ∈ core := List.mem_reverse.1 (by rw [hreverse]; exact List.mem_cons_self)
    rw [hreverse, List.dropWhile_cons_of_neg (by simp [hcore c hc])]
  rw [trim, trimEnd, List.dropWhile_append_of_pos hbefore, hstart, List.reverse_append,
    List.dropWhile_append_of_pos (fun c hc => hafter c (List.mem_reverse.1 hc)), hfinish,
    List.reverse_reverse]

/-! ## Ways of writing -/

namespace Numeral

/-- The integer that a numeral without fraction and exponent is. -/
def integer (numeral : Numeral) : ℤ :=
  if numeral.negative then -natOfDigits numeral.whole else natOfDigits numeral.whole

lemma isInteger_iff {numeral : Numeral} :
    numeral.isInteger = true ↔ numeral.fraction = none ∧ numeral.exponent = none := by
  simp [isInteger]

lemma natAbs_integer {numeral : Numeral} : numeral.integer.natAbs = natOfDigits numeral.whole := by
  rw [integer]
  split_ifs <;> simp

lemma clipped_of_isInteger {numeral : Numeral} (h : numeral.isInteger = true) :
    numeral.clipped = numeral :=
  clipped_eq_self (by simp [exponentValue, (isInteger_iff.1 h).2])

lemma value_of_isInteger {numeral : Numeral} (h : numeral.isInteger = true) :
    numeral.value = numeral.integer := by
  obtain ⟨hfraction, hexponent⟩ := isInteger_iff.1 h
  have hpower : numeral.power = 0 := by simp [power, exponentValue, hfraction, hexponent]
  have hsignificand : numeral.significand = natOfDigits numeral.whole := by
    simp [significand, hfraction]
  rw [value, integer, hpower, hsignificand, zpow_zero, mul_one]
  split_ifs <;> simp

/-- How the digits after the point are written.  With a point there may still be none. -/
inductive WritesFraction : Option (List Char) → List Char → Prop
  | none : WritesFraction none []
  | some {run : List Char} (hrun : ∀ c ∈ run, c.isDigit = true) :
      WritesFraction (some run) ('.' :: run)

/-- How a numeral is written in decimal without its sign: at least one digit stands before or after
the point. -/
inductive WritesUnsigned (n : Numeral) : List Char → Prop
  | mk {point power : List Char} (hwhole : ∀ c ∈ n.whole, c.isDigit = true)
      (hpoint : WritesFraction n.fraction point) (hne : n.whole ++ n.fraction.getD [] ≠ [])
      (hpower : SpellsExponent n.exponent power) : WritesUnsigned n (n.whole ++ (point ++ power))

/-- How a numeral is written in decimal. -/
inductive Writes (n : Numeral) : List Char → Prop
  | mk {sign body : List Char} (hsign : SpellsSign n.negative sign) (h : WritesUnsigned n body) :
      Writes n (sign ++ body)

/-- Digits alone write an integer. -/
lemma writesUnsigned_digits (negative : Bool) {digits : List Char} (hne : digits ≠ [])
    (hdigits : ∀ c ∈ digits, c.isDigit = true) :
    (⟨negative, digits, none, none⟩ : Numeral).WritesUnsigned digits := by
  have hwritten := @WritesUnsigned.mk ⟨negative, digits, none, none⟩ [] [] hdigits .none
    (by simpa using hne) .none
  rwa [List.append_nil, List.append_nil] at hwritten

/-- The nearest double, or else an infinity. -/
def nearestBits (n : Numeral) : DoubleBits :=
  match n.nearest with
  | some d => .finite d
  | none => .infinite n.negative

variable {n : Numeral} {word body : List Char}

lemma WritesUnsigned.isDigit (h : WritesUnsigned n body) :
    ∀ c ∈ n.whole ++ n.fraction.getD [], c.isDigit = true := by
  obtain ⟨hwhole, hpoint, -, -⟩ := h
  refine List.forall_mem_append.2 ⟨hwhole, ?_⟩
  generalize n.fraction = fraction at hpoint
  cases hpoint with
  | none => nofun
  | some hrun => exact hrun

lemma Writes.isDigit (h : Writes n word) :
    ∀ c ∈ n.whole ++ n.fraction.getD [], c.isDigit = true := by
  obtain ⟨-, h⟩ := h
  exact h.isDigit

lemma Writes.isDigit_whole (h : Writes n word) : ∀ c ∈ n.whole, c.isDigit = true :=
  fun c hc => h.isDigit c (List.mem_append_left _ hc)

/-- An integer is written in digits alone. -/
lemma WritesUnsigned.eq_whole (h : WritesUnsigned n body) (hinteger : n.isInteger = true) :
    body = n.whole ∧ n.whole ≠ [] ∧ ∀ c ∈ n.whole, c.isDigit = true := by
  obtain ⟨hwhole, hpoint, hne, hpower⟩ := h
  obtain ⟨hfraction, hexponent⟩ := isInteger_iff.1 hinteger
  rw [hfraction] at hpoint hne
  rw [hexponent] at hpower
  cases hpoint
  cases hpower
  exact ⟨by simp, by simpa using hne, hwhole⟩

/-- The first character is a digit or the point. -/
lemma WritesUnsigned.exists_cons (h : WritesUnsigned n body) :
    ∃ c rest, body = c :: rest ∧ (c.isDigit = true ∨ c = '.') := by
  obtain ⟨hwhole, hpoint, hne, -⟩ := h
  generalize n.fraction = fraction at hpoint hne
  generalize n.whole = whole at hwhole hne ⊢
  cases whole with
  | cons c whole => exact ⟨c, _, rfl, .inl (hwhole c List.mem_cons_self)⟩
  | nil =>
    cases hpoint with
    | none => exact absurd rfl hne
    | some => exact ⟨'.', _, rfl, .inr rfl⟩

/-- Every other numeral has a point or the mark of an exponent. -/
lemma WritesUnsigned.exists_mark (h : WritesUnsigned n body) (hinteger : n.isInteger = false) :
    ∃ c ∈ body, c = '.' ∨ c = 'e' ∨ c = 'E' := by
  obtain ⟨-, hpoint, -, hpower⟩ := h
  have hnot : ¬(n.fraction = none ∧ n.exponent = none) := by
    rw [← isInteger_iff, hinteger]
    exact Bool.false_ne_true
  generalize n.fraction = fraction at hpoint hnot
  generalize n.exponent = exponent at hpower hnot
  cases hpoint with
  | some => exact ⟨'.', by simp, .inl rfl⟩
  | none =>
    cases hpower with
    | none => exact absurd ⟨rfl, rfl⟩ hnot
    | @some mark _ _ _ hmark => exact ⟨mark, by simp, .inr hmark⟩

end Numeral

/-! ## Words -/

section Words

variable {digits word : List Char}

lemma Word.readDigits_eq (limit : ℕ) (h : ∀ c ∈ digits, c.isDigit = true) (n : ℕ)
    (hn : n ≤ limit) :
    Word.readDigits limit digits n =
      if Nat.ofDigitChars 10 digits n ≤ limit then .ok (Nat.ofDigitChars 10 digits n)
      else .error .tooLarge := by
  induction digits generalizing n with
  | nil => simp [Word.readDigits, hn]
  | cons c digits ih =>
    have hc : c.isDigit = true := h c List.mem_cons_self
    have hnext : n * 10 + digitValue c = 10 * n + (c.toNat - '0'.toNat) := by
      rw [digitValue, mul_comm]
    rw [Word.readDigits, hc, hnext, Nat.ofDigitChars_cons]
    simp only [Bool.not_true, Bool.false_eq_true, if_false]
    split_ifs with hover hfits hfits
    · have hle := le_ofDigitChars digits (10 * n + (c.toNat - '0'.toNat))
      have hone : 1 ≤ 10 ^ digits.length := Nat.one_le_pow _ _ (by norm_num)
      nlinarith
    · rfl
    · rw [ih (fun c hc => h c (List.mem_cons_of_mem _ hc)) _ (not_lt.1 hover), if_pos hfits]
    · rw [ih (fun c hc => h c (List.mem_cons_of_mem _ hc)) _ (not_lt.1 hover), if_neg hfits]

lemma Word.readDigits_zero (limit : ℕ) (h : ∀ c ∈ digits, c.isDigit = true) :
    Word.readDigits limit digits 0 =
      if Numeral.natOfDigits digits ≤ limit then .ok (Numeral.natOfDigits digits)
      else .error .tooLarge :=
  readDigits_eq limit h 0 (Nat.zero_le _)

lemma Word.parse_digits (hne : digits ≠ []) (h : ∀ c ∈ digits, c.isDigit = true) :
    Word.parse digits = Word.readDigits maxWord digits 0 ∧
      Word.parse ('+' :: digits) = Word.readDigits maxWord digits 0 ∧
      Word.parse ('-' :: digits) = .error .invalidDigit := by
  obtain ⟨c, rest, rfl⟩ := List.exists_cons_of_ne_nil hne
  have hplus : c ≠ '+' := by
    rintro rfl
    exact absurd (h '+' List.mem_cons_self) (by decide)
  refine ⟨?_, rfl, rfl⟩
  unfold Word.parse
  split <;> simp_all

lemma Word.parseSigned?_digits (hne : digits ≠ []) (h : ∀ c ∈ digits, c.isDigit = true) :
    Word.parseSigned? digits = (if Numeral.natOfDigits digits ≤ signedBound - 1 then
        some (Numeral.natOfDigits digits : ℤ) else none) ∧
      Word.parseSigned? ('+' :: digits) = (if Numeral.natOfDigits digits ≤ signedBound - 1 then
        some (Numeral.natOfDigits digits : ℤ) else none) ∧
      Word.parseSigned? ('-' :: digits) = (if Numeral.natOfDigits digits ≤ signedBound then
        some (-Numeral.natOfDigits digits : ℤ) else none) := by
  have hread := fun limit => Word.readDigits_zero limit h
  obtain ⟨c, rest, rfl⟩ := List.exists_cons_of_ne_nil hne
  have hplus : c ≠ '+' := by
    rintro rfl
    exact absurd (h '+' List.mem_cons_self) (by decide)
  have hminus : c ≠ '-' := by
    rintro rfl
    exact absurd (h '-' List.mem_cons_self) (by decide)
  refine ⟨?_, ?_, ?_⟩
  · unfold Word.parseSigned?
    split <;> simp_all only [List.cons.injEq, ne_eq, not_true_eq_false, false_and]
    split_ifs <;> rfl
  · simp only [Word.parseSigned?, hread]
    split_ifs <;> rfl
  · simp only [Word.parseSigned?, hread]
    split_ifs <;> rfl

/-- What is no digit is no part of a word either. -/
lemma Word.readDigits_ne_ok {c : Char} (hmem : c ∈ word) (hc : c.isDigit = false) (limit n m : ℕ) :
    Word.readDigits limit word n ≠ .ok m := by
  induction word generalizing n with
  | nil => cases hmem
  | cons first word ih =>
    rw [Word.readDigits]
    split_ifs with hfirst hover
    · nofun
    · nofun
    · rcases List.mem_cons.1 hmem with rfl | hmem
      · simp [hc] at hfirst
      · exact ih hmem _

lemma Word.parse_ne_ok {c : Char} (hmem : c ∈ word) (hdigit : c.isDigit = false) (hplus : c ≠ '+')
    (m : ℕ) : Word.parse word ≠ .ok m := by
  unfold Word.parse
  split
  · nofun
  · nofun
  · exact Word.readDigits_ne_ok ((List.mem_cons.1 hmem).resolve_left hplus) hdigit _ _ m
  · exact Word.readDigits_ne_ok hmem hdigit _ _ m

lemma Word.parseSigned?_eq_none {c : Char} (hmem : c ∈ word)
    (hc : c = '.' ∨ c = 'e' ∨ c = 'E') : Word.parseSigned? word = none := by
  have hdigit : c.isDigit = false := by rcases hc with rfl | rfl | rfl <;> decide
  have hplus : c ≠ '+' := by rcases hc with rfl | rfl | rfl <;> decide
  have hminus : c ≠ '-' := by rcases hc with rfl | rfl | rfl <;> decide
  have hread {limit : ℕ} {rest : List Char} (hrest : c ∈ rest) :
      (Word.readDigits limit rest 0).toOption = none := by
    cases hresult : Word.readDigits limit rest 0 with
    | error => rfl
    | ok m => exact absurd hresult (Word.readDigits_ne_ok hrest hdigit limit 0 m)
  unfold Word.parseSigned?
  split
  · rfl
  · rfl
  · rfl
  · rw [hread ((List.mem_cons.1 hmem).resolve_left hminus)]
    rfl
  · rw [hread ((List.mem_cons.1 hmem).resolve_left hplus)]
    rfl
  · rw [hread hmem]
    rfl

end Words

/-! ## Real numbers -/

namespace Real

open Numeral

variable {n : Numeral} {word body : List Char}

lemma exponent?_of_spells {exponent : Option (Bool × List Char)} {power : List Char}
    (h : SpellsExponent exponent power) : exponent? power = some exponent := by
  cases h with
  | none => rfl
  | @some mark negative sign run hmark hsign hne hrun =>
    obtain ⟨c, rest, rfl⟩ := List.exists_cons_of_ne_nil hne
    have hc := hrun c List.mem_cons_self
    have hrest := fun d hd => hrun d (List.mem_cons_of_mem c hd)
    cases hsign with
    | minus => simpa [exponent?, hmark, hc] using hrest
    | plus => simpa [exponent?, hmark, hc] using hrest
    | none =>
      have hminus : c ≠ '-' := by
        rintro rfl
        cases hc
      have hplus : c ≠ '+' := by
        rintro rfl
        cases hc
      simpa [exponent?, hmark, hminus, hplus, hc] using hrest

/-- A run of digits ends where no digit follows. -/
lemma span_digits {run rest : List Char} (hrun : ∀ c ∈ run, c.isDigit = true)
    (hrest : ∀ c ∈ rest.head?, c.isDigit = false) :
    (run ++ rest).takeWhile Char.isDigit = run ∧ (run ++ rest).dropWhile Char.isDigit = rest := by
  rw [List.takeWhile_append_of_pos hrun, List.dropWhile_append_of_pos hrun]
  cases rest with
  | nil => simp
  | cons c rest =>
    have hc : ¬c.isDigit = true := by simp [hrest c rfl]
    rw [List.takeWhile_cons_of_neg hc, List.dropWhile_cons_of_neg hc, List.append_nil]
    exact ⟨rfl, rfl⟩

lemma numeral?_of_writes (h : WritesUnsigned n body) : numeral? n.negative body = some n := by
  obtain ⟨negative, whole, fraction, exponent⟩ := n
  obtain ⟨hwhole, hpoint, hne, hpower⟩ := h
  simp only at hwhole hpoint hne hpower ⊢
  have hexponent := exponent?_of_spells hpower
  -- what may stand behind digits is no digit, so a run of digits is read to its end
  have hmark : ∀ power, SpellsExponent exponent power →
      ∀ c ∈ power.head?, c.isDigit = false ∧ c ≠ '.' := by
    rintro _ (_ | @⟨mark, negative, sign, run, rfl | rfl, _, _, _⟩)
    · nofun
    · simp
    · simp
  cases hpoint with
  | none =>
    obtain ⟨htake, hdrop⟩ := span_digits hwhole fun c hc => (hmark _ hpower c hc).1
    rw [List.nil_append, numeral?, htake, hdrop]
    simp only
    split
    · exact absurd rfl (hmark _ hpower '.' rfl).2
    · rw [if_neg (by simpa using hne), hexponent]
      rfl
  | @some run hrun =>
    obtain ⟨htake, hdrop⟩ := @span_digits whole ('.' :: (run ++ _)) hwhole (by simp)
    obtain ⟨htake', hdrop'⟩ := span_digits hrun fun c hc => (hmark _ hpower c hc).1
    rw [List.cons_append, numeral?, htake, hdrop]
    simp only [htake', hdrop', hexponent, Option.map_some]
    rw [if_neg (by simpa using hne)]

/-- A text that begins with a digit or a point is no name. -/
lemma toLower_ne {c : Char} {rest : List Char} (hc : c.isDigit = true ∨ c = '.') {name : String}
    (hname : name.toList.head?.any (fun c => c.isDigit || c = '.') = false) :
    String.ofList ((c :: rest).map Char.toLower) ≠ name := by
  have hlower : c.toLower = c := by
    rcases hc with hc | rfl
    · simp only [Char.isDigit, Bool.and_eq_true, decide_eq_true_eq] at hc
      have hhigh : c.toNat ≤ 57 := hc.2
      unfold Char.toLower
      refine dif_neg fun hcapital => ?_
      have hlow : 65 ≤ c.toNat := hcapital.1
      omega
    · decide
  rintro rfl
  rcases hc with hc | rfl
  · simp [hlower, hc] at hname
  · simp at hname

/-- What begins with a digit or a point is read as a numeral. -/
lemma unsigned?_of_writes (h : WritesUnsigned n body) :
    unsigned? n.negative body = some n.nearestBits := by
  have hnumeral := numeral?_of_writes h
  obtain ⟨c, rest, rfl, hc⟩ := h.exists_cons
  unfold unsigned?
  rw [hnumeral]
  refine (if_neg (not_or.2 ⟨?_, ?_⟩)).trans (if_neg ?_)
  all_goals exact toLower_ne hc (by decide)

/-- What stands behind the sign is read as a number without one. -/
lemma parse?_sign_append {negative : Bool} {sign : List Char} (hsign : SpellsSign negative sign)
    (hbody : ∀ c ∈ body.head?, c ≠ '-' ∧ c ≠ '+') :
    parse? (sign ++ body) = unsigned? negative body := by
  cases hsign with
  | minus => rfl
  | plus => rfl
  | none =>
    rw [List.nil_append]
    unfold parse?
    split
    · exact absurd rfl (hbody '-' rfl).1
    · exact absurd rfl (hbody '+' rfl).2
    · rfl

/-- A decimal numeral is read as the nearest double. -/
lemma parse?_of_writes (h : Writes n word) : parse? word = some n.nearestBits := by
  obtain ⟨hsign, h⟩ := h
  rw [parse?_sign_append hsign, unsigned?_of_writes h]
  obtain ⟨c, rest, rfl, hc⟩ := h.exists_cons
  rintro _ ⟨⟩
  constructor
  · rintro rfl
    simp at hc
  · rintro rfl
    simp at hc

end Real

/-! ## Positions -/

namespace Numeral

/-- An integer that fits a signed or an unsigned 64-bit word. -/
def IsWord (n : Numeral) : Prop :=
  n.isInteger = true ∧ -(signedBound : ℤ) ≤ n.integer ∧ n.integer ≤ maxWord

instance (n : Numeral) : Decidable n.IsWord :=
  inferInstanceAs (Decidable (_ ∧ _))

lemma IsWord.natOfDigits_le {n : Numeral} (h : n.IsWord) : natOfDigits n.whole ≤ maxWord := by
  obtain ⟨-, hleast, hmost⟩ := h
  rw [← natAbs_integer]
  unfold signedBound at hleast
  unfold maxWord at hmost ⊢
  omega

lemma maxWord_lt_of_not_isWord {n : Numeral} (hinteger : n.isInteger = true) (h : ¬n.IsWord)
    (hnegative : n.negative = false) : maxWord < natOfDigits n.whole := by
  have hvalue : n.integer = natOfDigits n.whole := if_neg (by simp [hnegative])
  rw [IsWord, hvalue] at h
  simp only [hinteger, true_and] at h
  omega

end Numeral

namespace Position

open Numeral

/-- The three readers of a text, one after the other. -/
def ofReadings (word : List Char) (bits : DoubleBits) : Except FindError Position :=
  match Word.parse word with
  | .ok k => .ok (.index k)
  | .error _ =>
    match Word.parseSigned? word with
    | some k => ofInt k
    | none => ofDouble bits

variable {n : Numeral} {word body : List Char}

lemma ofReadings_natural (hinteger : n.isInteger = true) (hnegative : n.negative = false)
    (hdigits : ∀ c ∈ n.whole, c.isDigit = true)
    (hword : Word.parse word = Word.readDigits maxWord n.whole 0)
    (hsigned : Word.parseSigned? word = if natOfDigits n.whole ≤ signedBound - 1 then
      some (natOfDigits n.whole : ℤ) else none) :
    ofReadings word n.nearestBits =
      if n.IsWord then ofInt n.integer else ofDouble n.nearestBits := by
  have hvalue : n.integer = natOfDigits n.whole := if_neg (by simp [hnegative])
  have hfits : n.IsWord ↔ natOfDigits n.whole ≤ maxWord := by
    rw [IsWord, hvalue]
    simp only [hinteger, true_and]
    omega
  rw [Word.readDigits_zero _ hdigits] at hword
  by_cases hle : natOfDigits n.whole ≤ maxWord
  · rw [if_pos hle] at hword
    rw [ofReadings, hword, if_pos (hfits.2 hle), hvalue]
    simp [ofInt, hle]
  · rw [if_neg hle] at hword
    rw [if_neg (by unfold maxWord at hle; unfold signedBound; omega)] at hsigned
    rw [ofReadings, hword, hsigned, if_neg (mt hfits.1 hle)]

lemma ofReadings_negative (hinteger : n.isInteger = true) (hnegative : n.negative = true)
    (hword : Word.parse word = .error .invalidDigit)
    (hsigned : Word.parseSigned? word = if natOfDigits n.whole ≤ signedBound then
      some (-natOfDigits n.whole : ℤ) else none) :
    ofReadings word n.nearestBits =
      if n.IsWord then ofInt n.integer else ofDouble n.nearestBits := by
  have hvalue : n.integer = -natOfDigits n.whole := if_pos hnegative
  have hfits : n.IsWord ↔ natOfDigits n.whole ≤ signedBound := by
    rw [IsWord, hvalue]
    simp only [hinteger, true_and]
    omega
  rw [ofReadings, hword, hsigned]
  by_cases hle : natOfDigits n.whole ≤ signedBound
  · rw [if_pos hle, if_pos (hfits.2 hle), hvalue]
  · rw [if_neg hle, if_neg (mt hfits.1 hle)]

/-- An integer that fits a word is a position as it is, and every other numeral is one as the
nearest double. -/
lemma parse_of_writes {text : String} (h : n.Writes (Text.trim text.toList)) :
    parse text = if n.IsWord then ofInt n.integer else ofDouble n.nearestBits := by
  have hreadings : parse text = ofReadings (Text.trim text.toList) n.nearestBits := by
    simp only [parse, Real.parse?_of_writes h]
    rfl
  rw [hreadings]
  generalize Text.trim text.toList = word at h
  obtain ⟨hsign, h⟩ := h
  -- a word is digits, so a point or an exponent leaves only the nearest double
  cases hinteger : n.isInteger with
  | true =>
    obtain ⟨rfl, hne, hdigits⟩ := h.eq_whole hinteger
    obtain ⟨hplain, hplus, hminus⟩ := Word.parse_digits hne hdigits
    obtain ⟨hplain', hplus', hminus'⟩ := Word.parseSigned?_digits hne hdigits
    generalize hnegative : n.negative = negative at hsign
    cases hsign with
    | minus => exact ofReadings_negative hinteger hnegative hminus hminus'
    | plus => exact ofReadings_natural hinteger hnegative hdigits hplus hplus'
    | none => exact ofReadings_natural hinteger hnegative hdigits hplain hplain'
  | false =>
    obtain ⟨c, hmem, hc⟩ := h.exists_mark hinteger
    rename_i sign body
    have hmem' : c ∈ sign ++ body := List.mem_append_right sign hmem
    have hword : ¬n.IsWord := fun hword => by simp [hword.1] at hinteger
    have hdigit : c.isDigit = false := by rcases hc with rfl | rfl | rfl <;> decide
    have hplus : c ≠ '+' := by rcases hc with rfl | rfl | rfl <;> decide
    rw [ofReadings, Word.parseSigned?_eq_none hmem' hc, if_neg hword]
    cases hresult : Word.parse (sign ++ body) with
    | error => rfl
    | ok m => exact absurd hresult (Word.parse_ne_ok hmem' hdigit hplus m)

end Position

end SiblingQuery
