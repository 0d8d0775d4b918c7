import SiblingQuery.Proofs.IndexRules
import SiblingQuery.Proofs.YamlResolving

/-!
# Numbers that two formats write alike

A JSON number is a plain YAML scalar, and mostly the same number.  `Numeral.Spells` says how a
numeral is written, and each reader is described by it: the JSON reader takes a spelling off the
front of the text (`spells_of_numeral?`), and the YAML readers of integers and real numbers read one
by the numeral that it spells (`Scalar.int?_of_spells`, `Scalar.real?_of_spells`).

They differ in two ways.  JSON has a negative zero, and gathers digits into a word before it scales
them, while YAML rounds to the nearest double.  `Numeral.ReadsAlike` keeps both out.
-/

namespace SiblingQuery

namespace Numeral

variable {n : Numeral} {word body : List Char}

/-! ## Spellings -/

/-- Of the spelling of a number the digits before the point come first, and behind them stands no
digit. -/
lemma SpellsUnsigned.exists_tail (h : SpellsUnsigned n body) :
    IsWhole n.whole ∧ ∃ tail, body = n.whole ++ tail ∧
      (∀ c ∈ tail.head?, c = '.' ∨ c = 'e' ∨ c = 'E') ∧ (tail = [] ↔ n.isInteger = true) := by
  obtain ⟨hwhole, hpoint, hpower⟩ := h
  refine ⟨hwhole, _, rfl, ?_⟩
  rw [isInteger_iff]
  generalize n.fraction = fraction at hpoint
  generalize n.exponent = exponent at hpower
  cases hpoint with
  | some => simp
  | none =>
    cases hpower with
    | none => simp
    | some hmark => simpa using .inr hmark

/-- A spelling is a way of writing the numeral in decimal. -/
lemma Spells.writes (h : Spells n word) : n.Writes word := by
  have hunsigned {body : List Char} (h : SpellsUnsigned n body) : n.WritesUnsigned body := by
    obtain ⟨hwhole, hpoint, hpower⟩ := h
    refine .mk hwhole.isDigit ?_ (List.append_ne_nil_of_left_ne_nil hwhole.ne_nil _) hpower
    generalize n.fraction = fraction at hpoint
    cases hpoint with
    | none => exact .none
    | some _ hrun => exact .some hrun
  cases h with
  | positive hsign h =>
    have hnone : SpellsSign n.negative [] := by
      rw [hsign]
      exact .none
    exact .mk hnone (hunsigned h)
  | negative hsign h =>
    have hminus : SpellsSign n.negative ['-'] := by
      rw [hsign]
      exact .minus
    exact .mk hminus (hunsigned h)

/-! ## The JSON reader -/

section Reading

open Json.Token

variable {text rest run : List Char}

lemma isWhole_of_whole? {whole : List Char} (h : whole? text = some (whole, rest)) :
    text = whole ++ rest ∧ IsWhole whole := by
  obtain ⟨hne, hdigit⟩ := isDigit_of_whole? h
  unfold whole? at h
  split at h
  · obtain ⟨rfl, rfl⟩ := Prod.mk.inj (Option.some.inj h)
    exact ⟨rfl, hne, hdigit, fun _ => rfl⟩
  · next hzero =>
    obtain ⟨rfl, -⟩ := eq_append_of_digits? h
    refine ⟨rfl, hne, hdigit, fun hhead => ?_⟩
    obtain ⟨tail, rfl⟩ := List.head?_eq_some_iff.1 hhead
    exact absurd rfl (hzero _)

lemma spellsFraction_of_fraction? {fraction : Option (List Char)}
    (h : fraction? text = some (fraction, rest)) :
    ∃ point, text = point ++ rest ∧ SpellsFraction fraction point := by
  unfold fraction? at h
  split at h
  · obtain ⟨⟨run, after⟩, hrun, heq⟩ := Option.map_eq_some_iff.1 h
    obtain ⟨rfl, rfl⟩ := Prod.mk.inj heq
    obtain ⟨rfl, hne⟩ := eq_append_of_digits? hrun
    exact ⟨_, rfl, .some hne (isDigit_of_digits? hrun)⟩
  · obtain ⟨rfl, rfl⟩ := Prod.mk.inj (Option.some.inj h)
    exact ⟨[], rfl, .none⟩

lemma spellsExponent_of_exponent? {exponent : Option (Bool × List Char)}
    (h : exponent? text = some (exponent, rest)) :
    ∃ power, text = power ++ rest ∧ SpellsExponent exponent power := by
  have hdigits {mark : Char} {negative : Bool} {sign digits : List Char}
      (hmark : mark = 'e' ∨ mark = 'E') (hsign : SpellsSign negative sign)
      (hread : (digits? digits).map (fun found => (some (negative, found.1), found.2)) =
        some (exponent, rest)) :
      ∃ power, mark :: (sign ++ digits) = power ++ rest ∧ SpellsExponent exponent power := by
    obtain ⟨⟨run, after⟩, hrun, heq⟩ := Option.map_eq_some_iff.1 hread
    obtain ⟨rfl, rfl⟩ := Prod.mk.inj heq
    obtain ⟨rfl, hne⟩ := eq_append_of_digits? hrun
    exact ⟨_, by simp, .some hmark hsign hne (isDigit_of_digits? hrun)⟩
  unfold exponent? at h
  split at h
  · split_ifs at h with hmark
    · split at h
      · exact hdigits hmark .minus h
      · exact hdigits hmark .plus h
      · exact hdigits hmark .none h
    · obtain ⟨rfl, rfl⟩ := Prod.mk.inj (Option.some.inj h)
      exact ⟨[], rfl, .none⟩
  · obtain ⟨rfl, rfl⟩ := Prod.mk.inj (Option.some.inj h)
    exact ⟨[], rfl, .none⟩

/-- The JSON reader takes a spelling of the number off the front of the text. -/
lemma spells_of_numeral? (h : numeral? text = some (n, rest)) :
    ∃ word, text = word ++ rest ∧ Spells n word := by
  have hunsigned {negative : Bool} {text : List Char}
      (h : unsigned? negative text = some (n, rest)) :
      n.negative = negative ∧ ∃ body, text = body ++ rest ∧ SpellsUnsigned n body := by
    simp only [unsigned?, Option.bind_eq_bind, Option.bind_eq_some_iff, Prod.exists,
      Option.pure_def, Option.some.injEq, Prod.mk.injEq] at h
    obtain ⟨whole, _, hwhole, fraction, _, hfraction, exponent, _, hexponent, rfl, rfl⟩ := h
    obtain ⟨rfl, hdigits⟩ := isWhole_of_whole? hwhole
    obtain ⟨point, rfl, hpoint⟩ := spellsFraction_of_fraction? hfraction
    obtain ⟨power, rfl, hpower⟩ := spellsExponent_of_exponent? hexponent
    exact ⟨rfl, _, by simp, .mk hdigits hpoint hpower⟩
  unfold numeral? at h
  split at h
  · obtain ⟨hsign, body, rfl, hbody⟩ := hunsigned h
    exact ⟨'-' :: body, rfl, .negative hsign hbody⟩
  · obtain ⟨hsign, body, rfl, hbody⟩ := hunsigned h
    exact ⟨body, rfl, .positive hsign hbody⟩

end Reading

end Numeral

/-! ## The readers of plain scalars -/

namespace Yaml.Scalar

open Numeral

variable {n : Numeral} {word body : List Char} {limit : ℕ}

lemma hexValue?_of_isDigit {c : Char} (h : c.isDigit = true) :
    hexValue? c = some (c.toNat - '0'.toNat) ∧ c.toNat - '0'.toNat < 10 := by
  simp only [Char.isDigit, Bool.and_eq_true, decide_eq_true_eq] at h
  have hhigh : c.toNat ≤ 57 := h.2
  refine ⟨if_pos h, ?_⟩
  have hzero : '0'.toNat = 48 := rfl
  omega

/-- Reading digits one by one gives the number that they denote. -/
lemma foldlM_digits {step : ℕ → Char → Option ℕ}
    (hstep : ∀ n c, c.isDigit = true → step n c = some (n * 10 + (c.toNat - '0'.toNat)))
    {digits : List Char} (h : ∀ c ∈ digits, c.isDigit = true) (n : ℕ) :
    digits.foldlM step n = some (Nat.ofDigitChars 10 digits n) := by
  induction digits generalizing n with
  | nil => rfl
  | cons c digits ih =>
    obtain ⟨hc, hdigits⟩ := List.forall_mem_cons.1 h
    rw [List.foldlM_cons, hstep n c hc, Nat.ofDigitChars_cons, Nat.mul_comm 10 n]
    exact ih hdigits _

/-- Digits with a point or an exponent behind them are no integer. -/
lemma natUpTo?_of_spells (limit : ℕ) (h : SpellsUnsigned n body) :
    natUpTo? limit 10 body =
      if n.isInteger = true ∧ natOfDigits n.whole ≤ limit then some (natOfDigits n.whole)
      else none := by
  obtain ⟨hwhole, tail, rfl, hhead, htail⟩ := h.exists_tail
  have hne : n.whole ++ tail ≠ [] := List.append_ne_nil_of_left_ne_nil hwhole.ne_nil _
  rw [natUpTo?, natInRadix?, if_neg hne, List.foldlM_append, foldlM_digits _ hwhole.isDigit]
  · cases tail with
    | nil =>
      have hinteger := htail.1 rfl
      simp [hinteger, Option.filter_some, natOfDigits]
    | cons c tail =>
      have hinteger : n.isInteger = false := by simpa using htail.not
      have hvalue : ∀ d, hexValue? c = some d → ¬d < 10 := by
        rcases hhead c rfl with rfl | rfl | rfl <;> simp [hexValue?]
      cases hc : hexValue? c with
      | none => simp [hc, hinteger]
      | some d => simp [hc, hvalue d hc, hinteger]
  · intro n c hc
    obtain ⟨hvalue, hlt⟩ := hexValue?_of_isDigit hc
    simp only [hvalue, hlt, if_true]

/-- A spelling without its sign has no sign, no mark of a radix, and no zero before a digit. -/
lemma looks_of_spells (h : SpellsUnsigned n body) :
    withoutPlus body = body ∧ isSigned body = false ∧ marked? body = none ∧
      hasLeadingZero body = false ∧ hasLeadingZero ('-' :: body) = false := by
  obtain ⟨hwhole, tail, rfl, hhead, htail⟩ := h.exists_tail
  obtain ⟨c, rest, hcons⟩ := List.exists_cons_of_ne_nil hwhole.ne_nil
  have hc := hwhole.isDigit c (hcons ▸ List.mem_cons_self)
  have hplus : c ≠ '+' := by
    rintro rfl
    cases hc
  have hminus : c ≠ '-' := by
    rintro rfl
    cases hc
  rw [hcons, List.cons_append]
  refine ⟨by simp [withoutPlus, hplus], by simp [isSigned, hplus, hminus], ?_⟩
  by_cases hzero : c = '0'
  · subst hzero
    have hrest : rest = [] := (List.cons.inj (hcons ▸ hwhole.zero (by rw [hcons]; rfl))).2
    subst hrest
    cases tail with
    | nil => decide
    | cons d tail =>
      have hdigit : d.isDigit = false := by
        rcases hhead d rfl with rfl | rfl | rfl <;> decide
      refine ⟨?_, by simp [hasLeadingZero, hdigit], by simp [hasLeadingZero, hdigit]⟩
      rcases hhead d rfl with rfl | rfl | rfl <;> rfl
  · exact ⟨by simp [marked?, hzero], by simp [hasLeadingZero, hplus, hminus, hzero],
      by simp [hasLeadingZero, hzero]⟩

lemma unsigned?_of_spells (limit : ℕ) (h : Spells n word) :
    unsigned? limit word =
      if n.negative = false ∧ n.isInteger = true ∧ natOfDigits n.whole ≤ limit then
        some (natOfDigits n.whole)
      else none := by
  cases h with
  | positive hsign h =>
    obtain ⟨hplus, hsigned, hmarked, hzero, -⟩ := looks_of_spells h
    simp [unsigned?, hplus, hsigned, hmarked, hzero, natUpTo?_of_spells limit h, hsign]
  | negative hsign h => simp [unsigned?, withoutPlus, marked?, isSigned, hsign]

lemma negative?_of_spells (limit : ℕ) (h : Spells n word) :
    negative? limit word =
      if n.negative = true ∧ n.isInteger = true ∧ natOfDigits n.whole ≤ limit then
        some (-natOfDigits n.whole : ℤ)
      else none := by
  cases h with
  | positive hsign h =>
    obtain ⟨c, rest, rfl, hc⟩ := h.exists_digit
    have hminus : c ≠ '-' := by
      rintro rfl
      cases hc
    simp [negative?, hminus, hsign]
  | negative hsign h =>
    obtain ⟨-, -, hmarked, hzero, -⟩ := looks_of_spells h
    simp only [negative?, hmarked, hzero, Bool.false_eq_true, if_false,
      natUpTo?_of_spells limit h, hsign, true_and]
    split_ifs <;> rfl

/-- A number begins with a digit, or with a sign and a digit. -/
lemma exists_digit_of_spells (h : Spells n word) :
    ∃ c rest, c.isDigit = true ∧ (word = c :: rest ∨ word = '-' :: c :: rest) := by
  cases h with
  | positive _ h =>
    obtain ⟨c, rest, rfl, hc⟩ := h.exists_digit
    exact ⟨c, rest, hc, .inl rfl⟩
  | negative _ h =>
    obtain ⟨c, rest, rfl, hc⟩ := h.exists_digit
    exact ⟨c, rest, hc, .inr rfl⟩

/-- A name without a digit at its front is not the spelling of a number. -/
lemma ne_of_spells (h : Spells n word) {name : String}
    (hname : (name.toList.dropWhile (· = '-')).head?.any Char.isDigit = false) :
    String.ofList word ≠ name := by
  rintro rfl
  rw [String.toList_ofList] at hname
  obtain ⟨c, rest, hc, hword⟩ := exists_digit_of_spells h
  have hminus : c ≠ '-' := by
    rintro rfl
    cases hc
  rcases hword with rfl | rfl <;> simp [hminus, hc] at hname

/-- A number is read as the nearest double where a real number is asked for. -/
lemma real?_of_spells (h : Spells n word) :
    real? (String.ofList word) = n.nearest.map fun d => .num (.float d) := by
  have hplus : withoutPlus word = word := by
    obtain ⟨c, rest, hc, rfl | rfl⟩ := exists_digit_of_spells h
    · unfold withoutPlus
      split <;> simp_all
    · rfl
  have hspecial : isSpecial (String.ofList word) = false := by
    have hnames : ∀ name ∈ [".inf", ".Inf", ".INF", "-.inf", "-.Inf", "-.INF", ".nan", ".NaN",
        ".NAN"], (name.toList.dropWhile (· = '-')).head?.any Char.isDigit = false := by decide
    have hnot := fun name hname => ne_of_spells h (hnames name hname)
    simp only [List.forall_mem_cons] at hnot
    simp [isSpecial, hplus, hnot]
  rw [real?]
  simp only [String.toList_ofList, hplus, hspecial, Real.parse?_of_writes h.writes, nearestBits]
  cases n.nearest <;> simp

/-- A number is neither empty nor null nor a truth value. -/
lemma typed_of_spells (h : Spells n word) :
    String.ofList word ≠ "" ∧ isNull (String.ofList word) = false ∧
      bool? (String.ofList word) = none := by
  refine typed_of_not_mem fun hword => ?_
  have hfirst : ∀ name ∈ typedWords,
      (name.toList.dropWhile (· = '-')).head?.any Char.isDigit = false := by decide
  exact ne_of_spells h (hfirst _ hword) rfl

/-- A word is read from a spelling as it is from the numeral. -/
lemma word?_of_spells (h : Spells n word) :
    word? (String.ofList word) = (Json.Source.number n).word? := by
  rw [word?, String.toList_ofList, unsigned?_of_spells maxWord h]
  cases hsign : n.negative <;> cases hinteger : n.isInteger <;>
    simp [Json.Source.word?, hsign, hinteger]

/-- An integer that both formats keep in a word is the same integer. -/
lemma int?_of_ofNumeral? (h : Spells n word) {i : ℤ} (hi : Number.ofNumeral? n = some (.int i)) :
    int? (String.ofList word) = some (some i) := by
  rw [Number.ofNumeral?] at hi
  rw [int?, String.toList_ofList, unsigned?_of_spells maxWord h, negative?_of_spells signedBound h]
  simp only [Bool.and_eq_true, Bool.not_eq_true', decide_eq_true_eq] at hi
  split_ifs at hi with hnatural hnegative
  · obtain ⟨⟨hinteger, hsign⟩, hle⟩ := hnatural
    obtain rfl := Number.int.inj (Option.some.inj hi)
    rw [if_pos ⟨hsign, hinteger, hle⟩]
  · obtain ⟨⟨⟨hinteger, hsign⟩, -⟩, hle⟩ := hnegative
    obtain rfl := Number.int.inj (Option.some.inj hi)
    rw [if_neg (by simp [hsign]), if_pos ⟨hsign, hinteger, hle⟩]
  · obtain ⟨d, -, hd⟩ := Option.map_eq_some_iff.1 hi
    cases hd

/-- Apart from a negative zero, no other numeral is an integer of at most 64 bits in YAML. -/
lemma int?_of_ne_int (h : Spells n word)
    (hsigned : n.isInteger = true → n.negative = true → natOfDigits n.whole ≠ 0)
    (hi : ∀ i, Number.ofNumeral? n ≠ some (.int i)) :
    Number.ofNumeral? n = n.gathered.map .float ∧
      ∀ i, int? (String.ofList word) ≠ some (some i) := by
  rw [Number.ofNumeral?] at hi ⊢
  simp only [Bool.and_eq_true, Bool.not_eq_true', decide_eq_true_eq] at hi ⊢
  split_ifs at hi ⊢ with hnatural hnegative
  · exact absurd rfl (hi _)
  · exact absurd rfl (hi _)
  · refine ⟨rfl, fun i => ?_⟩
    have hunsigned : ¬(n.negative = false ∧ n.isInteger = true ∧ natOfDigits n.whole ≤ maxWord) :=
      fun hword => hnatural ⟨⟨hword.2.1, hword.1⟩, hword.2.2⟩
    have hnegative' :
        ¬(n.negative = true ∧ n.isInteger = true ∧ natOfDigits n.whole ≤ signedBound) :=
      fun hword => hnegative
        ⟨⟨⟨hword.2.1, hword.1⟩, Nat.pos_of_ne_zero (hsigned hword.2.1 hword.1)⟩, hword.2.2⟩
    rw [int?, String.toList_ofList, unsigned?_of_spells maxWord h,
      negative?_of_spells signedBound h, if_neg hunsigned, if_neg hnegative']
    simp only
    split_ifs <;> simp

end Yaml.Scalar

/-! ## Both readers -/

/-- Both readers have the same number for a numeral: it is no negative zero without a point and an
exponent, and where JSON scales the digits that it has gathered, it gets the nearest double. -/
structure Numeral.ReadsAlike (n : Numeral) : Prop where
  signed : n.isInteger = true → n.negative = true → natOfDigits n.whole ≠ 0
  rounded : Number.ofNumeral? n = n.gathered.map .float → n.gathered = n.nearest

open Numeral in
instance (n : Numeral) : Decidable n.ReadsAlike :=
  decidable_of_iff ((n.isInteger = true → n.negative = true → natOfDigits n.whole ≠ 0) ∧
    (Number.ofNumeral? n = n.gathered.map .float → n.gathered = n.nearest))
    ⟨fun h => ⟨h.1, h.2⟩, fun h => ⟨h.signed, h.rounded⟩⟩

open Numeral in
/-- Where a numeral reads alike, its spelling stands for the same number as the numeral. -/
lemma Yaml.Scalar.ofPlain?_of_spells {n : Numeral} {word : List Char} {number : Number}
    {value : Json} (h : Spells n word) (halike : n.ReadsAlike)
    (hnumber : Number.ofNumeral? n = some number)
    (hvalue : ofPlain? (String.ofList word) = some value) : value = .num number := by
  obtain ⟨hempty, hnull, hbool⟩ := typed_of_spells h
  have hzero : hasLeadingZero word = false := by
    cases h with
    | positive _ h => exact (looks_of_spells h).2.2.2.1
    | negative _ h => exact (looks_of_spells h).2.2.2.2
  rw [ofPlain?, if_neg (by simp [hempty, hnull]), hbool] at hvalue
  by_cases hint : ∃ i, Number.ofNumeral? n = some (.int i)
  · obtain ⟨i, hi⟩ := hint
    rw [int?_of_ofNumeral? h hi] at hvalue
    rw [← Option.some.inj hvalue, Option.some.inj (hnumber.symm.trans hi)]
  · have hi := not_exists.1 hint
    obtain ⟨hgathered, hword⟩ := int?_of_ne_int h halike.signed hi
    rw [hgathered, halike.rounded hgathered] at hnumber
    obtain ⟨d, hd, rfl⟩ := Option.map_eq_some_iff.1 hnumber
    cases hguess : int? (String.ofList word) with
    | none => simpa [hguess, hzero, real?_of_spells h, hd] using hvalue.symm
    | some guess =>
      cases guess with
      | none => simp [hguess] at hvalue
      | some i => exact absurd hguess (hword i)

end SiblingQuery
