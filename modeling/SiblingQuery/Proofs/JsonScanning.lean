import Mathlib.Data.Int.Notation
import Mathlib.Data.List.TakeDrop
import SiblingQuery.Json.Printer
import SiblingQuery.Json.Source

/-!
# Scanning JSON text

How the pieces of a JSON text are cut into tokens.

* *Strings.*  `Quoted.ofText` is how a text stands between quotes, and `Quoted.read` gets exactly
  that from what `Quoted.write` wrote.
* *Numbers.*  The numeral of an integer denotes the integer, if it has at most 64 bits.  A run of
  digits is read as it is, provided that no digit follows.
* *Tokens.*  Every token takes at least one character, so `Token.scan` has equations without fuel:
  `scan_space` and `scan_next`.
-/

namespace SiblingQuery

/-! ## Strings -/

namespace Quoted

/-- How a character stands between quotes: a control character without a short escape is a code. -/
def Unit.ofChar (c : Char) : Unit :=
  if c < ' ' ∧ c ∉ ['\x08', '\x0c', '\n', '\r', '\t'] then .code c.toNat else .char c

/-- How a text stands between quotes. -/
def ofText (text : String) : Quoted := text.toList.map Unit.ofChar

lemma hexValue?_hexDigit : ∀ n < 16, hexValue? (hexDigit n) = some n := by decide

lemma toNat_lt_of_lt_space {c : Char} (h : c < ' ') : c.toNat < 32 := h

lemma hexNumber?_low {n : ℕ} (h : n < 32) :
    hexNumber? ['0', '0', hexDigit (n / 16), hexDigit (n % 16)] = some n := by
  have hzero : hexValue? '0' = some 0 := by decide
  have hhigh := hexValue?_hexDigit (n / 16) (by omega)
  have hlow := hexValue?_hexDigit (n % 16) (by omega)
  simp only [hexNumber?, List.foldlM_cons, List.foldlM_nil, hzero, hhigh, hlow, Option.map_some,
    Option.bind_eq_bind, Option.bind_some, Option.pure_def, Option.some.injEq]
  omega

/-- A character that needs no escape is read as itself. -/
lemma read_plain {c : Char} (hquote : c ≠ '"') (hslash : c ≠ '\\') (hspace : ¬ c < ' ')
    (rest : List Char) :
    read (c :: rest) = (read rest).map fun p => (.char c :: p.1, p.2) := by
  rw [read.eq_def]
  split
  case h_1 heq => simp at heq
  case h_2 heq => exact absurd (List.cons.inj heq).1 hquote
  case h_3 heq => exact absurd (List.cons.inj heq).1 hslash
  case h_4 heq => exact absurd (List.cons.inj heq).1 hslash
  case h_5 heq =>
    obtain ⟨rfl, rfl⟩ := List.cons.inj heq
    rw [if_neg (not_or.2 ⟨hslash, hspace⟩)]
    cases read rest <;> rfl

/-- A one-letter escape is read as the character that it stands for. -/
lemma read_escaped {e c : Char} (he : e ≠ 'u') (h : escaped? e = some c) (rest : List Char) :
    read ('\\' :: e :: rest) = (read rest).map fun p => (.char c :: p.1, p.2) := by
  cases hread : read rest <;> simp [read, he, h, hread]

/-- Reading undoes the writing of one character. -/
lemma read_writeChar (c : Char) (rest : List Char) :
    read (writeChar c ++ rest) = (read rest).map fun p => (Unit.ofChar c :: p.1, p.2) := by
  unfold writeChar
  split_ifs with h₁ h₂ h₃ h₄ h₅ h₆ h₇ h₈
  case pos => subst h₁; exact read_escaped (by decide) rfl rest
  case pos => subst h₂; exact read_escaped (by decide) rfl rest
  case pos => subst h₃; exact read_escaped (by decide) rfl rest
  case pos => subst h₄; exact read_escaped (by decide) rfl rest
  case pos => subst h₅; exact read_escaped (by decide) rfl rest
  case pos => subst h₆; exact read_escaped (by decide) rfl rest
  case pos => subst h₇; exact read_escaped (by decide) rfl rest
  case pos =>
    have hcode : Unit.ofChar c = .code c.toNat := by simp [Unit.ofChar, h₃, h₄, h₅, h₆, h₇, h₈]
    have hnumber := hexNumber?_low (toNat_lt_of_lt_space h₈)
    cases h : read rest <;> simp [read, hnumber, hcode, h]
  case neg =>
    have hchar : Unit.ofChar c = .char c := by simp [Unit.ofChar, h₈]
    rw [hchar]
    exact read_plain h₁ h₂ h₈ rest

lemma read_flatMap_writeChar (text rest : List Char) :
    read (text.flatMap writeChar ++ '"' :: rest) = some (text.map Unit.ofChar, rest) := by
  induction text with
  | nil => simp [read]
  | cons c text ih => simp [List.flatMap_cons, List.append_assoc, read_writeChar, ih]

/-- Joining gives the character back that stood between quotes. -/
lemma join?_ofChar_cons (c : Char) (units : Quoted) :
    join? (Unit.ofChar c :: units) = (join? units).map (c :: ·) := by
  unfold Unit.ofChar
  split_ifs with h
  · have hlow := toNat_lt_of_lt_space h.1
    have hcode : ¬ isLowSurrogate c.toNat = true ∧ ¬ isHighSurrogate c.toNat = true := by
      simp only [isLowSurrogate, isHighSurrogate, Bool.and_eq_true, decide_eq_true_eq]
      omega
    have hback : Char.ofNat c.toNat = c := Char.ofNat_toNat c
    rw [join?.eq_def]
    simp [hcode.1, hcode.2, hback]
  · simp [join?]

/-- A text keeps what it says between quotes. -/
@[simp]
lemma text?_ofText (text : String) : (ofText text).text? = some text := by
  have hjoin (chars : List Char) : join? (chars.map Unit.ofChar) = some chars := by
    induction chars with
    | nil => rfl
    | cons c chars ih => simp [join?_ofChar_cons, ih]
  simp [text?, ofText, hjoin]

lemma newline_not_mem_write (text : String) : '\n' ∉ write text := by
  have hhex : ∀ n < 16, hexDigit n ≠ '\n' := by decide
  have hchar (c : Char) : '\n' ∉ writeChar c := by
    unfold writeChar
    split_ifs with h₁ h₂ h₃ h₄ h₅ h₆ h₇ h₈ <;> simp
    · have hlow := toNat_lt_of_lt_space h₈
      exact ⟨(hhex _ (by omega)).symm, (hhex _ (by omega)).symm⟩
    · exact Ne.symm h₅
  simp [write, hchar]

end Quoted

/-! ## Numbers -/

/-- An integer of at most 64 bits, signed or unsigned. -/
def Number.IsWhole : Number → Prop
  | .int n => -(signedBound : ℤ) ≤ n ∧ n ≤ maxWord
  | .float _ => False

instance Number.decidableIsWhole : (n : Number) → Decidable n.IsWhole
  | .int n => inferInstanceAs (Decidable (-(signedBound : ℤ) ≤ n ∧ n ≤ maxWord))
  | .float _ => inferInstanceAs (Decidable False)

/-- The numeral of an integer. -/
def Numeral.ofInt (n : ℤ) : Numeral := ⟨decide (n < 0), Nat.toDigits 10 n.natAbs, none, none⟩

/-- The numeral of an integer denotes the integer. -/
lemma Number.ofNumeral?_ofInt {n : ℤ} (h : (Number.int n).IsWhole) :
    Number.ofNumeral? (Numeral.ofInt n) = some (.int n) := by
  have hdigits : Numeral.natOfDigits (Nat.toDigits 10 n.natAbs) = n.natAbs :=
    Nat.ofDigitChars_ten_toDigits
  obtain ⟨hlow, hhigh⟩ := h
  by_cases hn : n < 0
  · have hpos : 0 < n.natAbs := by omega
    have hle : n.natAbs ≤ signedBound := by omega
    have hneg : -(n.natAbs : ℤ) = n := by omega
    have hsigned : ofNumeral? (Numeral.ofInt n) = some (.int (-(n.natAbs : ℤ))) := by
      simp [ofNumeral?, Numeral.ofInt, Numeral.isInteger, hdigits, hn, hpos, hle]
    rw [hsigned, hneg]
  · have hle : n.natAbs ≤ maxWord := by omega
    have habs : (n.natAbs : ℤ) = n := by omega
    have hunsigned : ofNumeral? (Numeral.ofInt n) = some (.int n.natAbs) := by
      simp [ofNumeral?, Numeral.ofInt, Numeral.isInteger, hdigits, hn, hle]
    rw [hunsigned, habs]

namespace Json

namespace Token

/-- What cannot prolong a number. -/
def Ends (rest : List Char) : Prop :=
  ∀ c ∈ rest.head?, c.isDigit = false ∧ c ≠ '.' ∧ c ≠ 'e' ∧ c ≠ 'E'

lemma ends_nil : Ends [] := by simp [Ends]

lemma ends_cons {c : Char} (h : c.isDigit = false ∧ c ≠ '.' ∧ c ≠ 'e' ∧ c ≠ 'E')
    (rest : List Char) : Ends (c :: rest) := by
  simpa [Ends] using h

lemma digits?_append {digits rest : List Char} (hne : digits ≠ [])
    (hdigits : ∀ c ∈ digits, c.isDigit = true) (hrest : ∀ c ∈ rest.head?, c.isDigit = false) :
    digits? (digits ++ rest) = some (digits, rest) := by
  have hstop : rest.span Char.isDigit = ([], rest) := by
    cases rest with
    | nil => rfl
    | cons c rest =>
      have hc := hrest c rfl
      simp [List.span_eq_takeWhile_dropWhile, hc]
  have hspan : (digits ++ rest).span Char.isDigit = (digits, rest) := by
    rw [List.span_eq_takeWhile_dropWhile] at hstop ⊢
    simp only [Prod.mk.injEq] at hstop
    rw [List.takeWhile_append_of_pos hdigits, List.dropWhile_append_of_pos hdigits, hstop.1,
      hstop.2, List.append_nil]
  unfold digits?
  rw [hspan]
  cases digits with
  | nil => exact absurd rfl hne
  | cons c digits => rfl

/-- The decimal digits of a number begin with zero for zero only. -/
lemma head?_toDigits {n : ℕ} (h : 0 < n) : (Nat.toDigits 10 n).head? ≠ some '0' := by
  induction n using Nat.strongRecOn with
  | ind n ih =>
    by_cases hn : n < 10
    · rw [Nat.toDigits_of_lt_base hn]
      have : ∀ m < 10, 0 < m → [m.digitChar].head? ≠ some '0' := by decide
      exact this n hn h
    · rw [Nat.toDigits_of_base_le (by decide) (by omega), List.head?_append,
        Option.or_of_isSome (by simp [List.isSome_head?, Nat.toDigits_ne_nil])]
      exact ih (n / 10) (by omega) (by omega)

lemma exists_toDigits_eq_cons (n : ℕ) :
    ∃ c digits, Nat.toDigits 10 n = c :: digits ∧ c.isDigit = true := by
  obtain ⟨c, digits, hdigits⟩ := List.exists_cons_of_ne_nil
    (Nat.toDigits_ne_nil : Nat.toDigits 10 n ≠ [])
  have hc : c ∈ Nat.toDigits 10 n := hdigits ▸ List.mem_cons_self
  exact ⟨c, digits, hdigits, Nat.isDigit_of_mem_toDigits (by decide) (by decide) hc⟩

/-- The text of an integer begins with a minus sign or a digit. -/
lemma intText_eq_cons (n : ℤ) : ∃ c text, intText n = c :: text ∧ (c = '-' ∨ c.isDigit = true) := by
  unfold intText
  split
  · exact ⟨_, _, rfl, .inl rfl⟩
  · obtain ⟨c, digits, hdigits, hc⟩ := exists_toDigits_eq_cons n.natAbs
    exact ⟨c, digits, hdigits, .inr hc⟩

/-- Where a number begins, nothing but a number is read. -/
lemma next?_of_number {c : Char} (hc : c = '-' ∨ c.isDigit = true) (text : List Char) :
    next? (c :: text) = (numeral? (c :: text)).map fun p => (.number p.1, p.2) := by
  unfold next?
  split
  case h_11 => rfl
  all_goals
    rename_i heq
    obtain ⟨rfl, -⟩ := List.cons.inj heq
    exact absurd hc (by decide)

/-! ## Tokens

`Token.scan` has fuel for as many steps as there are characters, and every token takes at least one,
so the fuel never runs out and drops out of the equations. -/

lemma eq_append_of_digits? {text digits rest : List Char} (h : digits? text = some (digits, rest)) :
    text = digits ++ rest ∧ digits ≠ [] := by
  unfold digits? at h
  rw [List.span_eq_takeWhile_dropWhile] at h
  split at h
  · simp at h
  · rename_i hne
    simp only [Option.some.injEq, Prod.mk.injEq] at h
    obtain ⟨rfl, rfl⟩ := h
    exact ⟨List.takeWhile_append_dropWhile.symm, fun hnil => hne _ (by rw [hnil])⟩

lemma length_of_digits? {text digits rest : List Char} (h : digits? text = some (digits, rest)) :
    rest.length < text.length := by
  obtain ⟨rfl, hne⟩ := eq_append_of_digits? h
  have := List.length_pos_iff.2 hne
  simp only [List.length_append]
  omega

lemma length_of_whole? {text whole rest : List Char} (h : whole? text = some (whole, rest)) :
    rest.length < text.length := by
  unfold whole? at h
  split at h
  · obtain ⟨-, rfl⟩ := by simpa using h
    simp
  · exact length_of_digits? h

lemma length_of_fraction? {text rest : List Char} {fraction : Option (List Char)}
    (h : fraction? text = some (fraction, rest)) : rest.length ≤ text.length := by
  unfold fraction? at h
  split at h
  · obtain ⟨⟨run, after⟩, hrun, hout⟩ := Option.map_eq_some_iff.1 h
    obtain ⟨-, rfl⟩ := Prod.mk.inj hout
    have := length_of_digits? hrun
    simp only [List.length_cons]
    omega
  · obtain ⟨-, rfl⟩ := by simpa using h
    exact Nat.le_refl _

lemma length_of_exponent? {text rest : List Char} {exponent : Option (Bool × List Char)}
    (h : exponent? text = some (exponent, rest)) : rest.length ≤ text.length := by
  unfold exponent? at h
  split at h
  · split_ifs at h
    · split at h <;>
      · obtain ⟨⟨run, after⟩, hrun, hout⟩ := Option.map_eq_some_iff.1 h
        obtain ⟨-, rfl⟩ := Prod.mk.inj hout
        have := length_of_digits? hrun
        simp only [List.length_cons]
        omega
    · obtain ⟨-, rfl⟩ := by simpa using h
      exact Nat.le_refl _
  · obtain ⟨-, rfl⟩ := by simpa using h
    exact Nat.le_refl _

lemma length_of_unsigned? {negative : Bool} {text rest : List Char} {numeral : Numeral}
    (h : unsigned? negative text = some (numeral, rest)) : rest.length < text.length := by
  simp only [unsigned?, Option.bind_eq_bind, Option.bind_eq_some_iff, Prod.exists,
    Option.pure_def, Option.some.injEq, Prod.mk.injEq] at h
  obtain ⟨whole, r₁, h₁, fraction, r₂, h₂, exponent, r₃, h₃, -, rfl⟩ := h
  have := length_of_whole? h₁
  have := length_of_fraction? h₂
  have := length_of_exponent? h₃
  omega

lemma length_of_numeral? {text rest : List Char} {numeral : Numeral}
    (h : numeral? text = some (numeral, rest)) : rest.length < text.length := by
  unfold numeral? at h
  split at h
  · have := length_of_unsigned? h
    simp only [List.length_cons]
    omega
  · exact length_of_unsigned? h

/-- A unit takes at least one character, and so does the closing quote. -/
lemma length_of_quoted {text rest : List Char} {units : Quoted}
    (h : Quoted.read text = some (units, rest)) : units.length + rest.length < text.length := by
  fun_induction Quoted.read text generalizing units rest with
  | case1 => simp at h
  | case2 after =>
    obtain ⟨rfl, rfl⟩ := by simpa using h
    simp
  | case3 a b c d after n units' after' hread _ ih =>
    obtain ⟨rfl, rfl⟩ := by simpa using h
    have := ih hread
    simp only [List.length_cons]
    omega
  | case4 => simp at h
  | case5 e after _ c units' after' hread _ ih =>
    obtain ⟨rfl, rfl⟩ := by simpa using h
    have := ih hread
    simp only [List.length_cons]
    omega
  | case6 => simp at h
  | case7 => simp at h
  | case8 c after _ _ _ _ units' after' hread ih =>
    obtain ⟨rfl, rfl⟩ := by simpa using h
    have := ih hread
    simp only [List.length_cons]
    omega
  | case9 => simp at h

/-- The one way a mark or a name is written; `none` of a number and of a string. -/
def spelling? : Token → Option (List Char)
  | .openBrace => some ['{']
  | .closeBrace => some ['}']
  | .openBracket => some ['[']
  | .closeBracket => some [']']
  | .comma => some [',']
  | .colon => some [':']
  | .null => some "null".toList
  | .bool b => some (if b then "true" else "false").toList
  | .number _ | .string _ => none

lemma ne_nil_of_spelling? {token : Token} {word : List Char} (h : token.spelling? = some word) :
    word ≠ [] := by
  rintro rfl
  cases token with
  | bool b => cases b <;> cases h
  | _ => cases h

/-- The token at the front of a text is a mark or a name, a string, or a number. -/
lemma next?_cases {text rest : List Char} {token : Token}
    (h : next? text = some (token, rest)) :
    (∃ word, token.spelling? = some word ∧ text = word ++ rest) ∨
      (∃ quoted after, token = .string quoted ∧ text = '"' :: after ∧
        Quoted.read after = some (quoted, rest)) ∨
      ∃ numeral, token = .number numeral ∧ numeral? text = some (numeral, rest) := by
  unfold next? at h
  split at h
  case h_10 =>
    obtain ⟨⟨quoted, after⟩, hread, hout⟩ := Option.map_eq_some_iff.1 h
    obtain ⟨rfl, rfl⟩ := Prod.mk.inj hout
    exact .inr (.inl ⟨quoted, _, rfl, rfl, hread⟩)
  case h_11 =>
    obtain ⟨⟨numeral, after⟩, hread, hout⟩ := Option.map_eq_some_iff.1 h
    obtain ⟨rfl, rfl⟩ := Prod.mk.inj hout
    exact .inr (.inr ⟨numeral, rfl, hread⟩)
  all_goals
    obtain ⟨rfl, rfl⟩ := Prod.mk.inj (Option.some.inj h)
    exact .inl ⟨_, rfl, rfl⟩

/-- A token takes at least one character. -/
lemma length_of_next? {text rest : List Char} {token : Token}
    (h : next? text = some (token, rest)) : rest.length < text.length := by
  obtain ⟨word, hword, rfl⟩ | ⟨quoted, after, -, rfl, hread⟩ | ⟨numeral, -, hread⟩ := next?_cases h
  · have := List.length_pos_iff.2 (ne_nil_of_spelling? hword)
    simp only [List.length_append]
    omega
  · have := length_of_quoted hread
    simp only [List.length_cons]
    omega
  · exact length_of_numeral? hread

/-- Fuel for every character is enough. -/
lemma scanFrom_eq_scan {fuel : ℕ} {text : List Char} (h : text.length ≤ fuel) :
    scanFrom fuel text = scan text := by
  unfold scan
  induction fuel using Nat.strongRecOn generalizing text with
  | ind fuel ih =>
    cases text with
    | nil => simp [scanFrom]
    | cons c rest =>
      obtain ⟨fuel, rfl⟩ := Nat.exists_eq_add_of_le' (Nat.one_le_of_lt h)
      simp only [List.length_cons] at h
      simp only [List.length_cons, scanFrom]
      split_ifs
      · exact ih fuel (by omega) (by omega)
      · cases hnext : next? (c :: rest) with
        | none => rfl
        | some pair =>
          obtain ⟨token, after⟩ := pair
          have hlt := length_of_next? hnext
          simp only [List.length_cons] at hlt
          simp only
          rw [ih fuel (by omega) (by omega)]
          by_cases hr : rest.length < fuel + 1
          · rw [ih rest.length hr (by omega)]
          · omega

@[simp]
lemma scan_nil : scan [] = some [] := rfl

lemma scan_space {c : Char} (h : isSpace c = true) (rest : List Char) :
    scan (c :: rest) = scan rest := by
  simp [scan, scanFrom, h]

lemma scan_next {text rest : List Char} {token : Token} (h : next? text = some (token, rest))
    (hspace : ∀ c ∈ text.head?, isSpace c = false) :
    scan text = (scan rest).map (token :: ·) := by
  cases text with
  | nil => simp [next?, numeral?, unsigned?, whole?, digits?] at h
  | cons c text =>
    have hlt := length_of_next? h
    simp only [List.length_cons] at hlt
    have hc : isSpace c = false := hspace c (by simp)
    have hrest : scanFrom text.length rest = scan rest := scanFrom_eq_scan (by omega)
    rw [← hrest]
    simp [scan, scanFrom, hc, h]

end Token

end Json

end SiblingQuery
