import Mathlib.Data.List.Basic
import SiblingQuery.Proofs.JsonScanning

/-!
# Printed numbers

`Numeral.Spells` says how a numeral is written in JSON, and the scanner takes a spelling off the
front of a text, if what follows cannot prolong a number (`Json.Token.numeral?_of_spells`).  What is
printed for a number always is a spelling (`Number.spells_write`): an integer is printed in its
digits, and a double as the decimal that the search for the shortest one has found, which is zero
for zero only (`Double.exponent_of_shortest_eq_zero`).

So a printed number is scanned as one number, and the question is only whether that is the number
that was printed (`Number.ReadsBack`).  It is for every integer of at most 64 bits.  For a double it
depends on the reader of JSON, which gathers the digits in a word and scales the word, and need not
come back to the double.
-/

namespace SiblingQuery

namespace Numeral

/-! ## Spellings -/

/-- How a sign is written.  A plus sign may be left out. -/
inductive SpellsSign : Bool → List Char → Prop
  | minus : SpellsSign true ['-']
  | plus : SpellsSign false ['+']
  | none : SpellsSign false []

/-- How an exponent is written. -/
inductive SpellsExponent : Option (Bool × List Char) → List Char → Prop
  | none : SpellsExponent none []
  | some {mark : Char} {negative : Bool} {sign run : List Char} (hmark : mark = 'e' ∨ mark = 'E')
      (hsign : SpellsSign negative sign) (hne : run ≠ []) (hrun : ∀ c ∈ run, c.isDigit = true) :
      SpellsExponent (some (negative, run)) (mark :: (sign ++ run))

/-- The digits before the point: a zero alone, or digits of which the first is no zero. -/
structure IsWhole (whole : List Char) : Prop where
  ne_nil : whole ≠ []
  isDigit : ∀ c ∈ whole, c.isDigit = true
  zero : whole.head? = some '0' → whole = ['0']

/-- How the digits after the point are written. -/
inductive SpellsFraction : Option (List Char) → List Char → Prop
  | none : SpellsFraction none []
  | some {run : List Char} (hne : run ≠ []) (hrun : ∀ c ∈ run, c.isDigit = true) :
      SpellsFraction (some run) ('.' :: run)

/-- How a numeral is written without its sign. -/
inductive SpellsUnsigned (n : Numeral) : List Char → Prop
  | mk {point power : List Char} (hwhole : IsWhole n.whole)
      (hpoint : SpellsFraction n.fraction point) (hpower : SpellsExponent n.exponent power) :
      SpellsUnsigned n (n.whole ++ (point ++ power))

/-- How a numeral is written. -/
inductive Spells (n : Numeral) : List Char → Prop
  | positive {body : List Char} (hsign : n.negative = false) (h : SpellsUnsigned n body) :
      Spells n body
  | negative {body : List Char} (hsign : n.negative = true) (h : SpellsUnsigned n body) :
      Spells n ('-' :: body)

variable {n : Numeral} {word body : List Char}

/-- A character of numbers. -/
def isNumberChar (c : Char) : Bool := c.isDigit || ['-', '+', '.', 'e', 'E'].contains c

lemma isNumberChar_of_isDigit {run : List Char} (h : ∀ c ∈ run, c.isDigit = true) :
    ∀ c ∈ run, isNumberChar c = true := by
  intro c hc
  rw [isNumberChar, h c hc, Bool.true_or]

lemma SpellsUnsigned.isNumberChar (h : SpellsUnsigned n body) :
    ∀ c ∈ body, isNumberChar c = true := by
  obtain ⟨sign, whole, fraction, exponent⟩ := n
  obtain ⟨hwhole, hpoint, hpower⟩ := h
  simp only [List.forall_mem_append]
  refine ⟨isNumberChar_of_isDigit hwhole.isDigit, ?_, ?_⟩
  · cases hpoint with
    | none => nofun
    | some _ hrun => exact List.forall_mem_cons.2 ⟨by decide, isNumberChar_of_isDigit hrun⟩
  · cases hpower with
    | none => nofun
    | some hmark hsign _ hrun =>
      refine List.forall_mem_cons.2
        ⟨?_, List.forall_mem_append.2 ⟨?_, isNumberChar_of_isDigit hrun⟩⟩
      · rcases hmark with rfl | rfl <;> decide
      · cases hsign <;> exact List.all_eq_true.1 rfl

lemma Spells.isNumberChar (h : Spells n word) : ∀ c ∈ word, isNumberChar c = true := by
  cases h with
  | positive _ h => exact h.isNumberChar
  | negative _ h => exact List.forall_mem_cons.2 ⟨by decide, h.isNumberChar⟩

/-- Before its sign a number begins with a digit. -/
lemma SpellsUnsigned.exists_digit (h : SpellsUnsigned n body) :
    ∃ c rest, body = c :: rest ∧ c.isDigit = true := by
  obtain ⟨hwhole, -, -⟩ := h
  obtain ⟨c, rest, hcons⟩ := List.exists_cons_of_ne_nil hwhole.ne_nil
  exact ⟨c, _, by rw [hcons]; rfl, hwhole.isDigit c (hcons ▸ List.mem_cons_self)⟩

/-- A number begins with a minus sign or a digit. -/
lemma Spells.exists_first (h : Spells n word) :
    ∃ c rest, word = c :: rest ∧ (c = '-' ∨ c.isDigit = true) := by
  cases h with
  | positive _ h =>
    obtain ⟨c, rest, hbody, hc⟩ := h.exists_digit
    exact ⟨c, rest, hbody, .inr hc⟩
  | negative _ h => exact ⟨_, _, rfl, .inl rfl⟩

lemma isWhole_toDigits (n : ℕ) : IsWhole (Nat.toDigits 10 n) := by
  refine ⟨Nat.toDigits_ne_nil, fun c hc => ?_, fun hzero => ?_⟩
  · exact Nat.isDigit_of_mem_toDigits (by decide) (by decide) hc
  · rcases Nat.eq_zero_or_pos n with rfl | hn
    · exact Nat.toDigits_zero 10
    · exact absurd hzero (Json.Token.head?_toDigits hn)

end Numeral

/-! ## Spellings read -/

namespace Json.Token

open Numeral

variable {n : Numeral} {word body rest : List Char}

lemma whole?_append {whole : List Char} (h : IsWhole whole)
    (hrest : ∀ c ∈ rest.head?, c.isDigit = false) : whole? (whole ++ rest) = some (whole, rest) := by
  by_cases hzero : whole.head? = some '0'
  · rw [h.zero hzero]
    rfl
  · rw [← digits?_append h.ne_nil h.isDigit hrest]
    obtain ⟨c, digits, rfl⟩ := List.exists_cons_of_ne_nil h.ne_nil
    have hc : c ≠ '0' := by simpa using hzero
    unfold whole?
    split
    · next heq => exact absurd (List.cons.inj heq).1 hc
    · rfl

lemma fraction?_append {fraction : Option (List Char)} {point : List Char}
    (h : SpellsFraction fraction point)
    (hrest : ∀ c ∈ rest.head?, c.isDigit = false ∧ c ≠ '.') :
    fraction? (point ++ rest) = some (fraction, rest) := by
  cases h with
  | none =>
    unfold fraction?
    split
    · next heq => exact absurd rfl (hrest '.' (by rw [← List.nil_append rest, heq]; rfl)).2
    · rfl
  | some hne hrun =>
    rw [List.cons_append, fraction?, digits?_append hne hrun fun c hc => (hrest c hc).1,
      Option.map_some]

lemma exponent?_append {exponent : Option (Bool × List Char)} {power : List Char}
    (h : SpellsExponent exponent power) (hrest : Ends rest) :
    exponent? (power ++ rest) = some (exponent, rest) := by
  cases h with
  | none =>
    cases rest with
    | nil => rfl
    | cons c rest =>
      obtain ⟨-, -, he, hE⟩ := hrest c rfl
      simp [exponent?, he, hE]
  | @some mark negative sign run hmark hsign hne hrun =>
    have hdigits : digits? (run ++ rest) = some (run, rest) :=
      digits?_append hne hrun fun c hc => (hrest c hc).1
    rw [List.cons_append, List.append_assoc]
    unfold exponent?
    simp only [if_pos hmark]
    cases hsign with
    | minus => simp [hdigits]
    | plus => simp [hdigits]
    | none =>
      -- the first digit is no sign
      obtain ⟨c, digits, rfl⟩ := List.exists_cons_of_ne_nil hne
      have hc := hrun c List.mem_cons_self
      rw [List.nil_append]
      split
      · next heq => exact absurd ((List.cons.inj heq).1 ▸ hc) (by decide)
      · next heq => exact absurd ((List.cons.inj heq).1 ▸ hc) (by decide)
      · rw [hdigits, Option.map_some]

lemma unsigned?_of_spells (h : SpellsUnsigned n body) (hrest : Ends rest) :
    unsigned? n.negative (body ++ rest) = some (n, rest) := by
  obtain ⟨sign, whole, fraction, exponent⟩ := n
  obtain @⟨point, power, hwhole, hpoint, hpower⟩ := h
  have hafter : ∀ c ∈ (power ++ rest).head?, c.isDigit = false ∧ c ≠ '.' := by
    cases hpower with
    | none => exact fun c hc => ⟨(hrest c hc).1, (hrest c hc).2.1⟩
    | some hmark => rcases hmark with rfl | rfl <;> simp
  have hbehind : ∀ c ∈ (point ++ (power ++ rest)).head?, c.isDigit = false := by
    cases hpoint with
    | none => exact fun c hc => (hafter c hc).1
    | some => simp
  simp only at hwhole hpoint hpower ⊢
  simp [unsigned?, List.append_assoc, whole?_append hwhole hbehind, fraction?_append hpoint hafter,
    exponent?_append hpower hrest]

/-- A spelling is taken off the front of a text. -/
lemma numeral?_of_spells (h : Spells n word) (hrest : Ends rest) :
    numeral? (word ++ rest) = some (n, rest) := by
  cases h with
  | negative hsign h =>
    rw [List.cons_append, numeral?, ← hsign, unsigned?_of_spells h hrest]
  | positive hsign h =>
    have hread := unsigned?_of_spells h hrest
    rw [hsign] at hread
    obtain ⟨c, digits, rfl, hc⟩ := h.exists_digit
    unfold numeral?
    split
    · next heq => exact absurd ((List.cons.inj heq).1 ▸ hc) (by decide)
    · exact hread

/-- A spelling is one token. -/
lemma next?_of_spells (h : Spells n word) (hrest : Ends rest) :
    next? (word ++ rest) = some (.number n, rest) := by
  have hread := numeral?_of_spells h hrest
  obtain ⟨c, text, rfl, hc⟩ := h.exists_first
  rw [List.cons_append] at hread ⊢
  rw [next?_of_number hc, hread, Option.map_some]

end Json.Token

/-! ## The shortest decimal of a double -/

namespace Double

variable {d : Double} {place : ℤ}

/-- Zero is not among the decimals that read back as another number. -/
lemma readsBack_zero (h : d.mantissa ≠ 0) : d.readsBack place 0 = false := by
  have hlower : 0 < d.lowerQuarters := by
    unfold lowerQuarters
    split_ifs <;> omega
  have hunit : 0 < d.unitScale place :=
    Nat.mul_pos (Nat.pow_pos (by decide)) (Nat.pow_pos (by decide))
  have hpos : 0 < d.lowerQuarters * d.unitScale place := Nat.mul_pos hlower hunit
  simp only [readsBack, Nat.zero_mul]
  split_ifs <;> simp only [Bool.and_eq_false_iff, decide_eq_false_iff_not] <;> omega

/-- A hit on a grid reads back. -/
lemma readsBack_of_neighbour? {digits : ℕ} (h : d.neighbour? place = some digits) :
    d.readsBack place digits = true := by
  unfold neighbour? at h
  simp only at h
  split at h
  · next hbelow habove =>
    split_ifs at h <;> obtain rfl := Option.some.inj h
    · exact hbelow
    · exact habove
    · -- the even one of the two
      rcases Nat.mod_two_eq_zero_or_one (4 * d.mantissa * d.unitScale place / d.gridScale place)
        with heven | hodd
      · rwa [heven, Nat.add_zero]
      · rwa [hodd]
  · next hbelow _ =>
    obtain rfl := Option.some.inj h
    exact hbelow
  · next _ habove =>
    obtain rfl := Option.some.inj h
    exact habove
  · cases h

lemma readsBack_of_searchGrids {order : ℤ} {fuel count : ℕ} {decimal : Decimal}
    (h : d.searchGrids order fuel count = some decimal) :
    d.readsBack decimal.exponent decimal.digits = true := by
  induction fuel generalizing count with
  | zero => cases h
  | succ fuel ih =>
    rw [searchGrids] at h
    split at h
    · next hhit =>
      obtain rfl := Option.some.inj h
      exact readsBack_of_neighbour? hhit
    · exact ih h

end Double

/-- Trailing zeros are not all digits of a number but zero. -/
lemma Decimal.digits_trimZeros_ne_zero {decimal : Decimal} (h : decimal.digits ≠ 0) (fuel : ℕ) :
    (decimal.trimZeros fuel).digits ≠ 0 := by
  induction fuel generalizing decimal with
  | zero => exact h
  | succ fuel ih =>
    rw [trimZeros]
    split_ifs with hzero
    · exact ih (by simp only; omega)
    · exact h

/-- Of a double that is not zero, the shortest decimal has no digits only if none has been found. -/
lemma Double.exponent_of_shortest_eq_zero {d : Double} (h : d.mantissa ≠ 0)
    (hzero : d.shortest.digits = 0) : d.shortest.exponent = 0 := by
  unfold shortest at hzero ⊢
  split at hzero
  · next decimal hfound =>
    have hdigits : decimal.digits ≠ 0 := by
      intro hnone
      have hreads := readsBack_of_searchGrids hfound
      rw [hnone, readsBack_zero h] at hreads
      cases hreads
    exact absurd hzero (Decimal.digits_trimZeros_ne_zero hdigits 17)
  · rfl

/-! ## What is printed -/

namespace Numeral

variable {digits : List Char} {order : ℤ}

/-- Digits with the point after `order` of them. -/
def positional (negative : Bool) (digits : List Char) (order : ℤ) : Numeral :=
  if order ≤ 0 then ⟨negative, ['0'], some (List.replicate (-order).toNat '0' ++ digits), none⟩
  else if order.toNat < digits.length then
    ⟨negative, digits.take order.toNat, some (digits.drop order.toNat), none⟩
  else ⟨negative, digits ++ List.replicate (order.toNat - digits.length) '0', some ['0'], none⟩

/-- Digits with the point after the first of them, if there are more, and an exponent. -/
def scientific (negative : Bool) (digits : List Char) (order : ℤ) : Numeral :=
  ⟨negative, digits.take 1, if digits.length ≤ 1 then none else some (digits.drop 1),
    some (decide (order - 1 < 0), Nat.toDigits 10 (order - 1).natAbs)⟩

/-- The numeral that is printed for a double. -/
def ofDouble (d : Double) : Numeral :=
  if d.mantissa = 0 then ⟨d.negative, ['0'], some ['0'], none⟩
  else
    let digits := Nat.toDigits 10 d.shortest.digits
    let order := d.shortest.exponent + (digits.length : ℤ)
    if -4 ≤ order ∧ order ≤ 16 then positional d.negative digits order
    else scientific d.negative digits order

lemma isDigit_replicate (n : ℕ) : ∀ c ∈ List.replicate n '0', c.isDigit = true := by
  intro c hc
  rw [List.eq_of_mem_replicate hc]
  rfl

lemma isWhole_singleton {c : Char} (h : c.isDigit = true) : IsWhole [c] :=
  ⟨by simp, by simpa using h, by simp⟩

lemma spellsUnsigned_point (negative : Bool) {whole run : List Char} (hwhole : IsWhole whole)
    (hne : run ≠ []) (hrun : ∀ c ∈ run, c.isDigit = true) :
    SpellsUnsigned ⟨negative, whole, some run, none⟩ (whole ++ '.' :: run) := by
  have hspells := @SpellsUnsigned.mk ⟨negative, whole, some run, none⟩ _ _ hwhole
    (.some hne hrun) .none
  rwa [List.append_nil] at hspells

/-- Digits with a point inserted spell a numeral, unless they are a zero with more zeros behind. -/
lemma spellsUnsigned_positional (negative : Bool) (h : IsWhole digits)
    (hzero : digits.head? = some '0' → order ≤ 1) :
    SpellsUnsigned (positional negative digits order)
      (DoubleNotation.positional digits order) := by
  unfold positional DoubleNotation.positional
  simp only
  split_ifs with hlow hshort
  · refine spellsUnsigned_point negative (isWhole_toDigits 0) ?_ ?_
    · simp [h.ne_nil]
    · exact List.forall_mem_append.2 ⟨isDigit_replicate _, h.isDigit⟩
  · -- the point stands between two of the digits
    have hfirst : (digits.take order.toNat).head? = digits.head? := by
      rw [List.head?_take, if_neg (by omega)]
    refine spellsUnsigned_point negative ⟨?_, ?_, ?_⟩ ?_ ?_
    · simp only [ne_eq, List.take_eq_nil_iff, h.ne_nil, or_false]
      omega
    · exact fun c hc => h.isDigit c (List.mem_of_mem_take hc)
    · intro hhead
      rw [hfirst] at hhead
      rw [h.zero hhead] at hshort
      simp only [List.length_singleton] at hshort
      omega
    · simpa using hshort
    · exact fun c hc => h.isDigit c (List.mem_of_mem_drop hc)
  · refine spellsUnsigned_point negative ⟨?_, ?_, ?_⟩ (List.cons_ne_nil '0' [])
      (isDigit_replicate 1)
    · simp [h.ne_nil]
    · exact List.forall_mem_append.2 ⟨h.isDigit, isDigit_replicate _⟩
    · intro hhead
      rw [List.head?_append_of_ne_nil _ h.ne_nil] at hhead
      have hnone : order.toNat - digits.length = 0 := by
        have := hzero hhead
        rw [h.zero hhead, List.length_singleton]
        omega
      rw [hnone, h.zero hhead]
      rfl

lemma spellsUnsigned_scientific (negative : Bool) (hne : digits ≠ [])
    (hdigits : ∀ c ∈ digits, c.isDigit = true) :
    SpellsUnsigned (scientific negative digits order)
      (Json.doubleNotation.scientific digits order) := by
  have hpower : SpellsExponent (some (decide (order - 1 < 0), Nat.toDigits 10 (order - 1).natAbs))
      ('e' :: ((if order - 1 < 0 then ['-'] else ['+']) ++
        Nat.toDigits 10 (order - 1).natAbs)) := by
    refine .some (.inl rfl) ?_ Nat.toDigits_ne_nil (isWhole_toDigits _).isDigit
    split_ifs with hsmall
    · rw [decide_eq_true hsmall]
      exact .minus
    · rw [decide_eq_false hsmall]
      exact .plus
  rcases digits with _ | ⟨first, _ | ⟨second, others⟩⟩
  · exact absurd rfl hne
  · have hfirst : IsWhole [first] := isWhole_singleton (hdigits first List.mem_cons_self)
    exact @SpellsUnsigned.mk ⟨negative, [first], none, _⟩ _ _ hfirst .none hpower
  · have hfirst : IsWhole [first] := isWhole_singleton (hdigits first List.mem_cons_self)
    have hothers := (List.forall_mem_cons.1 hdigits).2
    have hspells := @SpellsUnsigned.mk ⟨negative, [first], some (second :: others), _⟩ _ _ hfirst
      (.some (List.cons_ne_nil _ _) hothers) hpower
    simpa [scientific, DoubleNotation.scientific, Json.doubleNotation] using hspells

/-- The text of a double spells its numeral. -/
lemma spells_ofDouble (d : Double) : Spells (ofDouble d) (Json.doubleNotation.write d) := by
  have hsigned {n : Numeral} {body : List Char} (hn : n.negative = d.negative)
      (h : SpellsUnsigned n body) : Spells n ((if d.negative then ['-'] else []) ++ body) := by
    rw [← hn]
    cases hsign : n.negative with
    | false => exact .positive hsign h
    | true => exact .negative hsign h
  have hdigits := isWhole_toDigits d.shortest.digits
  by_cases hzero : d.mantissa = 0
  · have hspells : SpellsUnsigned ⟨d.negative, ['0'], some ['0'], none⟩ ['0', '.', '0'] :=
      spellsUnsigned_point d.negative (isWhole_toDigits 0) (List.cons_ne_nil '0' [])
        (isDigit_replicate 1)
    simpa only [ofDouble, DoubleNotation.write, if_pos hzero] using hsigned rfl hspells
  · simp only [ofDouble, DoubleNotation.write, if_neg hzero]
    have hnegative : ∀ digits order, (positional d.negative digits order).negative = d.negative := by
      intro digits order
      unfold positional
      split_ifs <;> rfl
    by_cases hnear : -4 ≤ d.shortest.exponent + ((Nat.toDigits 10 d.shortest.digits).length : ℤ) ∧
        d.shortest.exponent + ((Nat.toDigits 10 d.shortest.digits).length : ℤ) ≤ 16
    · rw [if_pos hnear, if_pos hnear]
      refine hsigned (hnegative _ _) (spellsUnsigned_positional d.negative hdigits fun hhead => ?_)
      -- where no decimal has been found, there is no exponent
      have hnone : d.shortest.digits = 0 := by
        by_contra hsome
        exact Json.Token.head?_toDigits (Nat.pos_of_ne_zero hsome) hhead
      rw [hnone, Double.exponent_of_shortest_eq_zero hzero hnone]
      decide
    · rw [if_neg hnear, if_neg hnear]
      exact hsigned rfl (spellsUnsigned_scientific d.negative hdigits.ne_nil hdigits.isDigit)

lemma spells_ofInt (n : ℤ) : Spells (ofInt n) (intText n) := by
  have hspells := @SpellsUnsigned.mk (ofInt n) _ _ (isWhole_toDigits n.natAbs) .none .none
  rw [List.append_nil, List.append_nil] at hspells
  unfold intText
  split_ifs with hn
  · exact .negative (decide_eq_true hn) hspells
  · exact .positive (decide_eq_false hn) hspells

end Numeral

namespace Number

/-- The numeral that is printed for a number. -/
def numeral : Number → Numeral
  | .int n => .ofInt n
  | .float d => .ofDouble d

/-- The text of a number spells its numeral. -/
lemma spells_write (n : Number) : n.numeral.Spells (n.write Json.doubleNotation) := by
  cases n with
  | int n => exact Numeral.spells_ofInt n
  | float d => exact Numeral.spells_ofDouble d

/-- The text of a number is read as a number. -/
def IsLegible (n : Number) : Prop := ∃ m, ofNumeral? n.numeral = some m

/-- The text of a number is read as this number. -/
def ReadsBack (n : Number) : Prop := ofNumeral? n.numeral = some n

instance (n : Number) : Decidable n.ReadsBack := inferInstanceAs (Decidable (_ = _))

/-- This double is the nearest to `3 * 10 ^ 30`, and is printed as `3e+30`. -/
lemma not_readsBack_double : ¬(float ⟨false, 5329070518200751, 49⟩).ReadsBack := by decide +kernel

lemma IsWhole.readsBack {n : Number} (h : n.IsWhole) : n.ReadsBack := by
  cases n with
  | int n => exact ofNumeral?_ofInt h
  | float d => exact h.elim

end Number

end SiblingQuery
