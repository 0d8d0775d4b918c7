import SiblingQuery.Proofs.DecimalTexts
import SiblingQuery.Proofs.Passes
import SiblingQuery.Proofs.Pieces
import SiblingQuery.Tree.Path

/-!
# How paths are written

A path is blank, or it is words between points with blanks around each: `Path.Writes` says so
without a reader, and `Path.parse` accepts exactly that.  What is no path has a first piece that is
no word, and this piece is what the failure names (`Path.IsFirstBad`).

Two things could come between a path that is printed and the path that is read.  Blanks are trimmed
twice, from the whole text and from each piece, and the pieces of a trimmed text are those of the
text but for blanks (`Text.map_trim_splitOn_trim`).  And a word may be written in more than one way,
of which the decimal form without a sign is one (`Word.writes_toDigits`).
-/

namespace SiblingQuery

/-! ## Words -/

namespace Word

/-- How a word is written: a plus sign or none, and at least one digit. -/
inductive Writes (n : ℕ) : List Char → Prop
  | mk {sign digits : List Char} (hsign : Numeral.SpellsSign false sign) (hne : digits ≠ [])
      (hdigits : ∀ c ∈ digits, c.isDigit = true) (hvalue : Numeral.natOfDigits digits = n)
      (hle : n ≤ maxWord) : Writes n (sign ++ digits)

variable {text digits : List Char} {n : ℕ}

lemma Writes.ne_nil (h : Writes n text) : text ≠ [] := by
  obtain ⟨-, hne, -⟩ := h
  exact List.append_ne_nil_of_right_ne_nil _ hne

lemma eq_of_readDigits {limit : ℕ} (h : readDigits limit digits 0 = .ok n) :
    (∀ c ∈ digits, c.isDigit = true) ∧ Numeral.natOfDigits digits = n ∧ n ≤ limit := by
  have hdigits : ∀ c ∈ digits, c.isDigit = true := by
    intro c hc
    by_contra hnot
    exact readDigits_ne_ok hc (Bool.not_eq_true _ ▸ hnot) limit 0 n h
  rw [readDigits_zero limit hdigits] at h
  split_ifs at h with hle
  obtain rfl := Except.ok.inj h
  exact ⟨hdigits, rfl, hle⟩

/-- The reader of words accepts exactly what a word is written as. -/
lemma parse_eq_ok_iff : parse text = .ok n ↔ Writes n text := by
  constructor
  · intro h
    unfold parse at h
    split at h
    · cases h
    · cases h
    · next digits hne =>
      obtain ⟨hdigits, hvalue, hle⟩ := eq_of_readDigits h
      exact .mk .plus hne hdigits hvalue hle
    · next hne _ _ =>
      obtain ⟨hdigits, hvalue, hle⟩ := eq_of_readDigits h
      exact .mk .none hne hdigits hvalue hle
  · rintro ⟨hsign, hne, hdigits, rfl, hle⟩
    obtain ⟨hplain, hplus, -⟩ := parse_digits hne hdigits
    have hread := (readDigits_zero maxWord hdigits).trans (if_pos hle)
    cases hsign with
    | plus => exact hplus.trans hread
    | none => exact hplain.trans hread

lemma isDigit_toDigits (n : ℕ) : ∀ c ∈ Nat.toDigits 10 n, c.isDigit = true := by
  intro c hc
  exact Nat.isDigit_of_mem_toDigits (by decide) (by decide) hc

lemma writes_toDigits (h : n ≤ maxWord) : Writes n (Nat.toDigits 10 n) :=
  .mk .none Nat.toDigits_ne_nil (isDigit_toDigits n) Nat.ofDigitChars_ten_toDigits h

end Word

namespace Path

/-! ## Ways of writing -/

/-- A piece of a path is an index: a word with blanks around it. -/
def WritesIndex (piece : List Char) (n : ℕ) : Prop := Word.Writes n (Text.trim piece)

/-- How a path is written: blanks alone for the root, and otherwise an index between any two
points. -/
inductive Writes : List ℕ → List Char → Prop
  | root {text : List Char} (h : Text.trim text = []) : Writes [] text
  | indices {text : List Char} {path : List ℕ} (hne : Text.trim text ≠ [])
      (h : List.Forall₂ WritesIndex ((Text.trim text).splitOn '.') path) : Writes path text

/-- The first piece of a text, from the left, that is no index. -/
def IsFirstBad (text piece : List Char) : Prop :=
  ∃ before after, text.splitOn '.' = before ++ piece :: after ∧
    (∀ earlier ∈ before, ∃ n, WritesIndex earlier n) ∧ ∀ n, ¬WritesIndex piece n

/-- A path in decimal, with points between the indices. -/
def write (path : List ℕ) : String := ".".intercalate (path.map toString)

/-- A text with blanks around it. -/
def IsPadded (core text : List Char) : Prop :=
  ∃ before after, text = before ++ (core ++ after) ∧ (∀ c ∈ before, Text.isBlank c = true) ∧
    ∀ c ∈ after, Text.isBlank c = true

/-! ## Reading the pieces -/

/-- The index that a piece is, or what is said of the path if it is none. -/
def readPiece (path piece : List Char) : Except PathError ℕ :=
  match Word.parse (Text.trim piece) with
  | .ok index => .ok index
  | .error cause => .error ⟨String.ofList piece, String.ofList path, cause⟩

/-- What is said of a piece that is no index. -/
def refusal? (path piece : List Char) : Option PathError :=
  match readPiece path piece with
  | .ok _ => none
  | .error e => some e

variable {path piece text : List Char} {pieces : List (List Char)} {indices : List ℕ}
  {e : PathError}

lemma readPieces_eq_mapM (path : List Char) (pieces : List (List Char)) :
    readPieces path pieces = pieces.mapM (readPiece path) := by
  induction pieces with
  | nil => rfl
  | cons piece pieces ih =>
    rw [readPieces, List.mapM_cons, ← ih, readPiece]
    cases Word.parse (Text.trim piece) with
    | error cause => rfl
    | ok index => cases readPieces path pieces <;> rfl

lemma readPiece_eq_ok_iff {n : ℕ} : readPiece path piece = .ok n ↔ WritesIndex piece n := by
  rw [WritesIndex, ← Word.parse_eq_ok_iff, readPiece]
  cases Word.parse (Text.trim piece) <;> simp

lemma refusal?_eq_some_iff : refusal? path piece = some e ↔ ∃ cause,
    Word.parse (Text.trim piece) = .error cause ∧
      e = ⟨String.ofList piece, String.ofList path, cause⟩ := by
  rw [refusal?, readPiece]
  cases Word.parse (Text.trim piece) <;> simp [eq_comm]

lemma refusal?_eq_none_iff : refusal? path piece = none ↔ ∃ n, WritesIndex piece n := by
  have hpiece (n : ℕ) : WritesIndex piece n ↔ readPiece path piece = .ok n :=
    readPiece_eq_ok_iff.symm
  simp only [hpiece]
  rw [refusal?]
  cases readPiece path piece <;> simp

lemma readPieces_eq_ok_iff :
    readPieces path pieces = .ok indices ↔ List.Forall₂ WritesIndex pieces indices := by
  rw [readPieces_eq_mapM, mapM_eq_ok_iff]
  simp only [readPiece_eq_ok_iff]

/-- The first piece that is no index decides how the reading fails. -/
lemma readPieces_eq_error_iff : readPieces path pieces = .error e ↔
    ∃ before piece after, pieces = before ++ piece :: after ∧ refusal? path piece = some e ∧
      ∀ earlier ∈ before, ∃ n, WritesIndex earlier n := by
  have hpiece (piece : List Char) (e : PathError) :
      readPiece path piece = .error e ↔ ∃ kind, refusal? path piece = some kind ∧ e = id kind := by
    rw [refusal?]
    cases readPiece path piece <;> simp [eq_comm]
  rw [readPieces_eq_mapM, mapM_eq_error_iff fun piece _ => hpiece piece]
  simp only [id_eq, exists_eq_right', List.findSome?_eq_some_iff, refusal?_eq_none_iff]

/-! ## Reading a path -/

lemma parse_eq_ok_iff {text : String} : parse text = .ok indices ↔ Writes indices text.toList := by
  rw [parse]
  split_ifs with hblank
  · constructor
    · intro h
      obtain rfl := Except.ok.inj h
      exact .root hblank
    · intro h
      cases h with
      | root => rfl
      | indices hne => exact absurd hblank hne
  · rw [readPieces_eq_ok_iff, Text.splitOn_eq]
    constructor
    · intro h
      exact .indices hblank h
    · intro h
      cases h with
      | root h => exact absurd h hblank
      | indices _ h => exact h

lemma parse_eq_error_iff {text : String} :
    parse text = .error e ↔ Text.trim text.toList ≠ [] ∧ ∃ piece cause,
      IsFirstBad (Text.trim text.toList) piece ∧ Word.parse (Text.trim piece) = .error cause ∧
        e = ⟨String.ofList piece, String.ofList (Text.trim text.toList), cause⟩ := by
  rw [parse]
  split_ifs with hblank
  · simp [hblank]
  · rw [readPieces_eq_error_iff, Text.splitOn_eq]
    simp only [refusal?_eq_some_iff]
    constructor
    · rintro ⟨before, piece, after, hpieces, ⟨cause, hcause, rfl⟩, hbefore⟩
      refine ⟨hblank, piece, cause, ⟨before, after, hpieces, hbefore, ?_⟩, hcause, rfl⟩
      intro n hn
      rw [Word.parse_eq_ok_iff.2 hn] at hcause
      cases hcause
    · rintro ⟨-, piece, cause, ⟨before, after, hpieces, hbefore, -⟩, hcause, rfl⟩
      exact ⟨before, piece, after, hpieces, ⟨cause, hcause, rfl⟩, hbefore⟩

/-! ## Paths that are printed -/

/-- Who cuts a path into indices need not trim it first. -/
lemma writes_of_forall₂ (h : List.Forall₂ WritesIndex (text.splitOn '.') indices) :
    Writes indices text := by
  have hwords (pieces : List (List Char)) : List.Forall₂ WritesIndex pieces indices ↔
      List.Forall₂ (fun word n => Word.Writes n word) (pieces.map Text.trim) indices := by
    rw [List.forall₂_map_left_iff]
    rfl
  have htrimmed : List.Forall₂ WritesIndex ((Text.trim text).splitOn '.') indices := by
    rw [hwords, ← Text.splitOn_eq] at h ⊢
    rwa [Text.map_trim_splitOn_trim (by decide)]
  refine .indices ?_ htrimmed
  intro hblank
  rw [hblank, List.splitOn_nil] at htrimmed
  obtain ⟨index, -, hindex, -⟩ := List.forall₂_cons_left_iff.1 htrimmed
  exact hindex.ne_nil rfl

lemma IsPadded.trim_eq {digits : List Char} (h : IsPadded digits piece)
    (hdigits : ∀ c ∈ digits, c.isDigit = true) (hne : digits ≠ []) : Text.trim piece = digits := by
  obtain ⟨before, after, rfl, hbefore, hafter⟩ := h
  exact Text.trim_eq hbefore hafter (fun c hc => isBlank_of_isDigit (hdigits c hc)) hne

lemma IsPadded.not_mem {digits : List Char} (h : IsPadded digits piece)
    (hdigits : ∀ c ∈ digits, c.isDigit = true) : '.' ∉ piece := by
  obtain ⟨before, after, rfl, hbefore, hafter⟩ := h
  have hblank {blanks : List Char} (hblanks : ∀ c ∈ blanks, Text.isBlank c = true) :
      '.' ∉ blanks := fun hmem => absurd (hblanks '.' hmem) (by decide)
  rw [List.mem_append, List.mem_append]
  rintro (hmem | hmem | hmem)
  · exact hblank hbefore hmem
  · exact absurd (hdigits '.' hmem) (by decide)
  · exact hblank hafter hmem

/-- Decimal words with points between them and blanks around each are a path, and are read as it. -/
lemma parse_intercalate (hwords : ∀ n ∈ indices, n ≤ maxWord)
    (h : List.Forall₂ (fun piece n => IsPadded (Nat.toDigits 10 n) piece) pieces indices) :
    parse (String.ofList (['.'].intercalate pieces)) = .ok indices := by
  rw [parse_eq_ok_iff, String.toList_ofList]
  by_cases hnone : indices = []
  · subst hnone
    obtain rfl := List.forall₂_nil_right_iff.1 h
    exact .root rfl
  · have hpieces : pieces ≠ [] := by
      rintro rfl
      exact hnone (List.forall₂_nil_left_iff.1 h)
    have hpoint : ∀ piece ∈ pieces, '.' ∉ piece := by
      intro piece hpiece
      obtain ⟨n, -, hn⟩ := exists_of_forall₂ h.flip piece hpiece
      exact IsPadded.not_mem hn (Word.isDigit_toDigits n)
    have hindices : List.Forall₂ (flip WritesIndex) indices pieces := by
      refine forall₂_imp_of_mem h.flip fun n hn piece hpiece => ?_
      change Word.Writes n (Text.trim piece)
      rw [IsPadded.trim_eq hpiece (Word.isDigit_toDigits n) Nat.toDigits_ne_nil]
      exact Word.writes_toDigits (hwords n hn)
    apply writes_of_forall₂
    rw [List.splitOn_intercalate '.' hpoint hpieces]
    exact hindices.flip

lemma toList_write (path : List ℕ) :
    (write path).toList = ['.'].intercalate (path.map (Nat.toDigits 10)) := by
  rw [write, String.toList_intercalate, List.map_map]
  congr 1
  exact List.map_congr_left fun n _ => Nat.toList_repr

/-- A path that is written in decimal is read as itself. -/
lemma parse_write (hwords : ∀ n ∈ indices, n ≤ maxWord) : parse (write indices) = .ok indices := by
  have hplain : List.Forall₂ (fun piece n => IsPadded (Nat.toDigits 10 n) piece)
      (indices.map (Nat.toDigits 10)) indices := by
    rw [List.forall₂_map_left_iff, List.forall₂_same]
    exact fun n _ => ⟨[], [], by simp, nofun, nofun⟩
  rw [← parse_intercalate hwords hplain, ← toList_write, String.ofList_toList]

/-- Which texts are paths, and which.  A text is read as a path exactly if it is written as that
path: if it is blank, as the empty one, and otherwise if between any two points stands a word with
or without a plus sign, blanks not counted.  A text that is none fails at its first piece, from the
left, that is no word, and names this piece and the text as they stand, but without the blanks
around the text.  Decimal words with points between them and blanks around each are read back, and
so is a path that is printed. -/
theorem parse_grammar :
    (∀ (text : String) (path : List ℕ), parse text = .ok path ↔ Writes path text.toList) ∧
    (∀ (text : String) (e : PathError), parse text = .error e ↔
      Text.trim text.toList ≠ [] ∧ ∃ piece cause,
        IsFirstBad (Text.trim text.toList) piece ∧ Word.parse (Text.trim piece) = .error cause ∧
          e = ⟨String.ofList piece, String.ofList (Text.trim text.toList), cause⟩) ∧
    ∀ path : List ℕ, (∀ n ∈ path, n ≤ maxWord) →
      parse (write path) = .ok path ∧
      ∀ pieces, List.Forall₂ (fun piece n => IsPadded (Nat.toDigits 10 n) piece) pieces path →
        parse (String.ofList (['.'].intercalate pieces)) = .ok path := by
  refine ⟨?_, ?_, ?_⟩
  · intro text path
    exact parse_eq_ok_iff
  · intro text e
    exact parse_eq_error_iff
  · intro path hwords
    refine ⟨parse_write hwords, ?_⟩
    intro pieces hpieces
    exact parse_intercalate hwords hpieces

/-- The largest word is an index, also between a no-break space and a tab. -/
theorem parse_grammar_padded : (∀ n ∈ [7, maxWord], n ≤ maxWord) ∧
    parse " 7.\u00A018446744073709551615\t" = .ok [7, maxWord] := by
  have hwords : ∀ n ∈ [7, maxWord], n ≤ maxWord := by decide
  have hseven : IsPadded (Nat.toDigits 10 7) [' ', '7'] :=
    ⟨[' '], [], by decide, by simp [Text.isBlank], nofun⟩
  have hlargest : IsPadded (Nat.toDigits 10 maxWord) "\u00A018446744073709551615\t".toList :=
    ⟨['\u00A0'], ['\t'], by decide, by simp [Text.isBlank], by simp [Text.isBlank]⟩
  have htext : " 7.\u00A018446744073709551615\t" = String.ofList
      (['.'].intercalate [[' ', '7'], "\u00A018446744073709551615\t".toList]) := by decide
  rw [htext]
  exact ⟨hwords, (parse_grammar.2.2 _ hwords).2 _ (.cons hseven (.cons hlargest .nil))⟩

end Path

end SiblingQuery
