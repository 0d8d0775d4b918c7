import Mathlib.Data.Int.Notation
import Mathlib.Data.List.TakeDrop
import SiblingQuery.Yaml.Cursor

/-!
# Places in a printed YAML text

A cursor over a text that is known as a whole is determined by how much of it has been read.
`Cursor.between read rest` is that cursor, and what the readers of lines do is said here as moving
characters from `rest` to `read`: along a line (`advance_between`), over a line end
(`lineEnd_between`), and over the blanks and line ends between two pieces of a scalar
(`Gap.read_between`).

Printed text has no other blanks than spaces and no other line ends than those that are read as
themselves (`isKeptBreak`), so nothing is said of tabs and carriage returns.
-/

namespace SiblingQuery

namespace Yaml

/-! ## Characters -/

/-- A line end that is read as itself. -/
def isKeptBreak (c : Char) : Bool := c = '\n' || c = '\u2028' || c = '\u2029'

/-- A space, or a line end that is read as itself. -/
def isPrintedSpace (c : Char) : Bool := c = ' ' || isKeptBreak c

lemma isBreak_of_isKeptBreak {c : Char} (h : isKeptBreak c = true) : isBreak c = true := by
  simp only [isKeptBreak, Bool.or_eq_true, decide_eq_true_eq] at h
  obtain (rfl | rfl) | rfl := h <;> decide

lemma isBlank_of_isKeptBreak {c : Char} (h : isKeptBreak c = true) : isBlank c = false := by
  simp only [isKeptBreak, Bool.or_eq_true, decide_eq_true_eq] at h
  obtain (rfl | rfl) | rfl := h <;> decide

lemma isSpace_of_isPrintedSpace {c : Char} (h : isPrintedSpace c = true) : isSpace c = true := by
  simp only [isPrintedSpace, Bool.or_eq_true, decide_eq_true_eq] at h
  rcases h with rfl | h
  · decide
  · simp [isSpace, isBreak_of_isKeptBreak h]

lemma isBreak_of_isSpace {c : Char} (h : isSpace c = false) : isBreak c = false :=
  (Bool.or_eq_false_iff.1 h).2

lemma ne_blank_of_isSpace {c : Char} (h : isSpace c = false) : c ≠ ' ' ∧ c ≠ '\t' := by
  constructor <;> rintro rfl <;> revert h <;> decide

lemma isPrintedSpace_of_spaces {spaces : List Char} (h : ∀ c ∈ spaces, c = ' ') :
    ∀ c ∈ spaces, isPrintedSpace c = true := by
  intro c hc
  rw [h c hc]
  decide

lemma isBreak_of_spaces {spaces : List Char} (h : ∀ c ∈ spaces, c = ' ') :
    ∀ c ∈ spaces, isBreak c = false := by
  intro c hc
  rw [h c hc]
  decide

/-- A run ends where the test fails. -/
lemma takeWhile_append_of_stop {test : Char → Bool} {word rest : List Char}
    (hword : ∀ c ∈ word, test c = true) (hrest : ∀ c ∈ rest.head?, test c = false) :
    (word ++ rest).takeWhile test = word := by
  have hstop : rest.takeWhile test = [] := by
    cases rest with
    | nil => rfl
    | cons c rest => simp [hrest c rfl]
  rw [List.takeWhile_append_of_pos hword, hstop, List.append_nil]

/-! ## Cursors -/

namespace Cursor

/-- The column after some characters. -/
def columnOf (read : List Char) : ℕ := (read.reverse.takeWhile (!isBreak ·)).length

/-- The place after `read` in a text that goes on with `rest`. -/
def between (read rest : List Char) : Cursor :=
  ⟨rest, octetCount read, read.countP isBreak, columnOf read, (read ++ rest).length⟩

variable {read word rest : List Char} {c : Char}

@[simp]
lemma between_text (read rest : List Char) : (between read rest).text = rest := rfl

@[simp]
lemma between_column (read rest : List Char) : (between read rest).column = columnOf read := rfl

@[simp]
lemma between_size (read rest : List Char) : (between read rest).size = (read ++ rest).length := rfl

lemma octetCount_append (read word : List Char) :
    octetCount (read ++ word) = octetCount read + octetCount word := by
  have hfrom (chars : List Char) (n : ℕ) :
      chars.foldl (fun n ch => n + ch.utf8Size) n = n + octetCount chars := by
    induction chars generalizing n with
    | nil => rfl
    | cons ch chars ih =>
      simp only [octetCount, List.foldl_cons]
      rw [ih, ih (0 + ch.utf8Size)]
      omega
  rw [octetCount, List.foldl_append, hfrom]
  rfl

lemma columnOf_append (h : ∀ c ∈ word, isBreak c = false) :
    columnOf (read ++ word) = columnOf read + word.length := by
  have hword : ∀ c ∈ word.reverse, (!isBreak c) = true := by simpa using h
  rw [columnOf, List.reverse_append, List.takeWhile_append_of_pos hword, List.length_append,
    List.length_reverse, Nat.add_comm]
  rfl

lemma columnOf_append_break (h : isBreak c = true) : columnOf (read ++ [c]) = 0 := by
  simp [columnOf, h]

/-- Going on along the line. -/
lemma advance_between (h : ∀ c ∈ word, isBreak c = false) :
    (between read (word ++ rest)).advance word.length = between (read ++ word) rest := by
  have hlines : word.countP isBreak = 0 := List.countP_eq_zero.2 (by simpa using h)
  simp only [advance, between, List.drop_left, List.take_left, List.countP_append, hlines,
    octetCount_append, columnOf_append h, Nat.add_zero, List.append_assoc]

lemma advance_one_between (h : isBreak c = false) :
    (between read (c :: rest)).advance 1 = between (read ++ [c]) rest := by
  have hline : ∀ d ∈ [c], isBreak d = false := by simpa using h
  exact advance_between hline

/-- A run along the line. -/
lemma run_between {test : Char → Bool} (hword : ∀ c ∈ word, test c = true)
    (hline : ∀ c ∈ word, isBreak c = false) (hrest : ∀ c ∈ rest.head?, test c = false) :
    (between read (word ++ rest)).run test = (word, between (read ++ word) rest) := by
  simp only [run, between_text, takeWhile_append_of_stop hword hrest, advance_between hline]

lemma skip_between {test : Char → Bool} (hword : ∀ c ∈ word, test c = true)
    (hline : ∀ c ∈ word, isBreak c = false) (hrest : ∀ c ∈ rest.head?, test c = false) :
    (between read (word ++ rest)).skip test = between (read ++ word) rest := by
  rw [skip, run_between hword hline hrest]

/-- Going on to the next line. -/
lemma lineEnd_between (h : isKeptBreak c = true) :
    (between read (c :: rest)).lineEnd = ([c], between (read ++ [c]) rest) := by
  have hbreak : (between read (c :: rest)).breakLine c.utf8Size rest =
      between (read ++ [c]) rest := by
    simp [breakLine, between, columnOf_append_break (isBreak_of_isKeptBreak h),
      isBreak_of_isKeptBreak h, octetCount]
  simp only [isKeptBreak, Bool.or_eq_true, decide_eq_true_eq] at h
  obtain (rfl | rfl) | rfl := h <;> rw [← hbreak] <;> rfl

lemma nextLine_between (h : isKeptBreak c = true) :
    (between read (c :: rest)).nextLine = between (read ++ [c]) rest := by
  rw [nextLine, lineEnd_between h]

/-- Documents are marked in the first column only. -/
lemma atMark_between {mark : Char} (h : columnOf read ≠ 0) :
    (between read rest).atMark mark = false := by
  simp [atMark, h]

lemma atDocumentMark_between (h : columnOf read ≠ 0) :
    (between read rest).atDocumentMark = false := by
  simp [atDocumentMark, atMark_between h]

lemma next_between {test : Char → Bool} (h : ∀ c ∈ rest.head?, test c = false) :
    (between read rest).next test = false := by
  cases rest with
  | nil => rfl
  | cons c rest => simpa [next] using h c

end Cursor

/-! ## Gaps -/

namespace Gap

open Cursor

/-- What some blanks and line ends amount to. -/
def ofChars (chars : List Char) : Gap :=
  { blanks := if chars.any isBreak then [] else chars
    broken := chars.any isBreak
    first := (chars.filter isBreak).take 1
    others := (chars.filter isBreak).drop 1 }

lemma ofChars_append_space (chars : List Char) :
    ofChars (chars ++ [' ']) =
      if (ofChars chars).broken then ofChars chars
      else { ofChars chars with blanks := (ofChars chars).blanks ++ [' '] } := by
  have hspace : isBreak ' ' = false := by decide
  cases h : chars.any isBreak <;> simp [ofChars, hspace, h]

lemma ofChars_append_break {c : Char} (hc : isBreak c = true) (chars : List Char) :
    ofChars (chars ++ [c]) =
      if (ofChars chars).broken then { ofChars chars with others := (ofChars chars).others ++ [c] }
      else { ofChars chars with blanks := [], broken := true, first := [c] } := by
  cases h : chars.any isBreak with
  | false =>
    have hnone : chars.filter isBreak = [] := by
      simpa [List.filter_eq_nil_iff] using h
    simp [ofChars, hc, h, hnone]
  | true =>
    obtain ⟨first, others, hfilter⟩ : ∃ first others, chars.filter isBreak = first :: others := by
      obtain ⟨b, hb, hbreak⟩ := List.any_eq_true.1 h
      exact List.exists_cons_of_ne_nil (List.ne_nil_of_mem (List.mem_filter.2 ⟨hb, hbreak⟩))
    simp [ofChars, hc, h, hfilter]

lemma readUpTo_between {margin : ℕ} {gap : List Char} (h : ∀ c ∈ gap, isPrintedSpace c = true)
    (done read rest : List Char) :
    readUpTo margin gap.length (ofChars done) (between read (gap ++ rest)) =
      some (ofChars (done ++ gap), between (read ++ gap) rest) := by
  induction gap generalizing done read with
  | nil => simp [readUpTo]
  | cons c gap ih =>
    obtain ⟨hc, hgap⟩ := List.forall_mem_cons.1 h
    have hnext := ih hgap (done ++ [c]) (read ++ [c])
    simp only [List.append_assoc, List.singleton_append] at hnext
    simp only [isPrintedSpace, Bool.or_eq_true, decide_eq_true_eq] at hc
    rcases hc with rfl | hc
    · have hblank : isBlank ' ' = true := by decide
      rw [ofChars_append_space] at hnext
      simp only [List.length_cons, List.cons_append, readUpTo, between_text, hblank, if_true,
        advance_one_between (show isBreak ' ' = false by decide)]
      cases hbroken : (ofChars done).broken <;> simp [hbroken] at hnext ⊢ <;> exact hnext
    · rw [ofChars_append_break (isBreak_of_isKeptBreak hc)] at hnext
      simp only [List.length_cons, List.cons_append, readUpTo, between_text,
        isBlank_of_isKeptBreak hc, isBreak_of_isKeptBreak hc, if_true, lineEnd_between hc]
      cases hbroken : (ofChars done).broken <;> simp [hbroken] at hnext ⊢ <;> exact hnext

/-- A whole gap is read, whatever it stands between. -/
lemma read_between {margin : ℕ} {gap rest : List Char} (h : ∀ c ∈ gap, isPrintedSpace c = true)
    (hrest : ∀ c ∈ rest.head?, isSpace c = false) (read : List Char) :
    Gap.read margin {} (between read (gap ++ rest)) =
      some (ofChars gap, between (read ++ gap) rest) := by
  have hspaces : (between read (gap ++ rest)).spaces = gap.length := by
    rw [spaces, between_text,
      takeWhile_append_of_stop (fun c hc => isSpace_of_isPrintedSpace (h c hc)) hrest]
  rw [Gap.read, hspaces]
  exact readUpTo_between h [] read rest

/-- Blanks stand for themselves. -/
lemma folded_ofChars_of_blanks {gap : List Char} (h : ∀ c ∈ gap, isBreak c = false) :
    (ofChars gap).folded = gap := by
  have hnone : gap.any isBreak = false := by simpa using h
  simp [folded, ofChars, hnone]

/-- Line ends of which the first is no line feed stand for themselves; blanks beside them do not
count. -/
lemma folded_ofChars_of_breaks {gap breaks : List Char} (h : gap.filter isBreak = breaks)
    (hne : breaks ≠ []) (hfirst : breaks.head? ≠ some '\n') : (ofChars gap).folded = breaks := by
  subst h
  have hsome : gap.any isBreak = true := by
    obtain ⟨c, hc⟩ := List.exists_mem_of_ne_nil _ hne
    exact List.any_eq_true.2 ⟨c, List.mem_filter.1 hc⟩
  cases hfilter : gap.filter isBreak with
  | nil => exact absurd hfilter hne
  | cons c others =>
    rw [hfilter, List.head?_cons] at hfirst
    have hc : c ≠ '\n' := fun heq => hfirst (congrArg some heq)
    simp [folded, ofChars, hsome, hfilter, hc]

end Gap

end Yaml

end SiblingQuery
