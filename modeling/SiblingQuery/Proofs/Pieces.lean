import Mathlib.Data.List.TakeWhile
import SiblingQuery.Text.Blank

/-!
# Pieces of a text

A text is cut at every separator, and the pieces between them joined again are the text: `splitOn`
cuts as lists are cut (`splitOn_eq`).  The last piece is what stands behind the last separator, and
a text has only one (`append_cons_inj`).

What is added at an end of a text is added to the piece there, unless it has a separator in it.  So
blanks around a text are blanks around its first and last piece, and who trims every piece has no
need to trim the text before it is cut (`map_trim_splitOn_trim`).
-/

namespace SiblingQuery

namespace Text

variable {separator : Char} {text before last : List Char}

lemma splitOn_eq (separator : Char) (text : List Char) :
    splitOn separator text = text.splitOn separator := by
  induction text with
  | nil => rfl
  | cons c text ih =>
    rw [splitOn, ih, List.splitOn_cons_eq_if_modifyHead]
    simp only [beq_iff_eq]
    split_ifs
    · rfl
    · cases hpieces : text.splitOn separator with
      | nil => exact absurd hpieces (List.splitOn_ne_nil separator text)
      | cons piece pieces => rfl

lemma splitOn_ne_nil (separator : Char) (text : List Char) : splitOn separator text ≠ [] := by
  rw [splitOn_eq]
  exact List.splitOn_ne_nil separator text

lemma splitOn_of_not_mem (h : separator ∉ text) : splitOn separator text = [text] := by
  rw [splitOn_eq, List.splitOn_eq_singleton h]

/-! ## Cutting at the last separator -/

lemma splitOn_append_cons (h : separator ∉ last) :
    splitOn separator (before ++ separator :: last) = splitOn separator before ++ [last] := by
  rw [splitOn_eq, splitOn_eq, List.splitOn_append_cons_self, List.splitOn_eq_singleton h]

/-- A text with a separator in it has a last one. -/
lemma exists_eq_append_cons (h : separator ∈ text) :
    ∃ before last, text = before ++ separator :: last ∧ separator ∉ last := by
  obtain ⟨after, before, heq, hafter⟩ :=
    List.eq_append_cons_of_mem (List.mem_reverse.2 h)
  refine ⟨before.reverse, after.reverse, ?_, by simpa using hafter⟩
  rw [← List.reverse_reverse text, heq]
  simp

/-- A text of one piece is that piece. -/
lemma eq_of_splitOn_eq_singleton {piece : List Char} (h : splitOn separator text = [piece]) :
    text = piece := by
  have hjoined : [separator].intercalate (text.splitOn separator) = text :=
    List.intercalate_splitOn separator
  rw [← hjoined, ← splitOn_eq, h, List.intercalate_singleton]

/-- The last piece stands at the end of the text, alone or after a separator. -/
lemma exists_eq_append_getLast? (separator : Char) (text : List Char) :
    ∃ before last, text = before ++ last ∧ (splitOn separator text).getLast? = some last ∧
      separator ∉ last ∧ (before = [] ∨ before.getLast? = some separator) := by
  by_cases h : separator ∈ text
  · obtain ⟨before, last, rfl, hlast⟩ := exists_eq_append_cons h
    refine ⟨before ++ [separator], last, by simp, ?_, hlast, .inr (by simp)⟩
    rw [splitOn_append_cons hlast, List.getLast?_append]
    rfl
  · exact ⟨[], text, rfl, by rw [splitOn_of_not_mem h]; rfl, h, .inl rfl⟩

/-- A text has one last separator only. -/
lemma append_cons_inj {others final : List Char} (hlast : separator ∉ last)
    (hfinal : separator ∉ final) (h : before ++ separator :: last = others ++ separator :: final) :
    before = others ∧ last = final := by
  have hpieces : splitOn separator before ++ [last] = splitOn separator others ++ [final] := by
    rw [← splitOn_append_cons hlast, h, splitOn_append_cons hfinal]
  have hsame : last = final := by simpa using congrArg List.getLast? hpieces
  subst hsame
  exact ⟨List.append_cancel_right h, rfl⟩

/-- What has no separator in it stands at the end of a text if it stands at the end of the text's
last piece. -/
lemma suffix_append_iff {mark : List Char} (hmark : separator ∉ mark)
    (hbefore : before = [] ∨ before.getLast? = some separator) :
    mark <:+ before ++ last ↔ mark <:+ last := by
  refine ⟨fun h => ?_, fun h => h.trans (List.suffix_append before last)⟩
  rcases List.suffix_or_suffix_of_suffix h (List.suffix_append before last) with hshort | hlong
  · exact hshort
  · obtain ⟨more, rfl⟩ := hlong
    obtain ⟨front, hfront⟩ := h
    rw [← List.append_assoc] at hfront
    obtain rfl : front ++ more = before := List.append_cancel_right hfront
    -- what the mark has more than the piece would end with the separator
    rcases hbefore with hnone | hlast
    · rw [(List.append_eq_nil_iff.1 hnone).2]
      exact List.suffix_refl last
    · cases hend : more.getLast? with
      | none =>
        rw [List.getLast?_eq_none_iff.1 hend]
        exact List.suffix_refl last
      | some c =>
        obtain rfl : c = separator := by simpa [hend] using hlast
        exact absurd (List.mem_append_left last (List.mem_of_getLast? hend)) hmark

/-! ## What is added at an end -/

/-- What is added behind a text is added to its last piece. -/
lemma exists_splitOn_append {after : List Char} (text : List Char) (h : separator ∉ after) :
    ∃ pieces last, splitOn separator text = pieces ++ [last] ∧
      splitOn separator (text ++ after) = pieces ++ [last ++ after] := by
  by_cases hmem : separator ∈ text
  · obtain ⟨before, last, rfl, hlast⟩ := exists_eq_append_cons hmem
    have hboth : separator ∉ last ++ after := by
      rw [List.mem_append, not_or]
      exact ⟨hlast, h⟩
    refine ⟨splitOn separator before, last, splitOn_append_cons hlast, ?_⟩
    rw [List.append_assoc, List.cons_append, splitOn_append_cons hboth]
  · have hboth : separator ∉ text ++ after := by
      rw [List.mem_append, not_or]
      exact ⟨hmem, h⟩
    exact ⟨[], text, splitOn_of_not_mem hmem, splitOn_of_not_mem hboth⟩

/-- What is added before a text is added to its first piece. -/
lemma exists_append_splitOn (h : separator ∉ before) (text : List Char) :
    ∃ first pieces, splitOn separator text = first :: pieces ∧
      splitOn separator (before ++ text) = (before ++ first) :: pieces := by
  induction before with
  | nil =>
    obtain ⟨first, pieces, hpieces⟩ :=
      List.exists_cons_of_ne_nil (splitOn_ne_nil separator text)
    exact ⟨first, pieces, hpieces, hpieces⟩
  | cons c before ih =>
    rw [List.mem_cons, not_or] at h
    obtain ⟨first, pieces, hpieces, hbefore⟩ := ih h.2
    refine ⟨first, pieces, hpieces, ?_⟩
    rw [List.cons_append, splitOn, if_neg (Ne.symm h.1), hbefore]
    rfl

/-! ## Trimming -/

lemma exists_eq_trim (text : List Char) :
    ∃ before after, text = before ++ (trim text ++ after) ∧
      (∀ c ∈ before, isBlank c = true) ∧ ∀ c ∈ after, isBlank c = true := by
  have hend (rest : List Char) :
      rest = trimEnd rest ++ (rest.reverse.takeWhile isBlank).reverse := by
    rw [trimEnd, ← List.reverse_append, List.takeWhile_append_dropWhile, List.reverse_reverse]
  refine ⟨text.takeWhile isBlank, ((text.dropWhile isBlank).reverse.takeWhile isBlank).reverse,
    ?_, fun c => List.mem_takeWhile_imp, fun c hc => ?_⟩
  · rw [trim, ← hend, List.takeWhile_append_dropWhile]
  · exact List.mem_takeWhile_imp (List.mem_reverse.1 hc)

lemma trim_append_left (h : ∀ c ∈ before, isBlank c = true) (text : List Char) :
    trim (before ++ text) = trim text := by
  rw [trim, List.dropWhile_append_of_pos h, trim]

lemma trimEnd_append_right {after : List Char} (text : List Char)
    (h : ∀ c ∈ after, isBlank c = true) : trimEnd (text ++ after) = trimEnd text := by
  rw [trimEnd, List.reverse_append,
    List.dropWhile_append_of_pos fun c hc => h c (List.mem_reverse.1 hc), trimEnd]

lemma trim_append_right {after : List Char} (text : List Char)
    (h : ∀ c ∈ after, isBlank c = true) : trim (text ++ after) = trim text := by
  rw [trim, List.dropWhile_append]
  split_ifs with hblank
  · have hnone : after.dropWhile isBlank = [] := List.dropWhile_eq_nil_iff.2 h
    rw [hnone, trim, List.isEmpty_iff.1 hblank]
  · rw [trimEnd_append_right _ h, trim]

/-- A text that is trimmed and cut has, trimmed piece by piece, the pieces of the text itself. -/
lemma map_trim_splitOn_trim (h : isBlank separator = false) (text : List Char) :
    (splitOn separator (trim text)).map trim = (splitOn separator text).map trim := by
  have hnot {blanks : List Char} (hblanks : ∀ c ∈ blanks, isBlank c = true) :
      separator ∉ blanks := by
    intro hmem
    rw [hblanks separator hmem] at h
    cases h
  obtain ⟨before, after, htext, hbefore, hafter⟩ := exists_eq_trim text
  obtain ⟨pieces, last, hcore, hcut⟩ := exists_splitOn_append (trim text) (hnot hafter)
  obtain ⟨first, others, hpieces, hwhole⟩ :=
    exists_append_splitOn (hnot hbefore) (trim text ++ after)
  calc (splitOn separator (trim text)).map trim
    _ = (splitOn separator (trim text ++ after)).map trim := by
        rw [hcore, hcut, List.map_append, List.map_append, List.map_singleton, List.map_singleton,
          trim_append_right last hafter]
    _ = (splitOn separator (before ++ (trim text ++ after))).map trim := by
        rw [hpieces, hwhole, List.map_cons, List.map_cons, trim_append_left hbefore]
    _ = (splitOn separator text).map trim := by rw [← htext]

end Text

end SiblingQuery
