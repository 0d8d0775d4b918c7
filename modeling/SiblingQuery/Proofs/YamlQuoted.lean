import Mathlib.Algebra.Group.Nat.Defs
import Mathlib.Data.List.Chain
import Mathlib.Data.List.TakeWhile
import SiblingQuery.Proofs.YamlCursor
import SiblingQuery.Yaml.Quoting

/-!
# Quoted scalars read back

A text between quotes is read piece by piece, with gaps between the pieces, and so it is followed
here: `wordsInduction` cuts a text into words and gaps, and `quotedFrom_last` and `quotedFrom_more`
read one piece each.

* Between double quotes every character but the space is one that no piece ends at, since tabs and
  line ends are escaped (`doublePiece_doubleChar`).
* Between single quotes line ends stand as themselves.  What comes after them is indentation, which
  does not count, and no space stands beside them in the text.
-/

namespace SiblingQuery

namespace Yaml

/-! ## Words -/

/-- The longest run at the beginning of a text, and what stands after it. -/
lemma exists_run (test : Char → Bool) (text : List Char) :
    ∃ run rest, text = run ++ rest ∧ (∀ c ∈ run, test c = true) ∧
      ∀ c ∈ rest.head?, test c = false := by
  refine ⟨text.takeWhile test, text.dropWhile test, List.takeWhile_append_dropWhile.symm,
    fun c hc => List.mem_takeWhile_imp hc, fun c hc => ?_⟩
  have hstop := List.head?_dropWhile_not test text
  rw [Option.mem_def.1 hc] at hstop
  simpa using hstop

/-- A text is a word, or a word and a gap before a text that does not begin with a gap. -/
lemma wordsInduction (isGap : Char → Bool) {motive : List Char → Prop}
    (last : ∀ word, (∀ c ∈ word, isGap c = false) → motive word)
    (more : ∀ word gap rest, (∀ c ∈ word, isGap c = false) → gap ≠ [] →
      (∀ c ∈ gap, isGap c = true) → (∀ c ∈ rest.head?, isGap c = false) → motive rest →
      motive (word ++ (gap ++ rest)))
    (text : List Char) : motive text := by
  induction h : text.length using Nat.strongRecOn generalizing text with
  | ind n ih =>
    obtain ⟨word, after, rfl, hword, hafter⟩ := exists_run (!isGap ·) text
    simp only [Bool.not_eq_true'] at hword
    obtain ⟨gap, rest, rfl, hgap, hrest⟩ := exists_run isGap after
    by_cases hne : gap = []
    · -- The word ends with the text: what comes next would be a gap and none.
      subst hne
      have hnone : rest = [] := by
        cases rest with
        | nil => rfl
        | cons c rest => simp [hrest c rfl] at hafter
      subst hnone
      rw [List.append_nil, List.append_nil]
      exact last word hword
    · have hpos := List.length_pos_of_ne_nil hne
      simp only [List.length_append] at h
      exact more word gap rest hword hne hgap hrest (ih rest.length (by omega) rest rfl)

/-! ## Characters of a text -/

namespace Quoting

lemma hasPair_eq_false_iff {first second : Char → Bool} {text : List Char} :
    hasPair first second text = false ↔
      text.IsChain fun a b => first a = true → second b = false := by
  induction text with
  | nil => simp [hasPair]
  | cons a text ih =>
    cases text with
    | nil => simp [hasPair]
    | cons b rest => cases hfirst : first a <;> simp [hasPair, hfirst, ih, List.isChain_cons_cons]

lemma isAllowed_of_isPrintable {c : Char} (h : isPrintable c = true) : isAllowed c = true := by
  simp only [isPrintable, isAllowed, Bool.or_eq_true, Bool.and_eq_true, decide_eq_true_eq] at h ⊢
  omega

lemma isPrintedSpace_of_isSpace {c : Char} (hprint : isPrintable c = true)
    (hspace : isSpace c = true) : isPrintedSpace c = true := by
  simp only [isSpace, isBlank, isBreak, Bool.or_eq_true, decide_eq_true_eq] at hspace
  obtain (rfl | rfl) | (((rfl | rfl) | rfl) | rfl) | rfl := hspace <;> revert hprint <;> decide

/-- A printable character that is blank is a space or ends a line. -/
lemma eq_space_or_isBreak {c : Char} (hprint : isPrintable c = true) (hspace : isSpace c = true) :
    c = ' ' ∨ isBreak c = true := by
  have hprinted := isPrintedSpace_of_isSpace hprint hspace
  simp only [isPrintedSpace, Bool.or_eq_true, decide_eq_true_eq] at hprinted
  exact hprinted.imp_right isBreak_of_isKeptBreak

lemma isSpace_of_ne_space {c : Char} (hprint : isPrintable c = true) (hbreak : isBreak c = false)
    (hne : c ≠ ' ') : isSpace c = false := by
  by_contra hspace
  have hbreak' := (eq_space_or_isBreak hprint (Bool.not_eq_false _ ▸ hspace)).resolve_left hne
  rw [hbreak] at hbreak'
  cases hbreak'

lemma isKeptBreak_of_isBreak {c : Char} (hprint : isPrintable c = true)
    (hbreak : isBreak c = true) : isKeptBreak c = true := by
  simp only [isBreak, Bool.or_eq_true, decide_eq_true_eq] at hbreak
  obtain (((rfl | rfl) | rfl) | rfl) | rfl := hbreak <;> revert hprint <;> decide

lemma isBreak_of_mem_indentation {indent : ℕ} {c : Char} (h : c ∈ indentation indent) :
    isBreak c = false := by
  rw [(List.mem_replicate.1 h).2]
  decide

end Quoting

namespace Scalar

open Cursor Quoting

/-! ## Pieces and gaps -/

/-- The quote on both sides of a scalar. -/
def quote (single : Bool) : Char := if single then '\'' else '"'

/-- The piece of a quoted scalar at the beginning of a text. -/
def piece? (single : Bool) (text : List Char) : Option Piece :=
  if single then some (singlePiece text) else doublePiece text

variable {single : Bool} {fuel : ℕ} {read written word rest : List Char}

lemma isSpace_quote (single : Bool) : isSpace (quote single) = false := by
  cases single <;> decide

/-- How a piece is read, where no document is marked. -/
lemma quotedFrom_piece (hcolumn : columnOf read ≠ 0)
    (hline : ∀ c ∈ written, isBreak c = false) (hne : written ++ rest ≠ [])
    (hpiece : piece? single (written ++ rest) = some ⟨word, written.length, false⟩) :
    quotedFrom single (fuel + 1) (between read (written ++ rest)) =
      if (between (read ++ written) rest).next (· = quote single) then
        some (word, (between (read ++ written) rest).advance 1)
      else
        (Gap.read 0 {} (between (read ++ written) rest)).bind fun gap =>
          (quotedFrom single fuel gap.2).map fun answer =>
            (word ++ gap.1.folded ++ answer.1, answer.2) := by
  have hstart : ((between read (written ++ rest)).atDocumentMark ||
      decide ((between read (written ++ rest)).text = [])) = false := by
    simp [atDocumentMark_between hcolumn, hne]
  unfold piece? at hpiece
  rw [quotedFrom, hstart, if_neg Bool.false_ne_true, between_text, hpiece]
  simp only [advance_between hline, Bool.false_eq_true, if_false]
  cases Gap.read 0 {} (between (read ++ written) rest) <;> rfl

/-- The last piece, with the closing quote after it. -/
lemma quotedFrom_last (hcolumn : columnOf read ≠ 0)
    (hline : ∀ c ∈ written, isBreak c = false)
    (hpiece : piece? single (written ++ quote single :: rest) =
      some ⟨word, written.length, false⟩) :
    quotedFrom single (fuel + 1) (between read (written ++ quote single :: rest)) =
      some (word, between (read ++ written ++ [quote single]) rest) := by
  have hbreak : isBreak (quote single) = false := isBreak_of_isSpace (isSpace_quote single)
  rw [quotedFrom_piece hcolumn hline (by simp) hpiece, if_pos (by simp [next]),
    advance_one_between hbreak]

/-- A piece and the gap after it. -/
lemma quotedFrom_more {gap : List Char} (hcolumn : columnOf read ≠ 0)
    (hline : ∀ c ∈ written, isBreak c = false) (hgap : ∀ c ∈ gap, isPrintedSpace c = true)
    (hne : gap ≠ []) (hrest : ∀ c ∈ rest.head?, isSpace c = false)
    (hpiece : piece? single (written ++ (gap ++ rest)) = some ⟨word, written.length, false⟩) :
    quotedFrom single (fuel + 1) (between read (written ++ (gap ++ rest))) =
      (quotedFrom single fuel (between (read ++ written ++ gap) rest)).map fun answer =>
        (word ++ (Gap.ofChars gap).folded ++ answer.1, answer.2) := by
  obtain ⟨first, others, rfl⟩ := List.exists_cons_of_ne_nil hne
  have hspace := isSpace_of_isPrintedSpace (hgap first List.mem_cons_self)
  have hquote : first ≠ quote single := by
    rintro rfl
    rw [isSpace_quote single] at hspace
    cases hspace
  rw [quotedFrom_piece hcolumn hline (by simp) hpiece, if_neg (by simpa [next] using hquote),
    Gap.read_between hgap hrest]
  rfl

/-! ## Single quotes -/

/-- How a character is written between single quotes. -/
def singleChar (c : Char) : List Char := if c = '\'' then ['\'', '\''] else [c]

lemma singlePiece_of_isSpace {c : Char} (h : isSpace c = true) (rest : List Char) :
    singlePiece (c :: rest) = ⟨[], 0, false⟩ := by
  have hquote : c ≠ '\'' := by
    rintro rfl
    revert h
    decide
  rw [singlePiece.eq_def]
  split <;> simp_all

lemma singlePiece_quote (h : rest.head? ≠ some '\'') :
    singlePiece ('\'' :: rest) = ⟨[], 0, false⟩ := by
  cases rest with
  | nil => rfl
  | cons c rest =>
    have hc : c ≠ '\'' := fun heq => h (congrArg some heq)
    simp [singlePiece, hc]

lemma singlePiece_singleChar {c : Char} (h : isSpace c = false) (rest : List Char) :
    singlePiece (singleChar c ++ rest) = (singlePiece rest).cons c (singleChar c).length := by
  by_cases hc : c = '\''
  · subst hc
    rfl
  · have hchar : singleChar c = [c] := if_neg hc
    rw [hchar, List.singleton_append, singlePiece.eq_def]
    split <;> simp_all

/-- A word is one piece. -/
lemma singlePiece_word (hword : ∀ c ∈ word, isSpace c = false)
    (hrest : singlePiece rest = ⟨[], 0, false⟩) :
    singlePiece (word.flatMap singleChar ++ rest) =
      ⟨word, (word.flatMap singleChar).length, false⟩ := by
  induction word with
  | nil => exact hrest
  | cons c word ih =>
    obtain ⟨hc, hword⟩ := List.forall_mem_cons.1 hword
    rw [List.flatMap_cons, List.append_assoc, singlePiece_singleChar hc, ih hword, Piece.cons,
      List.length_append, Nat.add_comm]

/-- What may stand between single quotes as it is, line ends included. -/
structure IsSingle (text : List Char) : Prop where
  printable : ∀ c ∈ text, isPrintable c = true
  newline : '\n' ∉ text
  /-- Spaces and line ends do not stand beside each other. -/
  uniform : text.IsChain fun a b => isSpace a = true → isSpace b = true → isBreak a = isBreak b

lemma IsSingle.of_append {text : List Char} (h : IsSingle (word ++ text)) : IsSingle text where
  printable := fun c hc => h.printable c (List.mem_append_right word hc)
  newline := fun hmem => h.newline (List.mem_append_right word hmem)
  uniform := h.uniform.right_of_append

/-- A gap in such a text is all spaces or all line ends. -/
lemma isBreak_uniform {gap : List Char} (hgap : ∀ c ∈ gap, isSpace c = true)
    (h : gap.IsChain fun a b => isSpace a = true → isSpace b = true → isBreak a = isBreak b) :
    (∀ c ∈ gap, isBreak c = false) ∨ ∀ c ∈ gap, isBreak c = true := by
  induction gap with
  | nil => simp
  | cons a gap ih =>
    obtain ⟨ha, hgap⟩ := List.forall_mem_cons.1 hgap
    have htail := ih hgap (List.isChain_cons.1 h).2
    cases gap with
    | nil => cases hbreak : isBreak a <;> simp [hbreak]
    | cons b gap =>
      have hsame := (List.isChain_cons_cons.1 h).1 ha (hgap b List.mem_cons_self)
      refine htail.imp (fun hall => ?_) (fun hall => ?_)
      all_goals exact List.forall_mem_cons.2 ⟨hsame.trans (hall b List.mem_cons_self), hall⟩

/-- What `allowsSingle` asks for is enough, apart from line feeds. -/
lemma isSingle_of_allowsSingle {text : List Char} (h : allowsSingle text = true)
    (hnewline : '\n' ∉ text) : IsSingle text := by
  simp only [allowsSingle, isClean, Bool.and_eq_true, Bool.not_eq_true', List.all_eq_true] at h
  obtain ⟨⟨hprint, hbefore⟩, hafter⟩ := h
  have hkind : ∀ c ∈ text, isSpace c = true → c = ' ' ∨ isBreak c = true := fun c hc =>
    eq_space_or_isBreak (hprint c hc)
  have hblank : isBreak ' ' = false := by decide
  refine ⟨hprint, hnewline, List.isChain_iff_getElem.2 fun i hi ha hb => ?_⟩
  have hbreakAfter := List.isChain_iff_getElem.1 (hasPair_eq_false_iff.1 hbefore) i hi
  have hspaceAfter := List.isChain_iff_getElem.1 (hasPair_eq_false_iff.1 hafter) i hi
  rcases hkind _ (List.getElem_mem _) ha with hspace | hbreak
  · rw [hbreakAfter (decide_eq_true hspace), hspace, hblank]
  · have hno := of_decide_eq_false (hspaceAfter hbreak)
    rw [hbreak, (hkind _ (List.getElem_mem _) hb).resolve_left hno]

variable {indent : ℕ}

lemma singleBody_append_line (hline : ∀ c ∈ word, isBreak c = false) (text : List Char) :
    singleBody indent false (word ++ text) =
      word.flatMap singleChar ++ singleBody indent false text := by
  induction word with
  | nil => rfl
  | cons c word ih =>
    obtain ⟨hc, hline⟩ := List.forall_mem_cons.1 hline
    simp [singleBody, hc, ih hline, singleChar]

lemma singleBody_append_breaks {gap text : List Char} (hgap : ∀ c ∈ gap, isBreak c = true)
    (hne : gap ≠ []) (htext : ∀ c ∈ text.head?, isBreak c = false) (afterBreak : Bool) :
    singleBody indent afterBreak (gap ++ text) =
      gap ++ (indentation indent ++ singleBody indent false text) := by
  induction gap generalizing afterBreak with
  | nil => exact absurd rfl hne
  | cons c gap ih =>
    obtain ⟨hc, hgap⟩ := List.forall_mem_cons.1 hgap
    by_cases hlast : gap = []
    · subst hlast
      cases text with
      | nil => simp [singleBody, hc]
      | cons d text => simp [singleBody, hc, htext d rfl]
    · simp [singleBody, hc, ih hgap hlast]

/-- What is written between single quotes for a gap before a text: it stands for the gap and does
not end in the first column, where a document mark might be. -/
structure Writes (indent : ℕ) (gap text space : List Char) : Prop where
  body : singleBody indent false (gap ++ text) = space ++ singleBody indent false text
  ne_nil : space ≠ []
  printed : ∀ c ∈ space, isPrintedSpace c = true
  folded : (Gap.ofChars space).folded = gap
  column : ∀ read, columnOf read ≠ 0 → columnOf (read ++ space) ≠ 0

/-- A gap without line ends is written as it is. -/
lemma writes_blanks {gap : List Char} (hgap : ∀ c ∈ gap, isPrintedSpace c = true) (hne : gap ≠ [])
    (hblank : ∀ c ∈ gap, isBreak c = false) (text : List Char) : Writes indent gap text gap where
  body := by
    have hchar : ∀ c ∈ gap, singleChar c = [c] := by
      intro c hc
      refine if_neg ?_
      rintro rfl
      have hspace := hgap _ hc
      revert hspace
      decide
    rw [singleBody_append_line hblank, List.flatMap_congr hchar, List.flatMap_singleton']
  ne_nil := hne
  printed := hgap
  folded := Gap.folded_ofChars_of_blanks hblank
  column := fun read hread => by
    rw [columnOf_append hblank]
    omega

/-- After the line ends of a gap the next line is indented. -/
lemma writes_breaks {gap text : List Char} (hgap : ∀ c ∈ gap, isPrintedSpace c = true)
    (hne : gap ≠ []) (hbreak : ∀ c ∈ gap, isBreak c = true) (hfirst : gap.head? ≠ some '\n')
    (htext : ∀ c ∈ text.head?, isBreak c = false) (hindent : 0 < indent) :
    Writes indent gap text (gap ++ indentation indent) where
  body := by rw [singleBody_append_breaks hbreak hne htext, List.append_assoc]
  ne_nil := by simp [hne]
  printed := List.forall_mem_append.2
    ⟨hgap, isPrintedSpace_of_spaces fun c hc => (List.mem_replicate.1 hc).2⟩
  folded := by
    have hlines : (gap ++ indentation indent).filter isBreak = gap := by
      rw [List.filter_append, List.filter_eq_self.2 hbreak, List.filter_eq_nil_iff.2,
        List.append_nil]
      intro c hc
      simp [isBreak_of_mem_indentation hc]
    exact Gap.folded_ofChars_of_breaks hlines hne hfirst
  column := fun read _ => by
    rw [← List.append_assoc, columnOf_append fun c hc => isBreak_of_mem_indentation hc]
    simp only [indentation, List.length_replicate]
    omega

/-- Something is written for every gap: a gap is of one kind, all blanks or all line ends. -/
lemma exists_writes {gap text : List Char} (h : IsSingle (gap ++ text))
    (hgap : ∀ c ∈ gap, isSpace c = true) (hne : gap ≠ [])
    (htext : ∀ c ∈ text.head?, isSpace c = false)
    (hindent : 0 < indent ∨ ∀ c ∈ gap ++ text, isBreak c = false) :
    ∃ space, Writes indent gap text space := by
  have hprinted : ∀ c ∈ gap, isPrintedSpace c = true := fun c hc =>
    isPrintedSpace_of_isSpace (h.printable c (List.mem_append_left text hc)) (hgap c hc)
  rcases isBreak_uniform hgap h.uniform.left_of_append with hblank | hbreak
  · exact ⟨gap, writes_blanks hprinted hne hblank text⟩
  · have hpos : 0 < indent := by
      refine hindent.resolve_right fun hline => ?_
      obtain ⟨c, hc⟩ := List.exists_mem_of_ne_nil gap hne
      have hno := hline c (List.mem_append_left text hc)
      rw [hbreak c hc] at hno
      cases hno
    have hfirst : gap.head? ≠ some '\n' := fun hhead =>
      h.newline (List.mem_append_left text (List.mem_of_mem_head? hhead))
    exact ⟨gap ++ indentation indent, writes_breaks hprinted hne hbreak hfirst
      (fun c hc => isBreak_of_isSpace (htext c hc)) hpos⟩

lemma isBreak_of_mem_singleChar (hline : ∀ c ∈ word, isBreak c = false) :
    ∀ c ∈ word.flatMap singleChar, isBreak c = false := by
  intro c hc
  obtain ⟨d, hd, hcd⟩ := List.mem_flatMap.1 hc
  unfold singleChar at hcd
  split_ifs at hcd
  · obtain rfl : c = '\'' := by simpa using hcd
    decide
  · obtain rfl := List.mem_singleton.1 hcd
    exact hline c hd

lemma isSpace_of_mem_head?_singleBody {text : List Char}
    (htext : ∀ c ∈ text.head?, isSpace c = false) :
    ∀ c ∈ (singleBody indent false text ++ '\'' :: rest).head?, isSpace c = false := by
  intro d hd
  cases text with
  | nil =>
    obtain rfl : '\'' = d := by simpa [singleBody] using hd
    decide
  | cons c text =>
    have hc := htext c rfl
    have hbreak := isBreak_of_isSpace hc
    by_cases hquote : c = '\''
    · subst hquote
      obtain rfl : '\'' = d := by simpa [singleBody, hbreak] using hd
      decide
    · obtain rfl : c = d := by simpa [singleBody, hbreak, hquote] using hd
      exact hc

/-- A text between single quotes is read back. -/
lemma quotedFrom_singleBody {text : List Char} (htext : IsSingle text)
    (hindent : 0 < indent ∨ ∀ c ∈ text, isBreak c = false) (hfuel : text.length < fuel)
    (hcolumn : columnOf read ≠ 0) (hrest : rest.head? ≠ some '\'') :
    quotedFrom true fuel (between read (singleBody indent false text ++ '\'' :: rest)) =
      some (text, between (read ++ singleBody indent false text ++ ['\'']) rest) := by
  -- From gap to gap: a word is one piece, and a gap is folded back to what it was.
  induction text using wordsInduction isSpace generalizing fuel read with
  | last word hword =>
    obtain ⟨fuel, rfl⟩ := Nat.exists_eq_add_one_of_ne_zero (by omega : fuel ≠ 0)
    have hline : ∀ c ∈ word, isBreak c = false := fun c hc => isBreak_of_isSpace (hword c hc)
    have hbody : singleBody indent false word = word.flatMap singleChar := by
      have happend : singleBody indent false (word ++ []) = _ := singleBody_append_line hline []
      simpa [singleBody] using happend
    have hpiece := singlePiece_word hword (singlePiece_quote hrest)
    rw [hbody]
    exact quotedFrom_last hcolumn (isBreak_of_mem_singleChar hline) (congrArg some hpiece)
  | more word gap text hword hne hgap hhead ih =>
    obtain ⟨fuel, rfl⟩ := Nat.exists_eq_add_one_of_ne_zero (by omega : fuel ≠ 0)
    have hline : ∀ c ∈ word, isBreak c = false := fun c hc => isBreak_of_isSpace (hword c hc)
    have hafter := hindent.imp_right fun h => (List.forall_mem_append.1 h).2
    obtain ⟨space, hspace⟩ := exists_writes htext.of_append hgap hne hhead hafter
    have hwritten := isBreak_of_mem_singleChar hline
    have hpos : columnOf (read ++ word.flatMap singleChar) ≠ 0 := by
      rw [columnOf_append hwritten]
      omega
    have hpiece : piece? true (word.flatMap singleChar ++
        (space ++ (singleBody indent false text ++ '\'' :: rest))) =
          some ⟨word, (word.flatMap singleChar).length, false⟩ := by
      obtain ⟨first, others, rfl⟩ := List.exists_cons_of_ne_nil hspace.ne_nil
      exact congrArg some (singlePiece_word hword (singlePiece_of_isSpace
        (isSpace_of_isPrintedSpace (hspace.printed first List.mem_cons_self)) _))
    have hlength : text.length < fuel := by
      have hgapLength := List.length_pos_of_ne_nil hne
      simp only [List.length_append] at hfuel
      omega
    have hnext := ih htext.of_append.of_append (hafter.imp_right fun h =>
      (List.forall_mem_append.1 h).2) hlength (hspace.column _ hpos)
    rw [singleBody_append_line hline, hspace.body, List.append_assoc, List.append_assoc,
      quotedFrom_more hcolumn hwritten hspace.printed hspace.ne_nil
        (isSpace_of_mem_head?_singleBody hhead) hpiece, hnext, hspace.folded]
    simp

lemma length_le_length_singleBody (indent : ℕ) (afterBreak : Bool) (text : List Char) :
    text.length ≤ (singleBody indent afterBreak text).length := by
  induction text generalizing afterBreak with
  | nil => simp
  | cons c text ih =>
    have htrue := ih true
    have hfalse := ih false
    unfold singleBody
    split_ifs <;> simp only [List.length_cons, List.length_append, List.length_nil] <;> omega

lemma quoted?_single {text : List Char} (htext : IsSingle text)
    (hindent : 0 < indent ∨ ∀ c ∈ text, isBreak c = false) (hrest : rest.head? ≠ some '\'') :
    quoted? true (between read ('\'' :: (singleBody indent false text ++ '\'' :: rest))) =
      some (text, between (read ++ '\'' :: (singleBody indent false text ++ ['\''])) rest) := by
  have hopen : isBreak '\'' = false := by decide
  have hfuel : text.length <
      (read ++ '\'' :: (singleBody indent false text ++ '\'' :: rest)).length + 1 := by
    have hgrows := length_le_length_singleBody indent false text
    simp only [List.length_append, List.length_cons]
    omega
  have hcolumn : columnOf (read ++ ['\'']) ≠ 0 := by
    rw [columnOf_append (by simpa using hopen)]
    simp
  rw [quoted?, between_size, advance_one_between hopen,
    quotedFrom_singleBody htext hindent hfuel hcolumn hrest]
  simp

/-! ## Hexadecimal digits -/

lemma hexValue?_upper : ∀ n < 16, hexValue? (Nat.digitChar n).toUpper = some n := by decide

lemma hexNumber?_toDigits (n : ℕ) :
    hexNumber? ((Nat.toDigits 16 n).map Char.toUpper) = some n := by
  induction n using Nat.strongRecOn with
  | ind n ih =>
    rw [Nat.toDigits_eq_if (by decide)]
    split_ifs with hsmall
    · simp [hexNumber?, hexValue?_upper n hsmall]
    · have hhigh := ih (n / 16) (by omega)
      have hlow := hexValue?_upper (n % 16) (by omega)
      unfold hexNumber? at hhigh ⊢
      rw [List.map_append, List.foldlM_append, hhigh]
      simp only [List.map_cons, List.map_nil, List.foldlM_cons, List.foldlM_nil, hlow]
      exact congrArg some (by simp only; omega)

lemma hexNumber?_hexText (width n : ℕ) : hexNumber? (hexText width n) = some n := by
  have hzero (count : ℕ) : hexNumber? (List.replicate count '0') = some 0 := by
    induction count with
    | zero => rfl
    | succ count ih => exact ih
  have hpad := hzero (width - ((Nat.toDigits 16 n).map Char.toUpper).length)
  have hdigits := hexNumber?_toDigits n
  unfold hexNumber? at hpad hdigits ⊢
  rw [hexText, List.foldlM_append, hpad]
  exact hdigits

lemma length_hexText {width n : ℕ} (hwidth : 0 < width) (h : n < 16 ^ width) :
    (hexText width n).length = width := by
  have hle := (Nat.length_toDigits_le_iff (by decide) hwidth).2 h
  simp only [hexText, List.length_append, List.length_replicate, List.length_map]
  omega

lemma forall_mem_toDigits {P : Char → Prop} {radix : ℕ} (hradix : 1 < radix)
    (h : ∀ d < radix, P (Nat.digitChar d)) (n : ℕ) : ∀ c ∈ Nat.toDigits radix n, P c := by
  induction n using Nat.strongRecOn with
  | ind n ih =>
    rw [Nat.toDigits_eq_if hradix]
    split_ifs with hsmall
    · exact List.forall_mem_singleton.2 (h n hsmall)
    · exact List.forall_mem_append.2 ⟨ih (n / radix) (Nat.div_lt_self (by omega) hradix),
        List.forall_mem_singleton.2 (h (n % radix) (Nat.mod_lt n (by omega)))⟩

/-- A character that escapes are spelled with: it is written as itself and takes one octet. -/
def IsSpelling (c : Char) : Prop := isPrintable c = true ∧ isBreak c = false ∧ c.utf8Size = 1

instance (c : Char) : Decidable (IsSpelling c) :=
  inferInstanceAs (Decidable (isPrintable c = true ∧ isBreak c = false ∧ c.utf8Size = 1))

lemma isSpelling_of_mem_hexText {width n : ℕ} {c : Char} (h : c ∈ hexText width n) :
    IsSpelling c := by
  have hdigit : ∀ d < 16, IsSpelling (Nat.digitChar d).toUpper := by decide
  rcases List.mem_append.1 h with hzero | hmem
  · rw [(List.mem_replicate.1 hzero).2]
    decide
  · obtain ⟨d, hd, rfl⟩ := List.mem_map.1 hmem
    have hall : ∀ c ∈ Nat.toDigits 16 n, IsSpelling c.toUpper :=
      forall_mem_toDigits (by decide) hdigit n
    exact hall d hd

lemma charOfHex?_hexText (width : ℕ) (c : Char) : charOfHex? (hexText width c.toNat) = some c := by
  have hvalid : c.toNat.isValidChar := c.valid
  rw [charOfHex?, hexNumber?_hexText]
  simp only [if_pos hvalid, Char.ofNat_toNat]

/-! ## Double quotes -/

/-- The letter of an escape stands for the character, and no other escape begins with it. -/
lemma escaped?_escapeLetter? {c letter : Char} (h : escapeLetter? c = some letter) :
    escaped? letter = some c ∧ IsSpelling letter ∧ letter ∉ ['x', 'u', 'U'] := by
  unfold escapeLetter? at h
  split at h
  case h_16 => cases h
  all_goals
    rename_i hcode
    obtain rfl := Option.some.inj h
    obtain rfl : c = Char.ofNat _ := hcode ▸ (Char.ofNat_toNat c).symm
    decide

lemma doublePiece_escape {letter c : Char} (hescape : escaped? letter = some c)
    (hbreak : isBreak letter = false) (hletter : letter ∉ ['x', 'u', 'U']) (rest : List Char) :
    doublePiece ('\\' :: letter :: rest) = (doublePiece rest).map (·.cons c 2) := by
  simp only [List.mem_cons, List.not_mem_nil, or_false, not_or] at hletter
  obtain ⟨hx, hu, hU⟩ := hletter
  cases hrest : doublePiece rest <;> simp [doublePiece, hx, hu, hU, hbreak, hescape, hrest]

lemma doublePiece_hex_two {digits : List Char} (h : digits.length = 2) {c : Char}
    (hdigits : charOfHex? digits = some c) (rest : List Char) :
    doublePiece ('\\' :: 'x' :: (digits ++ rest)) = (doublePiece rest).map (·.cons c 4) := by
  match digits, h with
  | [a, b], _ =>
    simp only [List.cons_append, List.nil_append, doublePiece, hdigits]
    cases doublePiece rest <;> rfl

lemma doublePiece_hex_four {digits : List Char} (h : digits.length = 4) {c : Char}
    (hdigits : charOfHex? digits = some c) (rest : List Char) :
    doublePiece ('\\' :: 'u' :: (digits ++ rest)) = (doublePiece rest).map (·.cons c 6) := by
  match digits, h with
  | [a₁, a₂, a₃, a₄], _ =>
    simp only [List.cons_append, List.nil_append, doublePiece, hdigits]
    cases doublePiece rest <;> rfl

lemma doublePiece_hex_eight {digits : List Char} (h : digits.length = 8) {c : Char}
    (hdigits : charOfHex? digits = some c) (rest : List Char) :
    doublePiece ('\\' :: 'U' :: (digits ++ rest)) = (doublePiece rest).map (·.cons c 10) := by
  match digits, h with
  | [a₁, a₂, a₃, a₄, a₅, a₆, a₇, a₈], _ =>
    simp only [List.cons_append, List.nil_append, doublePiece, hdigits]
    cases doublePiece rest <;> rfl

lemma doublePiece_plain {c : Char} (hspace : isSpace c = false) (hquote : c ≠ '"')
    (hslash : c ≠ '\\') (rest : List Char) :
    doublePiece (c :: rest) = (doublePiece rest).map (·.cons c 1) := by
  rw [doublePiece.eq_def]
  split <;> simp_all

lemma toNat_lt (c : Char) : c.toNat < 0x110000 := by
  rcases c.valid with h | h
  · exact h.trans (by decide)
  · exact h.2

/-- What is written for a character other than a space belongs to a piece. -/
lemma doublePiece_doubleChar {c : Char} (hc : c ≠ ' ') (rest : List Char) :
    doublePiece (doubleChar c ++ rest) =
      (doublePiece rest).map (·.cons c (doubleChar c).length) := by
  unfold doubleChar
  split_ifs with hraw
  · simp only [Bool.and_eq_true, Bool.not_eq_true', decide_eq_true_eq] at hraw
    obtain ⟨⟨⟨hprint, hbreak⟩, hquote⟩, hslash⟩ := hraw
    exact doublePiece_plain (isSpace_of_ne_space hprint hbreak hc) hquote hslash rest
  · cases hletter : escapeLetter? c with
    | some letter =>
      obtain ⟨hescape, hspelling, hother⟩ := escaped?_escapeLetter? hletter
      exact doublePiece_escape hescape hspelling.2.1 hother rest
    | none =>
      have hsize := toNat_lt c
      have hchar (width : ℕ) := charOfHex?_hexText width c
      simp only
      split_ifs with htwo hfour
      · have hlength : (hexText 2 c.toNat).length = 2 := length_hexText (by decide) (by omega)
        simpa [hlength] using doublePiece_hex_two hlength (hchar 2) rest
      · have hlength : (hexText 4 c.toNat).length = 4 := length_hexText (by decide) (by omega)
        simpa [hlength] using doublePiece_hex_four hlength (hchar 4) rest
      · have hlength : (hexText 8 c.toNat).length = 8 := length_hexText (by decide) (by omega)
        simpa [hlength] using doublePiece_hex_eight hlength (hchar 8) rest

/-- A word is one piece. -/
lemma doublePiece_word (hword : ∀ c ∈ word, c ≠ ' ')
    (hrest : doublePiece rest = some ⟨[], 0, false⟩) :
    doublePiece (word.flatMap doubleChar ++ rest) =
      some ⟨word, (word.flatMap doubleChar).length, false⟩ := by
  induction word with
  | nil => exact hrest
  | cons c word ih =>
    obtain ⟨hc, hword⟩ := List.forall_mem_cons.1 hword
    rw [List.flatMap_cons, List.append_assoc, doublePiece_doubleChar hc, ih hword, Option.map_some,
      Piece.cons, List.length_append, Nat.add_comm]

/-- A character is spelled with a mark and as many digits as the mark announces. -/
lemma isSpelling_hexText {c mark : Char} {width : ℕ} (hmark : IsSpelling mark) (hwidth : 0 < width)
    (hlt : c.toNat < 16 ^ width) (hsize : width + 2 ≤ 4 * c.utf8Size) :
    (∀ d ∈ '\\' :: mark :: hexText width c.toNat, IsSpelling d) ∧
      ('\\' :: mark :: hexText width c.toNat).length ≤ 4 * c.utf8Size := by
  have hslash : IsSpelling '\\' := by decide
  have hdigits : ∀ d ∈ hexText width c.toNat, IsSpelling d :=
    fun d hd => isSpelling_of_mem_hexText hd
  refine ⟨by simpa [hslash, hmark] using hdigits, ?_⟩
  rwa [List.length_cons, List.length_cons, length_hexText hwidth hlt]

/-- A character between double quotes is written as itself or spelled out. -/
lemma doubleChar_cases (c : Char) :
    (doubleChar c = [c] ∧ isPrintable c = true ∧ isBreak c = false) ∨
      ((∀ d ∈ doubleChar c, IsSpelling d) ∧ (doubleChar c).length ≤ 4 * c.utf8Size) := by
  have hslash : IsSpelling '\\' := by decide
  have hmarks : IsSpelling 'x' ∧ IsSpelling 'u' ∧ IsSpelling 'U' := by decide
  have hpos := c.utf8Size_pos
  unfold doubleChar
  split_ifs with hraw
  · simp only [Bool.and_eq_true, Bool.not_eq_true'] at hraw
    exact .inl ⟨rfl, hraw.1.1⟩
  right
  cases hletter : escapeLetter? c with
  | some letter =>
    refine ⟨?_, by simp only [List.length_cons, List.length_nil]; omega⟩
    simpa using ⟨hslash, (escaped?_escapeLetter? hletter).2.1⟩
  | none =>
    have hsize := toNat_lt c
    simp only
    -- The more digits are needed, the more octets the character itself has.
    split_ifs with htwo hfour
    · exact isSpelling_hexText hmarks.1 (by decide) (by omega) (by omega)
    · have hlarge : c.utf8Size ≠ 1 := by
        rw [Ne, Char.utf8Size_eq_one_iff, UInt32.le_iff_toNat_le]
        exact fun hle => htwo (hle.trans (by decide))
      exact isSpelling_hexText hmarks.2.1 (by decide) (by omega) (by omega)
    · have hlarge : c.utf8Size = 4 := by
        rw [Char.utf8Size_eq_four_iff, UInt32.lt_iff_toNat_lt]
        exact Nat.lt_of_not_le hfour
      exact isSpelling_hexText hmarks.2.2 (by decide) (by omega) (by omega)

/-- Everything between double quotes is written as itself on one line. -/
lemma isPrintable_of_mem_doubleChar {c d : Char} (h : d ∈ doubleChar c) :
    isPrintable d = true ∧ isBreak d = false := by
  rcases doubleChar_cases c with ⟨heq, hplain⟩ | ⟨hspelled, -⟩
  · rw [heq] at h
    obtain rfl := List.mem_singleton.1 h
    exact hplain
  · exact ⟨(hspelled d h).1, (hspelled d h).2.1⟩

/-- What is written for a character other than a space does not begin with one. -/
lemma exists_doubleChar_eq_cons {c : Char} (hc : c ≠ ' ') :
    ∃ first others, doubleChar c = first :: others ∧ isSpace first = false := by
  have hslash : isSpace '\\' = false := by decide
  unfold doubleChar
  split_ifs with hraw
  · simp only [Bool.and_eq_true, Bool.not_eq_true'] at hraw
    exact ⟨c, [], rfl, isSpace_of_ne_space hraw.1.1.1 hraw.1.1.2 hc⟩
  · cases escapeLetter? c with
    | some letter => exact ⟨_, _, rfl, hslash⟩
    | none =>
      simp only
      split_ifs <;> exact ⟨_, _, rfl, hslash⟩

lemma isBreak_of_mem_doubleText (word : List Char) :
    ∀ d ∈ word.flatMap doubleChar, isBreak d = false := by
  intro d hd
  obtain ⟨c, -, hdc⟩ := List.mem_flatMap.1 hd
  exact (isPrintable_of_mem_doubleChar hdc).2

lemma flatMap_doubleChar_of_spaces {gap : List Char} (hgap : ∀ c ∈ gap, c = ' ') :
    gap.flatMap doubleChar = gap := by
  have hchar : ∀ c ∈ gap, doubleChar c = [c] := by
    intro c hc
    rw [hgap c hc]
    decide
  rw [List.flatMap_congr hchar, List.flatMap_singleton']

/-- A gap ends where the next word is spelled, or at the closing quote. -/
lemma isSpace_of_mem_head?_doubleText {text : List Char} (htext : ∀ c ∈ text.head?, c ≠ ' ') :
    ∀ c ∈ (text.flatMap doubleChar ++ '"' :: rest).head?, isSpace c = false := by
  intro d hd
  cases text with
  | nil =>
    obtain rfl : '"' = d := by simpa using hd
    decide
  | cons c text =>
    obtain ⟨first, others, heq, hfirst⟩ := exists_doubleChar_eq_cons (htext c rfl)
    obtain rfl : first = d := by simpa [heq] using hd
    exact hfirst

/-- A text between double quotes is read back. -/
lemma quotedFrom_doubleBody {text : List Char} (hfuel : text.length < fuel)
    (hcolumn : columnOf read ≠ 0) :
    quotedFrom false fuel (between read (text.flatMap doubleChar ++ '"' :: rest)) =
      some (text, between (read ++ text.flatMap doubleChar ++ ['"']) rest) := by
  have hline := isBreak_of_mem_doubleText
  -- Every break is spelled, so the words are those between spaces, and a gap is folded to itself.
  induction text using wordsInduction (· = ' ') generalizing fuel read with
  | last word hword =>
    obtain ⟨fuel, rfl⟩ := Nat.exists_eq_add_one_of_ne_zero (by omega : fuel ≠ 0)
    have hpiece : doublePiece (word.flatMap doubleChar ++ '"' :: rest) = _ :=
      doublePiece_word (by simpa using hword) rfl
    exact quotedFrom_last hcolumn (hline word) hpiece
  | more word gap text hword hne hgap hhead ih =>
    obtain ⟨fuel, rfl⟩ := Nat.exists_eq_add_one_of_ne_zero (by omega : fuel ≠ 0)
    have hspace : ∀ c ∈ gap, c = ' ' := by simpa using hgap
    have hblank := isBreak_of_spaces hspace
    have hpiece : piece? false (word.flatMap doubleChar ++
        (gap ++ (text.flatMap doubleChar ++ '"' :: rest))) =
          some ⟨word, (word.flatMap doubleChar).length, false⟩ := by
      refine doublePiece_word (by simpa using hword) ?_
      obtain ⟨first, others, rfl⟩ := List.exists_cons_of_ne_nil hne
      rw [hspace first List.mem_cons_self]
      rfl
    have hstop : ∀ c ∈ (text.flatMap doubleChar ++ '"' :: rest).head?, isSpace c = false :=
      isSpace_of_mem_head?_doubleText (by simpa using hhead)
    have hlength : text.length < fuel := by
      have hgapLength := List.length_pos_of_ne_nil hne
      simp only [List.length_append] at hfuel
      omega
    have hpos : columnOf (read ++ word.flatMap doubleChar ++ gap) ≠ 0 := by
      rw [columnOf_append hblank, columnOf_append (hline word)]
      omega
    rw [List.flatMap_append, List.flatMap_append, flatMap_doubleChar_of_spaces hspace,
      List.append_assoc, List.append_assoc,
      quotedFrom_more hcolumn (hline word) (isPrintedSpace_of_spaces hspace) hne hstop hpiece,
      ih hlength hpos, Gap.folded_ofChars_of_blanks hblank]
    simp

lemma quoted?_double (text : List Char) :
    quoted? false (between read ('"' :: (text.flatMap doubleChar ++ '"' :: rest))) =
      some (text, between (read ++ '"' :: (text.flatMap doubleChar ++ ['"'])) rest) := by
  have hopen : isBreak '"' = false := by decide
  have hgrows : text.length ≤ (text.flatMap doubleChar).length := by
    induction text with
    | nil => simp
    | cons c text ih =>
      have hpos : 0 < (doubleChar c).length := by
        by_cases hc : c = ' '
        · subst hc
          decide
        · obtain ⟨first, others, heq, -⟩ := exists_doubleChar_eq_cons hc
          simp [heq]
      simp only [List.flatMap_cons, List.length_append, List.length_cons]
      omega
  have hfuel : text.length <
      (read ++ '"' :: (text.flatMap doubleChar ++ '"' :: rest)).length + 1 := by
    simp only [List.length_append, List.length_cons]
    omega
  have hcolumn : columnOf (read ++ ['"']) ≠ 0 := by
    rw [columnOf_append (by simpa using hopen)]
    simp
  rw [quoted?, between_size, advance_one_between hopen, quotedFrom_doubleBody hfuel hcolumn]
  simp

end Scalar

end Yaml

end SiblingQuery
