import SiblingQuery.Proofs.YamlQuoted

/-!
# Plain scalars and literal blocks read back

A plain scalar ends where a line ends that is followed by something further to the left, or at a
colon before a blank.  Within a printed text neither happens, because of what `allowsPlain` asks of
it (`IsPlain`), so the pieces are read one after another up to the end of the text.

A literal block is told from what follows it by indentation.  Its text is a core and the line ends
at its tail; the header says what is to become of these, and that is where it matters what follows:
a block whose header keeps line ends takes in all that come next.
-/

namespace SiblingQuery

namespace Yaml

namespace Scalar

open Cursor Quoting

variable {read word text rest : List Char}

/-! ## Plain pieces -/

/-- What is asked of a plain text apart from how it begins. -/
structure IsPlain (text : List Char) : Prop where
  /-- The only blanks are spaces. -/
  space : ∀ c ∈ text, isSpace c = true → c = ' '
  colon : hasFinalColon text = false
  hash : text.IsChain fun a b => isSpace a = true → b ≠ '#'
  ends : text.getLast? ≠ some ' '

lemma hasFinalColon_of_append {text : List Char} (h : hasFinalColon (word ++ text) = false) :
    hasFinalColon text = false := by
  induction word with
  | nil => exact h
  | cons c word ih => exact ih (Bool.or_eq_false_iff.1 h).2

lemma hasFinalColon_of_gap {gap : List Char} (hgap : ∀ c ∈ gap.head?, isSpace c = true)
    (h : hasFinalColon (word ++ gap) = false) : hasFinalColon word = false := by
  induction word with
  | nil => rfl
  | cons c word ih =>
    obtain ⟨hfinal, hcolon⟩ := Bool.or_eq_false_iff.1 h
    refine Bool.or_eq_false_iff.2 ⟨?_, ih hcolon⟩
    cases word with
    | nil =>
      have hbefore : beforeGap gap = true := by
        cases gap with
        | nil => rfl
        | cons d gap => simp [beforeGap, isGap, hgap d rfl]
      have hno : (decide (c = ':') && beforeGap gap) = false := hfinal
      rw [hbefore] at hno
      exact hno
    | cons d word => exact hfinal

lemma IsPlain.of_append (h : IsPlain (word ++ text)) (hne : text ≠ []) : IsPlain text where
  space := fun c hc => h.space c (List.mem_append_right word hc)
  colon := hasFinalColon_of_append h.colon
  hash := h.hash.right_of_append
  ends := by
    have hends := h.ends
    rwa [List.getLast?_append_of_ne_nil word hne] at hends

/-- A gap in a plain text is of spaces, and stands between two words: what follows it is plain again
and begins like no comment. -/
lemma IsPlain.of_words {space : List Char} (h : IsPlain (word ++ (space ++ text)))
    (hne : space ≠ []) (hspace : ∀ c ∈ space, isSpace c = true)
    (hafter : ∀ c ∈ text.head?, isSpace c = false) :
    (∀ c ∈ space, c = ' ') ∧ text ≠ [] ∧ hasFinalColon word = false ∧
      (∀ c ∈ text.head?, isSpace c = false ∧ c ≠ '#') ∧ IsPlain text := by
  have hblank : ∀ c ∈ space, c = ' ' := fun c hc => h.space c (by simp [hc]) (hspace c hc)
  have hlast : space.getLast? = some (space.getLast hne) := List.getLast?_eq_some_getLast hne
  have htext : text ≠ [] := by
    rintro rfl
    refine h.ends ?_
    rw [List.append_nil, List.getLast?_append_of_ne_nil word hne, hlast,
      hblank _ (List.getLast_mem hne)]
  refine ⟨hblank, htext, hasFinalColon_of_gap (fun c hc => ?_) h.colon, fun c hc => ?_,
    (h.of_append (by simp [htext])).of_append htext⟩
  · rw [List.head?_append_of_ne_nil space hne] at hc
    exact hspace c (List.mem_of_mem_head? hc)
  · have hchain := List.isChain_append.1 h.hash.right_of_append
    exact ⟨hafter c hc, hchain.2.2 _ hlast c hc (hspace _ (List.getLast_mem hne))⟩

/-- What `allowsPlain` asks for is enough. -/
lemma isPlain_of_allowsPlain {text : List Char} (h : allowsPlain text = true) : IsPlain text := by
  simp only [allowsPlain, isClean, Bool.and_eq_true, Bool.not_eq_true', List.all_eq_true,
    hasIndicator, Bool.or_eq_false_iff] at h
  obtain ⟨⟨⟨⟨⟨hprint, -⟩, hline⟩, ⟨-, hcolon⟩, hhash⟩, -⟩, hends⟩ := h
  refine ⟨fun c hc hspace => ?_, hcolon, ?_, fun hlast => ?_⟩
  · exact (eq_space_or_isBreak (hprint c hc) hspace).resolve_right (List.any_eq_false.1 hline c hc)
  · refine (hasPair_eq_false_iff.1 hhash).imp fun a b hpair hspace => ?_
    exact of_decide_eq_false (hpair (Bool.or_eq_true_iff.2 (.inl hspace)))
  · rw [← List.head?_reverse] at hlast
    obtain ⟨others, hreverse⟩ := List.head?_eq_some_iff.1 hlast
    simp [endsWith, hreverse, beginsWith] at hends

/-- A plain text begins with neither a blank nor an indicator. -/
lemma head?_of_allowsPlain {text : List Char} (h : allowsPlain text = true) :
    beginsWithIndicator text = false ∧ ∀ c ∈ text.head?, isSpace c = false ∧ c ≠ '#' := by
  have hplain := isPlain_of_allowsPlain h
  simp only [allowsPlain, Bool.and_eq_true, Bool.not_eq_true', hasIndicator,
    Bool.or_eq_false_iff] at h
  obtain ⟨⟨⟨-, ⟨hindicator, -⟩, -⟩, hbegins⟩, -⟩ := h
  refine ⟨hindicator, fun c hc => ?_⟩
  cases text with
  | nil => cases hc
  | cons d text =>
    obtain rfl := Option.some.inj hc
    refine ⟨?_, ?_⟩
    · by_contra hspace
      have heq := hplain.space d List.mem_cons_self (Bool.not_eq_false _ ▸ hspace)
      exact of_decide_eq_false hbegins heq
    · rintro rfl
      revert hindicator
      simp [beginsWithIndicator]

/-- The piece of a plain scalar ends before a blank and before a colon with a blank after it. -/
def StopsPiece (rest : List Char) : Prop := plainPiece false rest = some []

lemma stopsPiece_of_isSpace {c : Char} (h : isSpace c = true) (rest : List Char) :
    StopsPiece (c :: rest) := by
  simp [StopsPiece, plainPiece, h]

lemma stopsPiece_colon {c : Char} (h : isSpace c = true) (rest : List Char) :
    StopsPiece (':' :: c :: rest) := by
  have hcolon : isSpace ':' = false := by decide
  simp [StopsPiece, plainPiece, h, hcolon]

/-- A word without a colon at its end is one piece. -/
lemma plainPiece_word (hword : ∀ c ∈ word, isSpace c = false) (hcolon : hasFinalColon word = false)
    (hrest : StopsPiece rest) : plainPiece false (word ++ rest) = some word := by
  induction word with
  | nil => exact hrest
  | cons c word ih =>
    obtain ⟨hc, hword⟩ := List.forall_mem_cons.1 hword
    obtain ⟨hfinal, hcolon⟩ := Bool.or_eq_false_iff.1 hcolon
    cases word with
    | nil =>
      have hne : c ≠ ':' := by simpa [beforeGap] using hfinal
      have hrest : plainPiece false rest = some [] := hrest
      simp [plainPiece, hc, hne, hrest]
    | cons d word =>
      have hnext := ih hword hcolon
      simp only [List.cons_append] at hnext
      simp [plainPiece.eq_2, hc, hword d List.mem_cons_self, hnext]

/-! ## Plain scalars -/

/-- What is read after a piece of a plain scalar, outside brackets. -/
def afterPiece (margin fuel : ℕ) (c : Cursor) : Option Plain :=
  if !c.next isSpace then some ⟨[], c, false⟩
  else
    match Gap.read margin {} c with
    | none => none
    | some (gap, c) =>
      if c.column < margin then some ⟨[], c, gap.broken⟩ else plainFrom false margin fuel gap c

variable {margin fuel : ℕ}

/-- A piece is read, and then what comes after it. -/
lemma plainFrom_piece (hne : word ≠ []) (hhash : word.head? ≠ some '#')
    (hline : ∀ c ∈ word, isBreak c = false) (hcolumn : columnOf read ≠ 0)
    (hpiece : plainPiece false (word ++ rest) = some word) (gap : Gap) :
    plainFrom false margin (fuel + 1) gap (between read (word ++ rest)) =
      (afterPiece margin fuel (between (read ++ word) rest)).map
        (Plain.append (gap.folded ++ word)) := by
  obtain ⟨c, others, rfl⟩ := List.exists_cons_of_ne_nil hne
  have hstart : ((between read (c :: others ++ rest)).atDocumentMark ||
      (between read (c :: others ++ rest)).next (· = '#')) = false := by
    have hc : c ≠ '#' := fun heq => hhash (congrArg some heq)
    simp [atDocumentMark_between hcolumn, next, hc]
  rw [plainFrom, hstart, if_neg Bool.false_ne_true, between_text, hpiece]
  simp only [advance_between hline, Bool.not_false, Bool.true_and, decide_eq_true_eq]
  rfl

/-- The rest of a line is blank, and the next line is further to the left. -/
lemma afterPiece_line {gap : List Char} (hgap : ∀ c ∈ gap, isPrintedSpace c = true)
    (hbreak : gap.any isBreak = true) (hrest : ∀ c ∈ rest.head?, isSpace c = false)
    (hcolumn : columnOf (read ++ gap) < margin) :
    afterPiece margin fuel (between read (gap ++ rest)) =
      some ⟨[], between (read ++ gap) rest, true⟩ := by
  have hnext : (between read (gap ++ rest)).next isSpace = true := by
    cases gap with
    | nil => cases hbreak
    | cons c gap => exact isSpace_of_isPrintedSpace (hgap c List.mem_cons_self)
  have hbroken : (Gap.ofChars gap).broken = true := hbreak
  rw [afterPiece, hnext, Bool.not_true, if_neg Bool.false_ne_true, Gap.read_between hgap hrest]
  simp only [between_column, if_pos hcolumn, hbroken]

lemma afterPiece_colon (rest : List Char) :
    afterPiece margin fuel (between read (':' :: rest)) =
      some ⟨[], between read (':' :: rest), false⟩ := by
  rfl

/-- More of the text is on the same line. -/
lemma afterPiece_blanks {gap : List Char} (hgap : ∀ c ∈ gap, c = ' ') (hne : gap ≠ [])
    (hrest : ∀ c ∈ rest.head?, isSpace c = false) (hcolumn : margin ≤ columnOf (read ++ gap)) :
    afterPiece margin fuel (between read (gap ++ rest)) =
      plainFrom false margin fuel (Gap.ofChars gap) (between (read ++ gap) rest) := by
  have hprinted := isPrintedSpace_of_spaces hgap
  have hnext : (between read (gap ++ rest)).next isSpace = true := by
    obtain ⟨c, others, rfl⟩ := List.exists_cons_of_ne_nil hne
    exact isSpace_of_isPrintedSpace (hprinted c List.mem_cons_self)
  rw [afterPiece, hnext, Bool.not_true, if_neg Bool.false_ne_true,
    Gap.read_between hprinted hrest]
  exact if_neg (Nat.not_lt.2 hcolumn)

/-- A plain text is read up to its end, wherever what follows ends it. -/
lemma plainFrom_text {plain : Plain} (htext : IsPlain text) (hne : text ≠ [])
    (hhead : ∀ c ∈ text.head?, isSpace c = false ∧ c ≠ '#') (hfuel : text.length < fuel)
    (hcolumn : columnOf read ≠ 0) (hmargin : margin ≤ columnOf read + 1)
    (hstops : StopsPiece rest)
    (hend : ∀ fuel, afterPiece margin fuel (between (read ++ text) rest) = some plain) (gap : Gap) :
    plainFrom false margin fuel gap (between read (text ++ rest)) =
      some (plain.append (gap.folded ++ text)) := by
  -- From word to word: the gaps are single lines, since a plain text has no line ends.
  induction text using wordsInduction isSpace generalizing fuel read gap with
  | last word hword =>
    obtain ⟨fuel, rfl⟩ := Nat.exists_eq_add_one_of_ne_zero (by omega : fuel ≠ 0)
    have hline : ∀ c ∈ word, isBreak c = false := fun c hc => isBreak_of_isSpace (hword c hc)
    have hhash : word.head? ≠ some '#' := fun heq => (hhead '#' heq).2 rfl
    rw [plainFrom_piece hne hhash hline hcolumn (plainPiece_word hword htext.colon hstops),
      hend fuel, Option.map_some]
  | more word space text hword hspaceNe hspace hafter ih =>
    obtain ⟨fuel, rfl⟩ := Nat.exists_eq_add_one_of_ne_zero (by omega : fuel ≠ 0)
    have hline : ∀ c ∈ word, isBreak c = false := fun c hc => isBreak_of_isSpace (hword c hc)
    obtain ⟨first, others, hfirst⟩ := List.exists_cons_of_ne_nil hspaceNe
    have hfirstSpace : isSpace first = true := hspace first (hfirst ▸ List.mem_cons_self)
    obtain ⟨hblank, htextNe, hwordColon, hnextHead, hplain⟩ :=
      htext.of_words hspaceNe hspace hafter
    have hspaceLine := isBreak_of_spaces hblank
    have hwordNe : word ≠ [] := by
      rintro rfl
      have hno := (hhead first (by simp [hfirst])).1
      rw [hfirstSpace] at hno
      cases hno
    have hhash : word.head? ≠ some '#' := by
      obtain ⟨c, word, rfl⟩ := List.exists_cons_of_ne_nil hwordNe
      exact fun heq => (hhead c (by simp)).2 (Option.some.inj heq)
    have hstop : StopsPiece (space ++ (text ++ rest)) := by
      rw [hfirst]
      exact stopsPiece_of_isSpace hfirstSpace _
    have htail : ∀ c ∈ (text ++ rest).head?, isSpace c = false := by
      obtain ⟨c, text, rfl⟩ := List.exists_cons_of_ne_nil htextNe
      exact hafter
    have hcolumnAfter : columnOf (read ++ word ++ space) =
        columnOf read + word.length + space.length := by
      rw [columnOf_append hspaceLine, columnOf_append hline]
    have hwordLength := List.length_pos_of_ne_nil hwordNe
    have hlength : text.length < fuel := by
      simp only [List.length_append] at hfuel
      omega
    rw [← List.append_assoc, ← List.append_assoc] at hend
    have hnext := ih hplain htextNe hnextHead hlength (by omega) (by omega) hend
      (Gap.ofChars space)
    rw [List.append_assoc, List.append_assoc,
      plainFrom_piece hwordNe hhash hline hcolumn (plainPiece_word hword hwordColon hstop),
      afterPiece_blanks hblank hspaceNe htail (by omega), hnext,
      Gap.folded_ofChars_of_blanks hspaceLine]
    simp [Plain.append]

variable {c : Char}

/-- A plain text that is followed by the end of its line, and by nothing in its own column. -/
lemma plain?_line {gap : List Char} (htext : allowsPlain text = true) (hne : text ≠ [])
    (hcolumn : columnOf read ≠ 0) (hmargin : margin ≤ columnOf read + 1)
    (hgap : ∀ c ∈ gap, isPrintedSpace c = true) (hbreak : gap.any isBreak = true)
    (hrest : ∀ c ∈ rest.head?, isSpace c = false)
    (hleft : columnOf (read ++ text ++ gap) < margin) :
    plain? false margin (between read (text ++ (gap ++ rest))) =
      some ⟨text, between (read ++ text ++ gap) rest, true⟩ := by
  have hstops : StopsPiece (gap ++ rest) := by
    cases gap with
    | nil => cases hbreak
    | cons c gap => exact stopsPiece_of_isSpace (isSpace_of_isPrintedSpace (hgap c (by simp))) _
  have hfuel : text.length < (between read (text ++ (gap ++ rest))).size + 1 := by
    simp only [between_size, List.length_append]
    omega
  rw [plain?, plainFrom_text (isPlain_of_allowsPlain htext) hne (head?_of_allowsPlain htext).2 hfuel
    hcolumn hmargin hstops (fun _ => afterPiece_line hgap hbreak hrest hleft)]
  simp [Plain.append, Gap.folded]

/-- A plain text that a colon follows. -/
lemma plain?_colon (htext : allowsPlain text = true) (hne : text ≠ [])
    (hcolumn : columnOf read ≠ 0) (hmargin : margin ≤ columnOf read + 1)
    (hc : isSpace c = true) :
    plain? false margin (between read (text ++ ':' :: c :: rest)) =
      some ⟨text, between (read ++ text) (':' :: c :: rest), false⟩ := by
  have hfuel : text.length < (between read (text ++ ':' :: c :: rest)).size + 1 := by
    simp only [between_size, List.length_append]
    omega
  rw [plain?, plainFrom_text (isPlain_of_allowsPlain htext) hne (head?_of_allowsPlain htext).2 hfuel
    hcolumn hmargin (stopsPiece_colon hc rest) (fun _ => afterPiece_colon (c :: rest))]
  simp [Plain.append, Gap.folded]

/-! ## Lines of a block -/

lemma advance_zero_between (read rest : List Char) :
    (between read rest).advance 0 = between read rest := by
  simp [advance, between, octetCount]

/-- Blanks are taken up to the indentation and no further. -/
lemma min_blanks {indent count : ℕ} {after : List Char} (hcount : count ≤ indent)
    (hafter : ∀ c ∈ after.head?, count < indent → c ≠ ' ') :
    min ((indentation count ++ after).takeWhile (· = ' ')).length indent = count := by
  have hblank : ∀ c ∈ indentation count, decide (c = ' ') = true := fun c hc =>
    decide_eq_true (List.mem_replicate.1 hc).2
  rw [List.takeWhile_append_of_pos hblank, List.length_append]
  simp only [indentation, List.length_replicate]
  rcases Nat.lt_or_eq_of_le hcount with hlt | rfl
  · cases after with
    | nil => simp; omega
    | cons c after =>
      have hc := hafter c rfl hlt
      simp [hc]
      omega
  · omega

variable {indent count : ℕ} {breaks after : List Char}

lemma columnOf_append_indentation (h : columnOf read = 0) (count : ℕ) :
    columnOf (read ++ indentation count) = count := by
  rw [columnOf_append fun c hc => isBreak_of_mem_indentation hc, h, indentation,
    List.length_replicate, Nat.zero_add]

lemma columnOf_append_breaks (h : columnOf read = 0) (hbreaks : ∀ c ∈ breaks, isBreak c = true) :
    columnOf (read ++ breaks) = 0 := by
  rcases List.eq_nil_or_concat breaks with rfl | ⟨others, b, rfl⟩
  · rwa [List.append_nil]
  · rw [List.concat_eq_append] at hbreaks ⊢
    rw [← List.append_assoc, columnOf_append_break (hbreaks b (by simp))]

/-- Blank lines, and the indentation of the line after them. -/
lemma leadFrom_between (hbreaks : ∀ c ∈ breaks, isKeptBreak c = true) (hcount : count ≤ indent)
    (hafter : ∀ c ∈ after.head?, isBreak c = false ∧ (count < indent → c ≠ ' ' ∧ c ≠ '\t'))
    (hfuel : breaks.length < fuel) (hcolumn : columnOf read = 0) (done : List Char) (widest : ℕ) :
    ∃ widest', leadFrom (some indent) fuel done widest
        (between read (breaks ++ (indentation count ++ after))) =
      some ⟨done ++ breaks, widest', between (read ++ breaks ++ indentation count) after⟩ := by
  -- each line end is a blank line, and the last stretch is the indentation
  induction breaks generalizing fuel read done widest with
  | nil =>
    obtain ⟨fuel, rfl⟩ := Nat.exists_eq_add_one_of_ne_zero (by omega : fuel ≠ 0)
    have htaken := min_blanks hcount fun c hc hlt => ((hafter c hc).2 hlt).1
    have hline : ∀ c ∈ indentation count, isBreak c = false :=
      fun c hc => isBreak_of_mem_indentation hc
    have hadvance : (between read (indentation count ++ after)).advance count =
        between (read ++ indentation count) after := by
      have hstep : (between read (indentation count ++ after)).advance
          (indentation count).length = _ := advance_between hline
      rwa [indentation, List.length_replicate] at hstep
    have hcolumnAfter := columnOf_append_indentation hcolumn count
    have htab : (decide (count < indent) && (between (read ++ indentation count) after).next
        (· = '\t')) = false := by
      by_cases hlt : count < indent
      · rw [next_between fun c hc => decide_eq_false ((hafter c hc).2 hlt).2, Bool.and_false]
      · simp [hlt]
    have hbreak : (between (read ++ indentation count) after).next isBreak = false :=
      next_between fun c hc => (hafter c hc).1
    refine ⟨max widest count, ?_⟩
    rw [List.nil_append, leadFrom, between_text, between_column, hcolumn]
    simp only [Nat.sub_zero, htaken, hadvance, between_column, hcolumnAfter, htab, hbreak]
    simp
  | cons b breaks ih =>
    obtain ⟨fuel, rfl⟩ := Nat.exists_eq_add_one_of_ne_zero (by omega : fuel ≠ 0)
    obtain ⟨hb, hbreaks⟩ := List.forall_mem_cons.1 hbreaks
    have hspace : b ≠ ' ' ∧ b ≠ '\t' := by
      constructor <;> rintro rfl <;> revert hb <;> decide
    obtain ⟨widest', hnext⟩ := ih hbreaks (by simpa using hfuel)
      (columnOf_append_break (isBreak_of_isKeptBreak hb)) (done ++ [b]) (max widest 0)
    refine ⟨widest', ?_⟩
    rw [List.cons_append, leadFrom, between_text, between_column, hcolumn]
    simpa [hspace.1, hspace.2, advance_zero_between, next, isBreak_of_isKeptBreak hb,
      lineEnd_between hb, hcolumn] using hnext

lemma lead?_between (hbreaks : ∀ c ∈ breaks, isKeptBreak c = true) (hcount : count ≤ indent)
    (hafter : ∀ c ∈ after.head?, isBreak c = false ∧ (count < indent → c ≠ ' ' ∧ c ≠ '\t'))
    (hcolumn : columnOf read = 0) :
    ∃ widest, lead? (some indent) (between read (breaks ++ (indentation count ++ after))) =
      some ⟨breaks, widest, between (read ++ breaks ++ indentation count) after⟩ := by
  have hfuel : breaks.length <
      (between read (breaks ++ (indentation count ++ after))).spaces + 1 := by
    have hspace : ∀ c ∈ breaks, isSpace c = true := fun c hc => by
      simp [isSpace, isBreak_of_isKeptBreak (hbreaks c hc)]
    rw [spaces, between_text, List.takeWhile_append_of_pos hspace, List.length_append]
    omega
  exact leadFrom_between hbreaks hcount hafter hfuel hcolumn [] 0

/-- Where the indentation is not known, it is what stands before the first line. -/
lemma lead?_first (hafter : ∀ c ∈ after.head?, isSpace c = false) (hcolumn : columnOf read = 0) :
    lead? none (between read (indentation indent ++ after)) =
      some ⟨[], indent, between (read ++ indentation indent) after⟩ := by
  have hline : ∀ c ∈ indentation indent, isBreak c = false :=
    fun c hc => isBreak_of_mem_indentation hc
  have hblanks : ((indentation indent ++ after).takeWhile (· = ' ')) = indentation indent := by
    refine takeWhile_append_of_stop (fun c hc => decide_eq_true (List.mem_replicate.1 hc).2) ?_
    intro c hc
    exact decide_eq_false (ne_blank_of_isSpace (hafter c hc)).1
  have hcolumnAfter := columnOf_append_indentation hcolumn indent
  have htab : (between (read ++ indentation indent) after).next (· = '\t') = false :=
    next_between fun c hc => decide_eq_false (ne_blank_of_isSpace (hafter c hc)).2
  have hbreak : (between (read ++ indentation indent) after).next isBreak = false :=
    next_between fun c hc => isBreak_of_isSpace (hafter c hc)
  rw [lead?, leadFrom, between_text, hblanks]
  simp [advance_between hline, hcolumnAfter, htab, hbreak]

/-- A place in another column than the block's is behind the block. -/
lemma blockLines_stop {folded : Bool} {ending : List Char} {lead : Lead} {blankBefore : Bool}
    (h : lead.cursor.column ≠ indent) :
    blockLines folded indent fuel ending lead blankBefore = some ⟨[], ending, lead⟩ := by
  cases fuel with
  | zero => rfl
  | succ fuel => simp [blockLines, h]

/-- The column behind a line end, blank lines and an indentation is the width of the latter. -/
lemma columnOf_nextLine {line : List Char} {b : Char} (hb : isKeptBreak b = true)
    (hbreaks : ∀ c ∈ breaks, isKeptBreak c = true) (count : ℕ) :
    columnOf (read ++ line ++ [b] ++ breaks ++ indentation count) = count := by
  have hstart : columnOf (read ++ line ++ [b]) = 0 :=
    columnOf_append_break (isBreak_of_isKeptBreak hb)
  exact columnOf_append_indentation (columnOf_append_breaks hstart fun c hc =>
    isBreak_of_isKeptBreak (hbreaks c hc)) count

/-- A line of a literal block is read, and then what stands before the next. -/
lemma blockLines_line {line : List Char} {b : Char} (hline : ∀ c ∈ line, isBreak c = false)
    (hb : isKeptBreak b = true) (hcolumn : columnOf read = indent) (fuel : ℕ)
    (ending breaks rest : List Char) (widest : ℕ) (blankBefore : Bool) :
    ∃ blankHere, blockLines false indent (fuel + 1) ending
        ⟨breaks, widest, between read (line ++ b :: rest)⟩ blankBefore =
      (lead? (some indent) (between (read ++ line ++ [b]) rest)).bind fun next =>
        (blockLines false indent fuel [b] next blankHere).map
          (Block.append (ending ++ breaks ++ line)) := by
  have hrun : (between read (line ++ b :: rest)).run (!isBreak ·) =
      (line, between (read ++ line) (b :: rest)) := by
    refine run_between (by simpa using hline) hline fun c hc => ?_
    obtain rfl := Option.some.inj hc
    simp [isBreak_of_isKeptBreak hb]
  refine ⟨(between read (line ++ b :: rest)).next isBlank, ?_⟩
  rw [blockLines]
  simp only [between_column, hcolumn, between_text, hrun, lineEnd_between hb]
  simp
  cases lead? (some indent) (between (read ++ (line ++ [b])) rest) <;> rfl

/-- A line of a literal block is read with the blank lines behind it, up to where the next one
begins. -/
lemma blockLines_lead {line others : List Char} {b : Char} (hline : ∀ c ∈ line, isBreak c = false)
    (hb : isKeptBreak b = true) (hothers : ∀ c ∈ others, isKeptBreak c = true)
    (hcount : count ≤ indent)
    (hafter : ∀ c ∈ after.head?, isBreak c = false ∧ (count < indent → c ≠ ' ' ∧ c ≠ '\t'))
    (hcolumn : columnOf read = indent) (fuel : ℕ) (ending breaks : List Char) (widest : ℕ)
    (blankBefore : Bool) :
    ∃ widest' blankHere, blockLines false indent (fuel + 1) ending ⟨breaks, widest, between read
        (line ++ b :: (others ++ (indentation count ++ after)))⟩ blankBefore =
      (blockLines false indent fuel [b] ⟨others, widest',
        between (read ++ line ++ [b] ++ others ++ indentation count) after⟩ blankHere).map
          (Block.append (ending ++ breaks ++ line)) := by
  obtain ⟨blankHere, hread⟩ := blockLines_line hline hb hcolumn fuel ending breaks
    (others ++ (indentation count ++ after)) widest blankBefore
  obtain ⟨widest', hlead⟩ := lead?_between hothers hcount hafter
    (columnOf_append_break (isBreak_of_isKeptBreak hb) : columnOf (read ++ line ++ [b]) = 0)
  refine ⟨widest', blankHere, ?_⟩
  rw [hread, hlead, Option.bind_some]

/-! ## Literal blocks -/

variable {newlines trail core : List Char}

/-- The line ends that a block has at its tail. -/
def lineEnds (trail : List Char) : List Char := if trail = [] then ['\n'] else trail

lemma literalBody_append_line {line : List Char} (hline : ∀ c ∈ line, isBreak c = false)
    (more : List Char) :
    literalBody indent false (line ++ more) = line ++ literalBody indent false more := by
  induction line with
  | nil => rfl
  | cons c line ih =>
    obtain ⟨hc, hline⟩ := List.forall_mem_cons.1 hline
    simp [literalBody, hc, ih hline]

lemma literalBody_of_line (hne : text ≠ []) (hhead : ∀ c ∈ text.head?, isBreak c = false) :
    literalBody indent true text = indentation indent ++ literalBody indent false text := by
  obtain ⟨c, text, rfl⟩ := List.exists_cons_of_ne_nil hne
  simp [literalBody, hhead c rfl]

lemma literalBody_append_breaks (hbreaks : ∀ c ∈ breaks, isBreak c = true) (hne : breaks ≠ [])
    (atStart : Bool) (more : List Char) :
    literalBody indent atStart (breaks ++ more) = breaks ++ literalBody indent true more := by
  induction breaks generalizing atStart with
  | nil => exact absurd rfl hne
  | cons b breaks ih =>
    obtain ⟨hb, hbreaks⟩ := List.forall_mem_cons.1 hbreaks
    by_cases hlast : breaks = []
    · simp [literalBody, hb, hlast]
    · simp [literalBody, hb, ih hbreaks hlast]

/-- Between two lines of a text stand the line ends as they are, and an indentation. -/
lemma literalBody_append_gap {line : List Char} (hline : ∀ c ∈ line, isBreak c = false)
    (hbreaks : ∀ c ∈ breaks, isBreak c = true) (hbreaksNe : breaks ≠ []) (hne : text ≠ [])
    (hhead : ∀ c ∈ text.head?, isBreak c = false) :
    literalBody indent false (line ++ (breaks ++ text)) =
      line ++ (breaks ++ (indentation indent ++ literalBody indent false text)) := by
  rw [literalBody_append_line hline, literalBody_append_breaks hbreaks hbreaksNe,
    literalBody_of_line hne hhead]

lemma head?_literalBody (hne : text ≠ []) (hhead : ∀ c ∈ text.head?, isBreak c = false)
    (more : List Char) : (literalBody indent false text ++ more).head? = text.head? := by
  obtain ⟨c, text, rfl⟩ := List.exists_cons_of_ne_nil hne
  simp [literalBody, hhead c rfl]

lemma literalBody_trail (htrail : ∀ c ∈ trail, isBreak c = true) :
    literalBody indent false trail = lineEnds trail := by
  by_cases hne : trail = []
  · simp [hne, literalBody, lineEnds]
  · have hall : literalBody indent false (trail ++ []) = _ :=
      literalBody_append_breaks htrail hne false []
    simpa [literalBody, lineEnds, hne] using hall

lemma length_le_length_literalBody (indent : ℕ) (atStart : Bool) (text : List Char) :
    text.length ≤ (literalBody indent atStart text).length := by
  induction text generalizing atStart with
  | nil => simp
  | cons c text ih =>
    have htrue := ih true
    have hfalse := ih false
    unfold literalBody
    split_ifs <;> simp only [List.length_cons, List.length_append] <;> omega

/-- What follows a block: line feeds, and a line that begins left of the block's indentation. -/
structure Follows (indent count : ℕ) (newlines after : List Char) : Prop where
  newlines : ∀ c ∈ newlines, c = '\n'
  left : count < indent
  after : ∀ c ∈ after.head?, isSpace c = false

lemma Follows.lead (h : Follows indent count newlines after) :
    ∀ c ∈ after.head?, isBreak c = false ∧ (count < indent → c ≠ ' ' ∧ c ≠ '\t') := by
  intro c hc
  have hspace := h.after c hc
  exact ⟨isBreak_of_isSpace hspace, fun _ => ne_blank_of_isSpace hspace⟩

lemma Follows.isKeptBreak (h : Follows indent count newlines after) :
    ∀ c ∈ newlines, isKeptBreak c = true := by
  intro c hc
  rw [h.newlines c hc]
  decide

/-- The last line of a block is read together with what follows the block. -/
lemma blockLines_last {line ending : List Char} {widest : ℕ} {blankBefore : Bool}
    (hline : ∀ c ∈ line, isBreak c = false) (htrail : ∀ c ∈ trail, isKeptBreak c = true)
    (hfollows : Follows indent count newlines after) (hcolumn : columnOf read = indent) :
    ∃ widest', blockLines false indent (fuel + 1) ending ⟨breaks, widest, between read
        (line ++ (lineEnds trail ++ (newlines ++ (indentation count ++ after))))⟩ blankBefore =
      some ⟨ending ++ breaks ++ line, (lineEnds trail).take 1,
        ⟨(lineEnds trail).drop 1 ++ newlines, widest',
          between (read ++ (line ++ lineEnds trail) ++ newlines ++ indentation count) after⟩⟩ := by
  have hends : ∀ c ∈ lineEnds trail, isKeptBreak c = true := by
    unfold lineEnds
    split_ifs
    · exact List.forall_mem_singleton.2 (by decide)
    · exact htrail
  have hnonempty : lineEnds trail ≠ [] := by
    unfold lineEnds
    split_ifs with h
    · simp
    · exact h
  obtain ⟨e, others, heq⟩ := List.exists_cons_of_ne_nil hnonempty
  rw [heq] at hends ⊢
  obtain ⟨he, hothers⟩ := List.forall_mem_cons.1 hends
  have hbreaks : ∀ c ∈ others ++ newlines, isKeptBreak c = true :=
    List.forall_mem_append.2 ⟨hothers, hfollows.isKeptBreak⟩
  obtain ⟨widest', blankHere, hread⟩ := blockLines_lead hline he hbreaks hfollows.left.le
    hfollows.lead hcolumn fuel ending breaks widest blankBefore
  have hstop : columnOf (read ++ line ++ [e] ++ (others ++ newlines) ++ indentation count) ≠
      indent := by
    rw [columnOf_nextLine he hbreaks]
    exact hfollows.left.ne
  refine ⟨widest', ?_⟩
  rw [List.append_assoc others] at hread
  rw [List.cons_append, hread, blockLines_stop hstop]
  simp [Block.append]

/-- Where a text does not end in line ends, a text comes after each of its gaps. -/
lemma last_of_append (hbreaks : ∀ c ∈ breaks, isBreak c = true) (hne : breaks ++ core ≠ [])
    (hlast : ∀ c ∈ (word ++ (breaks ++ core)).getLast?, isBreak c = false) :
    core ≠ [] ∧ ∀ c ∈ core.getLast?, isBreak c = false := by
  rw [List.getLast?_append_of_ne_nil word hne] at hlast
  have hcoreNe : core ≠ [] := by
    rintro rfl
    rw [List.append_nil] at hne hlast
    have hbreak := hbreaks _ (List.getLast_mem hne)
    rw [hlast _ (List.getLast?_eq_some_getLast hne)] at hbreak
    cases hbreak
  rw [List.getLast?_append_of_ne_nil breaks hcoreNe] at hlast
  exact ⟨hcoreNe, hlast⟩

/-- The lines of a block are read up to what follows it. -/
lemma blockLines_literalBody (hne : core ≠ [])
    (hlast : ∀ c ∈ core.getLast?, isBreak c = false)
    (hcore : ∀ c ∈ core, isBreak c = true → isKeptBreak c = true)
    (htrail : ∀ c ∈ trail, isKeptBreak c = true) (hfollows : Follows indent count newlines after)
    (hcolumn : columnOf read = indent) (hfuel : core.length < fuel) (ending breaks : List Char)
    (widest : ℕ) (blankBefore : Bool) :
    ∃ widest', blockLines false indent fuel ending ⟨breaks, widest, between read
        (literalBody indent false (core ++ trail) ++
          (newlines ++ (indentation count ++ after)))⟩ blankBefore =
      some ⟨ending ++ breaks ++ core, (lineEnds trail).take 1,
        ⟨(lineEnds trail).drop 1 ++ newlines, widest',
          between (read ++ literalBody indent false (core ++ trail) ++ newlines ++
            indentation count) after⟩⟩ := by
  -- From line to line: the line ends between two lines stand before the second one.
  induction core using wordsInduction isBreak
    generalizing fuel read ending breaks widest blankBefore with
  | last line hline =>
    obtain ⟨fuel, rfl⟩ := Nat.exists_eq_add_one_of_ne_zero (by omega : fuel ≠ 0)
    rw [literalBody_append_line hline,
      literalBody_trail fun c hc => isBreak_of_isKeptBreak (htrail c hc), List.append_assoc]
    exact blockLines_last hline htrail hfollows hcolumn
  | more line gap core hline hgapNe hgap hhead ih =>
    obtain ⟨fuel, rfl⟩ := Nat.exists_eq_add_one_of_ne_zero (by omega : fuel ≠ 0)
    obtain ⟨hcoreNe, hlastCore⟩ := last_of_append hgap (by simp [hgapNe]) hlast
    obtain ⟨b, others, rfl⟩ := List.exists_cons_of_ne_nil hgapNe
    have hkept : ∀ c ∈ b :: others, isKeptBreak c = true := fun c hc =>
      hcore c (List.mem_append_right line (List.mem_append_left core hc)) (hgap c hc)
    obtain ⟨hb, hothers⟩ := List.forall_mem_cons.1 hkept
    have hnext : ∀ c ∈ (core ++ trail).head?, isBreak c = false := by
      rwa [List.head?_append_of_ne_nil core hcoreNe]
    have hnextNe : core ++ trail ≠ [] := by simp [hcoreNe]
    have hbody : literalBody indent false (line ++ (b :: others ++ core) ++ trail) =
        line ++ b :: (others ++
          (indentation indent ++ literalBody indent false (core ++ trail))) := by
      rw [List.append_assoc, List.append_assoc]
      exact literalBody_append_gap hline hgap hgapNe hnextNe hnext
    have hafter : ∀ c ∈ (literalBody indent false (core ++ trail) ++
        (newlines ++ (indentation count ++ after))).head?,
          isBreak c = false ∧ (indent < indent → c ≠ ' ' ∧ c ≠ '\t') := by
      rw [head?_literalBody hnextNe hnext]
      exact fun c hc => ⟨hnext c hc, fun hlt => absurd hlt (lt_irrefl indent)⟩
    obtain ⟨widest', blankHere, hread⟩ := blockLines_lead hline hb hothers le_rfl hafter hcolumn
      fuel ending breaks widest blankBefore
    have hlength : core.length < fuel := by
      simp only [List.length_append, List.length_cons] at hfuel
      omega
    obtain ⟨widest'', hnext⟩ := ih hcoreNe hlastCore
      (fun c hc => hcore c (by simp [hc])) (columnOf_nextLine hb hothers indent) hlength [b] others
      widest' blankHere
    refine ⟨widest'', ?_⟩
    rw [hbody]
    simp only [List.append_assoc, List.cons_append] at hread hnext ⊢
    rw [hread, hnext]
    simp [Block.append]

/-! ## Headers -/

/-- How a header says what becomes of the line ends at the tail. -/
def chompingMark : Chomping → List Char
  | .strip => ['-']
  | .clip => []
  | .keep => ['+']

/-- What becomes of the line ends at the tail of a text. -/
def chompingOf (core trail : List Char) : Chomping :=
  if trail = [] then .strip else if core ≠ [] ∧ trail.length = 1 then .clip else .keep

/-- A text is a core and the line ends after it. -/
lemma exists_core (text : List Char) :
    ∃ core trail, text = core ++ trail ∧ (∀ c ∈ trail, isBreak c = true) ∧
      ∀ c ∈ core.getLast?, isBreak c = false := by
  obtain ⟨trail, core, heq, htrail, hcore⟩ := exists_run isBreak text.reverse
  refine ⟨core.reverse, trail.reverse, ?_, by simpa using htrail, by simpa using hcore⟩
  rw [← List.reverse_append, ← heq, List.reverse_reverse]

/-- Begins with what a header has to announce an indentation for. -/
def beginsIndented (text : List Char) : Bool := beginsWith (fun c => c = ' ' || isBreak c) text

lemma literalHeader_eq (htrail : ∀ c ∈ trail, isBreak c = true)
    (hcore : ∀ c ∈ core.getLast?, isBreak c = false) :
    literalHeader (core ++ trail) =
      '|' :: ((if beginsIndented (core ++ trail) then ['2'] else []) ++
        chompingMark (chompingOf core trail)) := by
  rcases List.eq_nil_or_concat trail with rfl | ⟨others, last, rfl⟩
  · rcases List.eq_nil_or_concat core with rfl | ⟨before, c, rfl⟩
    · rfl
    · have hc : isBreak c = false := hcore c (by simp)
      rcases List.eq_nil_or_concat before with rfl | ⟨before, d, rfl⟩ <;>
        simp [literalHeader, chompingOf, chompingMark, beginsIndented, hc]
  · have hlast : isBreak last = true := htrail last (by simp)
    rcases List.eq_nil_or_concat others with rfl | ⟨others, b, rfl⟩
    · rcases List.eq_nil_or_concat core with rfl | ⟨before, c, rfl⟩
      · simp [literalHeader, chompingOf, chompingMark, beginsIndented, hlast]
      · have hc : isBreak c = false := hcore c (by simp)
        simp [literalHeader, chompingOf, chompingMark, beginsIndented, hlast, hc]
    · have hb : isBreak b = true := htrail b (by simp)
      simp [literalHeader, chompingOf, chompingMark, beginsIndented, hlast, hb]

lemma endLine?_between (rest : List Char) :
    (between read ('\n' :: rest)).endLine? = some (between (read ++ ['\n']) rest) := by
  have hskip : (between read ('\n' :: rest)).skip isBlank = between read ('\n' :: rest) := by
    have hstay : (between read ([] ++ '\n' :: rest)).skip isBlank = _ :=
      skip_between (by simp) (by simp) (by simp; decide)
    simpa using hstay
  have hnext : (between read ('\n' :: rest)).nextLine = between (read ++ ['\n']) rest :=
    nextLine_between (by decide)
  have hbreak : isBreak '\n' = true := by decide
  simp [endLine?, hskip, next, hbreak, hnext]

lemma blockHeader?_between (indented : Bool) (chomping : Chomping) (rest : List Char) :
    blockHeader? (between read ((if indented then ['2'] else []) ++
        (chompingMark chomping ++ '\n' :: rest))) =
      some (chomping, if indented then 2 else 0,
        between (read ++ (if indented then ['2'] else []) ++ chompingMark chomping ++ ['\n'])
          rest) := by
  have hline : isBreak '2' = false ∧ isBreak '-' = false ∧ isBreak '+' = false := by decide
  cases indented <;> cases chomping <;>
    simp [blockHeader?, chomping?, chompingMark, advance_one_between hline.1,
      advance_one_between hline.2.1, advance_one_between hline.2.2, endLine?_between]

/-- The header of a block keeps the line ends at its tail. -/
def keepsTail (text : List Char) : Bool := (literalHeader text).getLast? = some '+'

lemma keepsTail_iff (htrail : ∀ c ∈ trail, isBreak c = true)
    (hcore : ∀ c ∈ core.getLast?, isBreak c = false) :
    keepsTail (core ++ trail) = true ↔ chompingOf core trail = .keep := by
  rw [keepsTail, literalHeader_eq htrail hcore, decide_eq_true_eq]
  cases beginsIndented (core ++ trail) <;> cases chompingOf core trail <;>
    simp [chompingMark]

/-! ## Whole blocks -/

/-- A text whose header announces no indentation begins with a line, and that with no space. -/
lemma of_beginsIndented_eq_false {lines : List Char} {c : Char}
    (hbreaks : ∀ b ∈ breaks, isBreak b = true)
    (h : beginsIndented (breaks ++ c :: lines) = false) : breaks = [] ∧ c ≠ ' ' := by
  cases breaks with
  | nil =>
    refine ⟨rfl, ?_⟩
    rintro rfl
    simp [beginsIndented, beginsWith] at h
  | cons b breaks =>
    have hb := hbreaks b List.mem_cons_self
    simp [beginsIndented, beginsWith, hb] at h

/-- Line ends before the first line are written as they are, and then the line with its
indentation. -/
lemma literalBody_append_first (hbreaks : ∀ c ∈ breaks, isBreak c = true) (hne : text ≠ [])
    (hhead : ∀ c ∈ text.head?, isBreak c = false) :
    literalBody indent true (breaks ++ text) =
      breaks ++ (indentation indent ++ literalBody indent false text) := by
  by_cases hempty : breaks = []
  · rw [hempty, List.nil_append, List.nil_append, literalBody_of_line hne hhead]
  · rw [literalBody_append_breaks hbreaks hempty, literalBody_of_line hne hhead]

/-- The first line of a block is found, and with it the indentation of the block. -/
lemma lead?_literalBody (m : ℕ) (hne : core ≠ [])
    (hlast : ∀ c ∈ core.getLast?, isBreak c = false)
    (hprint : ∀ c ∈ core, isPrintable c = true) (hcolumn : columnOf read = 0)
    (rest : List Char) :
    ∃ breaks lines widest, core = breaks ++ lines ∧ lines ≠ [] ∧
      (∀ c ∈ breaks, isKeptBreak c = true) ∧
      literalBody (m + 2) true (core ++ trail) =
        breaks ++ (indentation (m + 2) ++ literalBody (m + 2) false (lines ++ trail)) ∧
      lead? (if beginsIndented (core ++ trail) then some (m + 2) else none)
          (between read (literalBody (m + 2) true (core ++ trail) ++ rest)) =
        some ⟨breaks, widest, between (read ++ breaks ++ indentation (m + 2))
          (literalBody (m + 2) false (lines ++ trail) ++ rest)⟩ ∧
      (beginsIndented (core ++ trail) = false → widest = m + 2) := by
  obtain ⟨breaks, lines, rfl, hbreaks, hhead⟩ := exists_run isBreak core
  obtain ⟨hlinesNe, -⟩ := last_of_append hbreaks hne
    (show ∀ c ∈ ([] ++ (breaks ++ lines)).getLast?, isBreak c = false from hlast)
  obtain ⟨c, lines, rfl⟩ := List.exists_cons_of_ne_nil hlinesNe
  have hc : isBreak c = false := hhead c rfl
  have hkept : ∀ b ∈ breaks, isKeptBreak b = true := fun b hb =>
    isKeptBreak_of_isBreak (hprint b (by simp [hb])) (hbreaks b hb)
  have hbody : literalBody (m + 2) true (breaks ++ c :: lines ++ trail) =
      breaks ++ (indentation (m + 2) ++ literalBody (m + 2) false (c :: lines ++ trail)) := by
    rw [List.append_assoc]
    exact literalBody_append_first hbreaks (by simp) hhead
  have hnext : ∀ d ∈ (literalBody (m + 2) false (c :: lines ++ trail) ++ rest).head?, c = d := by
    have hfirst : ∀ d ∈ (c :: lines ++ trail).head?, isBreak d = false := hhead
    rw [head?_literalBody (by simp) hfirst]
    exact fun d hd => Option.some.inj hd
  cases hindented : beginsIndented (breaks ++ c :: lines ++ trail) with
  | true =>
    obtain ⟨widest, hlead⟩ := lead?_between hkept (le_refl (m + 2)) (fun d hd =>
      ⟨hnext d hd ▸ hc, fun hlt => absurd hlt (lt_irrefl _)⟩) hcolumn
    refine ⟨breaks, c :: lines, widest, rfl, hlinesNe, hkept, hbody, ?_, by simp⟩
    rw [hbody, List.append_assoc, List.append_assoc]
    exact hlead
  | false =>
    rw [List.append_assoc] at hindented
    obtain ⟨rfl, hspace⟩ := of_beginsIndented_eq_false hbreaks hindented
    have hsolid : isSpace c = false := isSpace_of_ne_space (hprint c (by simp)) hc hspace
    refine ⟨[], c :: lines, m + 2, rfl, hlinesNe, hkept, hbody, ?_, fun _ => rfl⟩
    rw [hbody, List.nil_append, List.append_assoc]
    have hlead : lead? none (between read (indentation (m + 2) ++ _)) = _ :=
      lead?_first (fun d hd => hnext d hd ▸ hsolid) hcolumn
    simpa using hlead

/-- The text of a block with the line ends at its tail chopped as its header says. -/
def Block.chopped (block : Block) : Chomping → List Char
  | .strip => block.text
  | .clip => block.text ++ block.ending
  | .keep => block.text ++ block.ending ++ block.tail.breaks

lemma chopped_chompingOf (hkeep : chompingOf core trail = .keep → newlines = []) (widest : ℕ)
    (c : Cursor) :
    Block.chopped ⟨core, (lineEnds trail).take 1, ⟨(lineEnds trail).drop 1 ++ newlines, widest, c⟩⟩
      (chompingOf core trail) = core ++ trail := by
  by_cases hnone : trail = []
  · simp [chompingOf, hnone, Block.chopped]
  · have hends : lineEnds trail = trail := if_neg hnone
    by_cases hone : core ≠ [] ∧ trail.length = 1
    · have htake : trail.take 1 = trail := List.take_of_length_le (Nat.le_of_eq hone.2)
      have hclip : chompingOf core trail = .clip := by rw [chompingOf, if_neg hnone, if_pos hone]
      simp only [hclip, hends, htake, Block.chopped]
    · have hkeeps : chompingOf core trail = .keep := by rw [chompingOf, if_neg hnone, if_neg hone]
      have hnewlines := hkeep hkeeps
      subst hnewlines
      simp only [hkeeps, hends, Block.chopped, List.append_nil, List.append_assoc,
        List.take_append_drop]

/-- The header of a block is read. -/
lemma blockHeader?_literal (htrail : ∀ c ∈ trail, isBreak c = true)
    (hcore : ∀ c ∈ core.getLast?, isBreak c = false) (rest : List Char) :
    blockHeader? ((between read (literalHeader (core ++ trail) ++ '\n' :: rest)).advance 1) =
      some (chompingOf core trail, if beginsIndented (core ++ trail) then 2 else 0,
        between (read ++ literalHeader (core ++ trail) ++ ['\n']) rest) := by
  have hbar : isBreak '|' = false := by decide
  rw [literalHeader_eq htrail hcore, List.cons_append, advance_one_between hbar, List.append_assoc,
    blockHeader?_between]
  simp

/-- A block is read line by line once its first line is found, and then chopped. -/
lemma block?_of_lead? {m : ℕ} {lead : Lead} (htrail : ∀ c ∈ trail, isBreak c = true)
    (hcore : ∀ c ∈ core.getLast?, isBreak c = false)
    (hlead : lead? (if beginsIndented (core ++ trail) then some (m + 2) else none)
      (between (read ++ literalHeader (core ++ trail) ++ ['\n']) rest) = some lead)
    (hwidest : beginsIndented (core ++ trail) = false → lead.widest = m + 2) :
    block? false m (between read (literalHeader (core ++ trail) ++ '\n' :: rest)) =
      (blockLines false (m + 2)
        ((read ++ literalHeader (core ++ trail) ++ ['\n'] ++ rest).length + 1) [] lead false).map
        fun block => (block.chopped (chompingOf core trail), block.tail.cursor) := by
  have hknown : (if (if beginsIndented (core ++ trail) then 2 else 0) = 0 then none
      else some ((m : ℤ).toNat + if beginsIndented (core ++ trail) then 2 else 0)) =
      if beginsIndented (core ++ trail) then some (m + 2) else none := by
    cases beginsIndented (core ++ trail) <;> simp
  have hindent : (if beginsIndented (core ++ trail) then some (m + 2) else none).getD
      (max (max lead.widest ((m : ℤ) + 1).toNat) 1) = m + 2 := by
    by_cases hindented : beginsIndented (core ++ trail) = true
    · rw [if_pos hindented, Option.getD_some]
    · rw [if_neg hindented, Option.getD_none, hwidest (Bool.not_eq_true _ ▸ hindented)]
      omega
  rw [block?, blockHeader?_literal htrail hcore]
  simp only [hknown, hlead, hindent, between_size]
  rfl

/-- A block of nothing but line ends: they all stand before a first line that never comes. -/
lemma block?_breaks {m : ℕ} (hbreaks : ∀ c ∈ breaks, isKeptBreak c = true) (hne : breaks ≠ [])
    (hfollows : Follows (m + 2) count [] after) :
    block? false m (between read (literalHeader breaks ++
        '\n' :: (literalBody (m + 2) true breaks ++ (indentation count ++ after)))) =
      some (breaks, between (read ++ (literalHeader breaks ++
        '\n' :: literalBody (m + 2) true breaks) ++ indentation count) after) := by
  have hends : ∀ c ∈ breaks, isBreak c = true := fun c hc => isBreak_of_isKeptBreak (hbreaks c hc)
  have hbody : literalBody (m + 2) true breaks = breaks := by
    have hall : literalBody (m + 2) true (breaks ++ []) = _ :=
      literalBody_append_breaks hends hne true []
    simpa [literalBody] using hall
  have hindented : beginsIndented breaks = true := by
    obtain ⟨b, others, rfl⟩ := List.exists_cons_of_ne_nil hne
    simp [beginsIndented, beginsWith, hends b List.mem_cons_self]
  have hchomping : chompingOf [] breaks = .keep := by simp [chompingOf, hne]
  have hstart : columnOf (read ++ literalHeader breaks ++ ['\n']) = 0 :=
    columnOf_append_break (by decide)
  obtain ⟨widest, hlead⟩ := lead?_between hbreaks hfollows.left.le hfollows.lead hstart
  have hstop : columnOf (read ++ literalHeader breaks ++ ['\n'] ++ breaks ++
      indentation count) ≠ m + 2 := by
    rw [columnOf_append_indentation (columnOf_append_breaks hstart hends)]
    exact hfollows.left.ne
  have hknown : (if beginsIndented ([] ++ breaks) then some (m + 2) else none) = some (m + 2) :=
    if_pos hindented
  rw [← hknown] at hlead
  have hread := block?_of_lead? hends (by simp) hlead (by simp [hindented])
  rw [List.nil_append] at hread
  rw [hbody, hread, blockLines_stop hstop]
  simp [hchomping, Block.chopped]

/-- A literal block is read back, unless line ends are kept and others follow. -/
lemma block?_literal {m : ℕ} (hprint : ∀ c ∈ text, isPrintable c = true) (hne : text ≠ [])
    (hfollows : Follows (m + 2) count newlines after)
    (hkeeps : newlines ≠ [] → keepsTail text = false) :
    block? false m (between read (literalHeader text ++
        '\n' :: (literalBody (m + 2) true text ++ (newlines ++ (indentation count ++ after))))) =
      some (text, between (read ++ (literalHeader text ++ '\n' :: literalBody (m + 2) true text) ++
        newlines ++ indentation count) after) := by
  obtain ⟨core, trail, rfl, htrail, hcore⟩ := exists_core text
  have hkept : ∀ c ∈ trail, isKeptBreak c = true := fun c hc =>
    isKeptBreak_of_isBreak (hprint c (List.mem_append_right core hc)) (htrail c hc)
  have hkeep : chompingOf core trail = .keep → newlines = [] := by
    intro hchomping
    by_contra hno
    rw [(keepsTail_iff htrail hcore).2 hchomping] at hkeeps
    cases hkeeps hno
  -- without a core there is no first line, and the line ends are all there is
  by_cases hempty : core = []
  · subst hempty
    have hnone : newlines = [] := hkeep (by simpa [chompingOf] using hne)
    subst hnone
    rw [List.nil_append] at hne
    simpa using block?_breaks hkept hne hfollows
  have hstart : columnOf (read ++ literalHeader (core ++ trail) ++ ['\n']) = 0 :=
    columnOf_append_break (by decide)
  obtain ⟨breaks, lines, widest, rfl, hlinesNe, hbreaks, hbody, hlead, hwidest⟩ :=
    lead?_literalBody m hempty hcore (fun c hc => hprint c (List.mem_append_left trail hc)) hstart
      (newlines ++ (indentation count ++ after))
  have hline : columnOf (read ++ literalHeader (breaks ++ lines ++ trail) ++ ['\n'] ++ breaks ++
      indentation (m + 2)) = m + 2 :=
    columnOf_append_indentation (columnOf_append_breaks hstart fun c hc =>
      isBreak_of_isKeptBreak (hbreaks c hc)) (m + 2)
  have hlines : ∀ c ∈ lines, isBreak c = true → isKeptBreak c = true := fun c hc =>
    isKeptBreak_of_isBreak (hprint c (by simp [hc]))
  have hlinesLast : ∀ c ∈ lines.getLast?, isBreak c = false := by
    rwa [List.getLast?_append_of_ne_nil _ hlinesNe] at hcore
  have hfuel : lines.length < (read ++ literalHeader (breaks ++ lines ++ trail) ++ ['\n'] ++
      (literalBody (m + 2) true (breaks ++ lines ++ trail) ++
        (newlines ++ (indentation count ++ after)))).length + 1 := by
    have hgrows := length_le_length_literalBody (m + 2) false (lines ++ trail)
    rw [hbody]
    simp only [List.length_append] at hgrows ⊢
    omega
  obtain ⟨widest', hread⟩ := blockLines_literalBody hlinesNe hlinesLast hlines hkept hfollows
    hline hfuel [] breaks widest false
  rw [block?_of_lead? htrail hcore hlead hwidest, hread, Option.map_some, hbody]
  refine congrArg some (Prod.ext (chopped_chompingOf hkeep _ _) ?_)
  simp

end Scalar

end Yaml

end SiblingQuery
