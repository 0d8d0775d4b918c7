import Mathlib.Data.List.Chain
import SiblingQuery.Proofs.JsonScanning
import SiblingQuery.Proofs.Passes
import SiblingQuery.Proofs.YamlQuoted

/-!
# Strings that two formats write alike

A JSON string is a double-quoted YAML scalar, and mostly the same text.  Their readers differ in
three ways.

* YAML has no surrogate codes, and refuses a string with one.
* YAML reads a next-line control as a line end.
* YAML folds line ends.  In a JSON string only the two Unicode separators are line ends to YAML, and
  they stand for themselves; but spaces beside them are indentation and drop out.

`Quoted.ReadsAlike` keeps the last two out.  The YAML reader goes on from gap to gap, the JSON
reader from character to character, so the comparison goes piece by piece
(`isFront_of_doublePiece`) and gap by gap (`read_of_gap`).
-/

namespace SiblingQuery

namespace Quoted

/-! ## Units -/

/-- The character that a unit stands for on its own. -/
def Unit.char? : Unit → Option Char
  | .char c => some c
  | .code n => if n.isValidChar then some (Char.ofNat n) else none

lemma mapM_char?_map_char (text : List Char) :
    (text.map Unit.char).mapM Unit.char? = some text := by
  rw [mapM_eq_some_iff, List.forall₂_map_left_iff]
  exact List.forall₂_same.2 fun c _ => rfl

/-- A string in which every unit stands on its own is the text of these units. -/
lemma join?_of_mapM_char? {quoted : Quoted} {chars : List Char}
    (h : quoted.mapM Unit.char? = some chars) : quoted.join? = some chars := by
  induction quoted generalizing chars with
  | nil => exact h
  | cons unit quoted ih =>
    simp only [List.mapM_cons, Option.bind_eq_bind, Option.bind_eq_some_iff, Option.pure_def,
      Option.some.injEq] at h
    obtain ⟨c, hc, others, hothers, rfl⟩ := h
    cases unit with
    | char d =>
      obtain rfl := Option.some.inj hc
      rw [join?, ih hothers]
      rfl
    | code n =>
      simp only [Unit.char?] at hc
      split_ifs at hc with hvalid
      obtain rfl := Option.some.inj hc
      -- no character has a code that is half of a pair
      have hlow : isLowSurrogate n = false := by
        simp only [isLowSurrogate, Bool.and_eq_false_iff, decide_eq_false_iff_not]
        unfold Nat.isValidChar at hvalid
        omega
      have hhigh : isHighSurrogate n = false := by
        simp only [isHighSurrogate, Bool.and_eq_false_iff, decide_eq_false_iff_not]
        unfold Nat.isValidChar at hvalid
        omega
      rw [join?.eq_def]
      simp [hlow, hhigh, ih hothers]

/-- A Unicode separator: a line end that stays as content. -/
def isSeparator (c : Char) : Bool := c = '\u2028' || c = '\u2029'

/-- A Unicode separator that stands on its own. -/
def Unit.isSeparator : Unit → Bool
  | .char c => Quoted.isSeparator c
  | .code _ => false

/-- Two units, of which the one is a space and the other the line end beside it. -/
def Fold (first second : Unit) : Prop :=
  (first = .char ' ' ∧ second.isSeparator = true) ∨ (first.isSeparator = true ∧ second = .char ' ')

instance (first second : Unit) : Decidable (Fold first second) :=
  inferInstanceAs (Decidable (_ ∨ _))

/-- Nothing in the string is folded: it holds no next-line control, and no separator with a space
beside it. -/
structure ReadsAlike (quoted : Quoted) : Prop where
  noNextLine : ∀ unit ∈ quoted, unit ≠ .char '\u0085'
  noFold : quoted.IsChain fun first second => ¬Fold first second

instance (quoted : Quoted) : Decidable quoted.ReadsAlike :=
  decidable_of_iff ((∀ unit ∈ quoted, unit ≠ .char '\u0085') ∧
    quoted.IsChain fun first second => ¬Fold first second)
    ⟨fun h => ⟨h.1, h.2⟩, fun h => ⟨h.noNextLine, h.noFold⟩⟩

lemma ReadsAlike.of_append {front back : Quoted} (h : ReadsAlike (front ++ back)) :
    ReadsAlike front ∧ ReadsAlike back := by
  have hchain := List.isChain_append.1 h.noFold
  exact ⟨⟨fun unit hunit => h.noNextLine unit (List.mem_append_left _ hunit), hchain.1⟩,
    ⟨fun unit hunit => h.noNextLine unit (List.mem_append_right _ hunit), hchain.2.1⟩⟩

end Quoted

namespace Yaml

open Quoted

namespace Scalar

variable {text rest : List Char} {quoted : Quoted}

/-! ## Pieces -/

/-- An escape of JSON is one of YAML, and no line end. -/
lemma escaped?_of_json {e c : Char} (h : Quoted.escaped? e = some c) :
    escaped? e = some c ∧ isBreak e = false ∧ e ∉ ['x', 'u', 'U'] := by
  unfold Quoted.escaped? at h
  split at h
  case h_9 => cases h
  all_goals
    obtain rfl := Option.some.inj h
    decide

/-- A piece of a YAML scalar holds the first units of the JSON string, and ends at the closing quote
or before a gap. -/
structure IsFront (text : List Char) (quoted : Quoted) (rest : List Char) (piece : Piece) :
    Prop where
  unbroken : piece.escapedBreak = false
  units : ∃ front back, quoted = front ++ back ∧ front.mapM Unit.char? = some piece.text ∧
    Quoted.read (text.drop piece.length) = some (back, rest)
  stops : ∀ c ∈ (text.drop piece.length).head?, c = '"' ∨ isSpace c = true

lemma IsFront.cons {unit : Quoted.Unit} {c : Char} {piece : Piece}
    (h : IsFront text quoted rest piece) (hunit : unit.char? = some c) (spelling : List Char) :
    IsFront (spelling ++ text) (unit :: quoted) rest (piece.cons c spelling.length) := by
  obtain ⟨hunbroken, ⟨front, back, rfl, hfront, hback⟩, hstops⟩ := h
  have hdrop : (spelling ++ text).drop (piece.cons c spelling.length).length =
      text.drop piece.length := by
    rw [Piece.cons, Nat.add_comm, List.drop_append, Nat.add_sub_cancel_left,
      List.drop_eq_nil_of_le (Nat.le_add_right _ _), List.nil_append]
  refine ⟨hunbroken, ⟨unit :: front, back, rfl, ?_, by rwa [hdrop]⟩, by rwa [hdrop]⟩
  simp [List.mapM_cons, hunit, hfront, Piece.cons]

/-- Up to the next gap or the closing quote both readers read the same. -/
lemma isFront_of_doublePiece {piece : Piece} (hread : Quoted.read text = some (quoted, rest))
    (hpiece : doublePiece text = some piece) : IsFront text quoted rest piece := by
  fun_induction Quoted.read text generalizing quoted rest piece with
  | case1 => cases hread
  | case2 after =>
    obtain rfl := Option.some.inj hpiece
    obtain ⟨rfl, rfl⟩ := Prod.mk.inj (Option.some.inj hread)
    exact ⟨rfl, ⟨[], [], rfl, rfl, rfl⟩, by simp⟩
  | case3 a b c d after n units after' hrest hnumber ih =>
    obtain ⟨rfl, rfl⟩ := Prod.mk.inj (Option.some.inj hread)
    cases hhex : charOfHex? [a, b, c, d] with
    | none =>
      -- a surrogate code is no character
      rw [doublePiece, hhex] at hpiece
      cases hpiece
    | some char =>
      have hsplit : doublePiece ('\\' :: 'u' :: a :: b :: c :: d :: after) =
          (doublePiece after).map (·.cons char 6) :=
        @doublePiece_hex_four [a, b, c, d] rfl char hhex after
      rw [hsplit] at hpiece
      obtain ⟨tail, htail, rfl⟩ := Option.map_eq_some_iff.1 hpiece
      have hchar : Unit.char? (.code n) = some char := by
        rw [charOfHex?, hnumber] at hhex
        exact hhex
      exact (ih hrest htail).cons hchar ['\\', 'u', a, b, c, d]
  | case4 => cases hread
  | case5 e after hnot c units after' hrest hescape ih =>
    obtain ⟨rfl, rfl⟩ := Prod.mk.inj (Option.some.inj hread)
    obtain ⟨hescaped, hbreak, hletter⟩ := escaped?_of_json hescape
    rw [doublePiece_escape hescaped hbreak hletter] at hpiece
    obtain ⟨tail, htail, rfl⟩ := Option.map_eq_some_iff.1 hpiece
    exact (ih hrest htail).cons (show Unit.char? (.char c) = some c from rfl) ['\\', e]
  | case6 => cases hread
  | case7 => cases hread
  | case8 c after hquote hcode hslash hcontrol units after' hrest ih =>
    obtain ⟨rfl, rfl⟩ := Prod.mk.inj (Option.some.inj hread)
    obtain ⟨hbackslash, hcontrol⟩ := not_or.1 hcontrol
    cases hspace : isSpace c with
    | true =>
      -- the gap begins, and with it the units that are left for later
      have hstop : doublePiece (c :: after) = some ⟨[], 0, false⟩ := by
        rw [doublePiece.eq_def]
        split <;> simp_all
      obtain rfl := Option.some.inj (hstop.symm.trans hpiece)
      refine ⟨rfl, ⟨[], .char c :: units, rfl, rfl, ?_⟩, by simpa using .inr hspace⟩
      rw [List.drop_zero, read_plain hquote hbackslash hcontrol, hrest]
      rfl
    | false =>
      rw [doublePiece_plain hspace hquote hbackslash] at hpiece
      obtain ⟨tail, htail, rfl⟩ := Option.map_eq_some_iff.1 hpiece
      exact (ih hrest htail).cons (show Unit.char? (.char c) = some c from rfl) [c]
  | case9 => cases hread

/-! ## Gaps -/

/-- Spaces and line ends in a JSON string are read by JSON as they stand. -/
lemma read_of_gap {gap tail : List Char} (hgap : ∀ c ∈ gap, isSpace c = true)
    (hread : Quoted.read (gap ++ tail) = some (quoted, rest)) :
    (∀ c ∈ gap, ¬c < ' ') ∧
      ∃ back, quoted = gap.map .char ++ back ∧ Quoted.read tail = some (back, rest) := by
  induction gap generalizing quoted with
  | nil => exact ⟨nofun, quoted, rfl, hread⟩
  | cons c gap ih =>
    obtain ⟨hc, hgap⟩ := List.forall_mem_cons.1 hgap
    have hquote : c ≠ '"' := by
      rintro rfl
      exact absurd hc (by decide)
    have hbackslash : c ≠ '\\' := by
      rintro rfl
      exact absurd hc (by decide)
    by_cases hcontrol : c < ' '
    · have hnone : Quoted.read (c :: (gap ++ tail)) = none := by
        rw [Quoted.read.eq_def]
        split <;> simp_all
      rw [List.cons_append, hnone] at hread
      cases hread
    · rw [List.cons_append, read_plain hquote hbackslash hcontrol] at hread
      obtain ⟨⟨units, after⟩, hunits, heq⟩ := Option.map_eq_some_iff.1 hread
      obtain ⟨rfl, rfl⟩ := Prod.mk.inj heq
      obtain ⟨hplain, back, rfl, hback⟩ := ih hgap hunits
      exact ⟨List.forall_mem_cons.2 ⟨hcontrol, hplain⟩, back, rfl, hback⟩

/-- Where nothing is folded, a gap holds spaces only or separators only. -/
lemma uniform_of_readsAlike {gap : List Char} (hgap : ∀ c ∈ gap, isSpace c = true)
    (hplain : ∀ c ∈ gap, ¬c < ' ') (h : ReadsAlike (gap.map Unit.char)) :
    (∀ c ∈ gap, c = ' ') ∨ ∀ c ∈ gap, isSeparator c = true := by
  have hkind : ∀ c ∈ gap, c = ' ' ∨ isSeparator c = true := by
    intro c hc
    have hline : c ≠ '\u0085' := fun heq =>
      h.noNextLine (.char c) (List.mem_map_of_mem hc) (congrArg _ heq)
    have hspace := hgap c hc
    have hcontrol := hplain c hc
    simp only [isSpace, isBlank, isBreak, Bool.or_eq_true, decide_eq_true_eq] at hspace
    rcases hspace with (rfl | rfl) | (((rfl | rfl) | rfl) | rfl) | rfl
    · exact .inl rfl
    · exact absurd (by decide) hcontrol
    · exact absurd (by decide) hcontrol
    · exact absurd (by decide) hcontrol
    · exact absurd rfl hline
    · exact .inr (by decide)
    · exact .inr (by decide)
  have hchain := h.noFold
  clear h hgap hplain
  -- with only two kinds left, a gap of both kinds would have neighbours of both
  induction gap with
  | nil => exact .inl (List.forall_mem_nil _)
  | cons c gap ih =>
    obtain ⟨hc, hrest⟩ := List.forall_mem_cons.1 hkind
    cases gap with
    | nil => simpa using hc
    | cons d gap =>
      rw [List.map_cons, List.map_cons, List.isChain_cons_cons] at hchain
      obtain ⟨hfold, hchain⟩ := hchain
      have hspace : isSeparator ' ' = false := by decide
      rcases ih hrest hchain with hspaces | hseparators
      · have hd : d = ' ' := hspaces d List.mem_cons_self
        subst hd
        rcases hc with rfl | hc
        · exact .inl (List.forall_mem_cons.2 ⟨rfl, hspaces⟩)
        · exact absurd (.inr ⟨hc, rfl⟩) hfold
      · have hd := hseparators d List.mem_cons_self
        rcases hc with rfl | hc
        · exact absurd (.inl ⟨rfl, hd⟩) hfold
        · exact .inr (List.forall_mem_cons.2 ⟨hc, hseparators⟩)

end Scalar

/-! ## Cursors over any text -/

lemma Cursor.lineEnd_of_isKeptBreak {c : Cursor} {ch : Char} {rest : List Char}
    (htext : c.text = ch :: rest) (h : isKeptBreak ch = true) :
    c.lineEnd = ([ch], c.breakLine ch.utf8Size rest) := by
  simp only [isKeptBreak, Bool.or_eq_true, decide_eq_true_eq] at h
  unfold Cursor.lineEnd
  rw [htext]
  obtain (rfl | rfl) | rfl := h <;> rfl

lemma Gap.readUpTo_of_isPrintedSpace (margin : ℕ) {gap rest : List Char}
    (hgap : ∀ ch ∈ gap, isPrintedSpace ch = true) (done : List Char) {c : Cursor}
    (htext : c.text = gap ++ rest) :
    ∃ c', readUpTo margin gap.length (ofChars done) c = some (ofChars (done ++ gap), c') ∧
      c'.text = rest ∧ c'.size = c.size := by
  induction gap generalizing done c with
  | nil => exact ⟨c, by simp [readUpTo], htext, rfl⟩
  | cons ch gap ih =>
    obtain ⟨hch, hlater⟩ := List.forall_mem_cons.1 hgap
    simp only [isPrintedSpace, Bool.or_eq_true, decide_eq_true_eq] at hch
    rcases hch with rfl | hch
    · have hblank : isBlank ' ' = true := by decide
      have hnext : (c.advance 1).text = gap ++ rest := by rw [Cursor.advance, htext]; rfl
      obtain ⟨c', hread, hrest, hsize⟩ := ih hlater (done ++ [' ']) hnext
      refine ⟨c', ?_, hrest, hsize⟩
      rw [ofChars_append_space, List.append_assoc] at hread
      rw [List.length_cons, readUpTo, htext]
      simp only [List.cons_append, hblank, if_true]
      cases hbroken : (ofChars done).broken <;> simp [hbroken] at hread ⊢ <;> exact hread
    · have hnext : (c.breakLine ch.utf8Size (gap ++ rest)).text = gap ++ rest := rfl
      obtain ⟨c', hread, hrest, hsize⟩ := ih hlater (done ++ [ch]) hnext
      refine ⟨c', ?_, hrest, hsize⟩
      rw [ofChars_append_break (isBreak_of_isKeptBreak hch), List.append_assoc] at hread
      rw [List.length_cons, readUpTo, htext]
      simp only [List.cons_append, isBlank_of_isKeptBreak hch, isBreak_of_isKeptBreak hch, if_true,
        Cursor.lineEnd_of_isKeptBreak htext hch]
      cases hbroken : (ofChars done).broken <;> simp [hbroken] at hread ⊢ <;> exact hread

/-- A gap of spaces only, or of separators only, stands for itself. -/
lemma Gap.read_of_uniform (margin : ℕ) {gap rest : List Char} {c : Cursor}
    (hgap : (∀ ch ∈ gap, ch = ' ') ∨ ∀ ch ∈ gap, isSeparator ch = true) (hne : gap ≠ [])
    (htext : c.text = gap ++ rest) (hrest : ∀ ch ∈ rest.head?, isSpace ch = false) :
    ∃ found c', Gap.read margin {} c = some (found, c') ∧ found.folded = gap ∧ c'.text = rest ∧
      c'.size = c.size := by
  have hkept : ∀ ch, isSeparator ch = true → isKeptBreak ch = true ∧ ch ≠ '\n' := by
    intro ch hch
    simp only [isSeparator, Bool.or_eq_true, decide_eq_true_eq] at hch
    obtain rfl | rfl := hch <;> decide
  have hprinted : ∀ ch ∈ gap, isPrintedSpace ch = true :=
    hgap.elim isPrintedSpace_of_spaces fun hgap ch hch =>
      Bool.or_eq_true_iff.2 (.inr (hkept ch (hgap ch hch)).1)
  obtain ⟨c', hread, hc', hsize⟩ := readUpTo_of_isPrintedSpace margin hprinted [] htext
  have hspaces : c.spaces = gap.length := by
    rw [Cursor.spaces, htext,
      takeWhile_append_of_stop (fun ch hch => isSpace_of_isPrintedSpace (hprinted ch hch)) hrest]
  refine ⟨ofChars gap, c', ?_, ?_, hc', hsize⟩
  · rw [Gap.read, hspaces]
    exact hread
  · rcases hgap with hgap | hgap
    · exact folded_ofChars_of_blanks (isBreak_of_spaces hgap)
    · have hall : gap.filter isBreak = gap :=
        List.filter_eq_self.2 fun ch hch => isBreak_of_isKeptBreak (hkept ch (hgap ch hch)).1
      refine folded_ofChars_of_breaks hall hne fun hfirst => ?_
      exact (hkept '\n' (hgap '\n' (List.mem_of_mem_head? hfirst))).2 rfl

/-- Where nothing is folded, a gap stands for the units that the JSON reader makes of it, and both
readers go on behind it. -/
lemma Gap.read_of_readsAlike {c : Cursor} {ch : Char} {after rest : List Char} {quoted : Quoted}
    (htext : c.text = ch :: after) (hspace : isSpace ch = true)
    (hread : Quoted.read (ch :: after) = some (quoted, rest)) (halike : ReadsAlike quoted) :
    ∃ found c' back, Gap.read 0 {} c = some (found, c') ∧ c'.size = c.size ∧
      quoted = found.folded.map Quoted.Unit.char ++ back ∧
      Quoted.read c'.text = some (back, rest) ∧ ReadsAlike back := by
  -- the gap, cut off the text as the reader of gaps does
  obtain ⟨gap, tail, hsplit, hgap, htail⟩ := exists_run isSpace (ch :: after)
  have hne : gap ≠ [] := by
    rintro rfl
    rw [htail ch (by rw [← List.nil_append tail, ← hsplit]; rfl)] at hspace
    cases hspace
  rw [hsplit] at htext hread
  obtain ⟨hplain, back, rfl, hlater⟩ := Scalar.read_of_gap hgap hread
  obtain ⟨hgapAlike, htailAlike⟩ := halike.of_append
  obtain ⟨found, c', hfound, hfolded, hc', hsize⟩ := Gap.read_of_uniform 0
    (Scalar.uniform_of_readsAlike hgap hplain hgapAlike) hne htext htail
  exact ⟨found, c', back, hfound, hsize, by rw [hfolded], by rwa [hc'], htailAlike⟩

/-! ## Whole strings -/

namespace Scalar

/-- Where nothing is folded, a string of both formats has one text and one end. -/
lemma quotedFrom_of_read {fuel : ℕ} {c c' : Cursor} {quoted : Quoted} {content rest : List Char}
    (hread : Quoted.read c.text = some (quoted, rest)) (halike : ReadsAlike quoted)
    (h : quotedFrom false fuel c = some (content, c')) :
    quoted.mapM Unit.char? = some content ∧ c'.text = rest ∧ c'.size = c.size := by
  induction fuel generalizing c quoted content with
  | zero => cases h
  | succ fuel ih =>
    simp only [quotedFrom, Bool.false_eq_true, if_false] at h
    split_ifs at h with hend
    split at h
    · cases h
    next piece hpiece =>
    obtain ⟨hbreak, ⟨front, back, rfl, hfront, hback⟩, hstop⟩ :=
      isFront_of_doublePiece hread hpiece
    have hnext : (c.advance piece.length).text = c.text.drop piece.length := rfl
    rw [hbreak, if_neg Bool.false_ne_true] at h
    cases hrest : c.text.drop piece.length with
    | nil =>
      rw [hrest] at hback
      cases hback
    | cons ch after =>
      rw [hrest] at hnext hback hstop
      by_cases hquote : ch = '"'
      · subst hquote
        obtain ⟨rfl, rfl⟩ := Prod.mk.inj (Option.some.inj hback)
        simp only [Cursor.next, hnext, decide_true, if_true] at h
        obtain ⟨rfl, rfl⟩ := Prod.mk.inj (Option.some.inj h)
        refine ⟨by simpa using hfront, ?_, rfl⟩
        rw [Cursor.advance, hnext]
        rfl
      · have hspace : isSpace ch = true := (hstop ch rfl).resolve_left hquote
        simp only [Cursor.next, hnext, hquote, decide_false, Bool.false_eq_true, if_false] at h
        obtain ⟨found, c₂, back, hfound, hsize, rfl, hlater, htailAlike⟩ :=
          Gap.read_of_readsAlike hnext hspace hback halike.of_append.2
        rw [hfound] at h
        obtain ⟨⟨more, c₃⟩, hmore, heq⟩ := Option.map_eq_some_iff.1 h
        obtain ⟨rfl, rfl⟩ := Prod.mk.inj heq
        obtain ⟨hunits, hc₃, hsize₃⟩ := ih hlater htailAlike hmore
        refine ⟨?_, hc₃, hsize₃.trans hsize⟩
        rw [List.mapM_append, hfront, List.mapM_append, mapM_char?_map_char, hunits]
        simp

/-- A string of both formats, from its opening quote. -/
lemma quoted?_of_read {c c' : Cursor} {quoted : Quoted} {text content rest : List Char}
    (htext : c.text = '"' :: text) (hread : Quoted.read text = some (quoted, rest))
    (halike : ReadsAlike quoted) (h : quoted? false c = some (content, c')) :
    quoted.text? = some (String.ofList content) ∧ c'.text = rest ∧ c'.size = c.size := by
  have hnext : (c.advance 1).text = text := by
    rw [Cursor.advance, htext]
    rfl
  obtain ⟨hunits, hrest, hsize⟩ := quotedFrom_of_read (by rw [hnext]; exact hread) halike h
  exact ⟨by rw [Quoted.text?, join?_of_mapM_char? hunits]; rfl, hrest, hsize⟩

end Scalar

end Yaml

end SiblingQuery
