import Mathlib.Data.List.DropRight
import SiblingQuery.Proofs.JsonTokens
import SiblingQuery.Proofs.Numerals
import SiblingQuery.Proofs.QuotedStrings
import SiblingQuery.Proofs.YamlLexing

/-!
# JSON text cut into YAML tokens

Between brackets the YAML reader cuts a JSON text where the JSON reader does.  `Lexer.At` says how
far both are: which JSON tokens remain, which YAML tokens there are, and how many brackets are open.
Each JSON token is then one step of the YAML reader, from one such state to the next.

Indentation means nothing between brackets, and before the first bracket none is open.  The
candidates for keys are never required there, so they are dropped without harm; whether one is still
there when its colon comes depends on how far that is, and is left open.
-/

namespace SiblingQuery

namespace Json.Token

/-! ## The front of a JSON text -/

/-- How a name or a number is written. -/
inductive IsWord : Token → List Char → Prop
  | null : IsWord .null "null".toList
  | bool (b : Bool) : IsWord (.bool b) (if b then "true" else "false").toList
  | number {n : Numeral} {word : List Char} (h : n.Spells word) : IsWord (.number n) word

/-- A token at the front of a text, and what follows it. -/
inductive Begins : Token → List Char → List Char → Prop
  | openBrace (rest : List Char) : Begins .openBrace ('{' :: rest) rest
  | closeBrace (rest : List Char) : Begins .closeBrace ('}' :: rest) rest
  | openBracket (rest : List Char) : Begins .openBracket ('[' :: rest) rest
  | closeBracket (rest : List Char) : Begins .closeBracket (']' :: rest) rest
  | comma (rest : List Char) : Begins .comma (',' :: rest) rest
  | colon (rest : List Char) : Begins .colon (':' :: rest) rest
  | string {quoted : Quoted} {text rest : List Char} (h : Quoted.read text = some (quoted, rest)) :
      Begins (.string quoted) ('"' :: text) rest
  | word {token : Token} {word : List Char} (h : IsWord token word) (rest : List Char) :
      Begins token (word ++ rest) rest

lemma begins_of_spelling? {token : Token} {word : List Char} (h : token.spelling? = some word)
    (rest : List Char) : Begins token (word ++ rest) rest := by
  cases token with
  | number _ | string _ => cases h
  | openBrace => obtain rfl := Option.some.inj h; exact .openBrace rest
  | closeBrace => obtain rfl := Option.some.inj h; exact .closeBrace rest
  | openBracket => obtain rfl := Option.some.inj h; exact .openBracket rest
  | closeBracket => obtain rfl := Option.some.inj h; exact .closeBracket rest
  | comma => obtain rfl := Option.some.inj h; exact .comma rest
  | colon => obtain rfl := Option.some.inj h; exact .colon rest
  | null => obtain rfl := Option.some.inj h; exact .word .null rest
  | bool b => obtain rfl := Option.some.inj h; exact .word (.bool b) rest

/-- A text that begins with a token begins with the spelling that the token has in every text. -/
lemma Begins.eq_append {token : Token} {text word rest : List Char} (h : Begins token text rest)
    (hspelling : token.spelling? = some word) : text = word ++ rest := by
  cases h with
  | string => cases hspelling
  | word hword =>
    cases hword with
    | null | bool => obtain rfl := Option.some.inj hspelling; rfl
    | number => cases hspelling
  | _ => obtain rfl := Option.some.inj hspelling; rfl

lemma begins_of_next? {text rest : List Char} {token : Token}
    (h : next? text = some (token, rest)) : Begins token text rest := by
  obtain ⟨word, hword, rfl⟩ | ⟨quoted, after, rfl, rfl, hread⟩ | ⟨numeral, rfl, hnumeral⟩ :=
    next?_cases h
  · exact begins_of_spelling? hword rest
  · exact .string hread
  · obtain ⟨word, rfl, hword⟩ := Numeral.spells_of_numeral? hnumeral
    exact .word (.number hword) rest

/-- The first token stands behind the blanks. -/
lemma begins_of_scan {text : List Char} {token : Token} {tokens : List Token}
    (h : scan text = some (token :: tokens)) :
    ∃ rest, Begins token (pastSpaces text) rest ∧ scan rest = some tokens := by
  obtain ⟨rest, hnext, hrest⟩ := scan_eq_cons_iff.1 h
  exact ⟨rest, begins_of_next? hnext, hrest⟩

lemma exists_blanks (text : List Char) :
    ∃ blanks, text = blanks ++ pastSpaces text ∧ ∀ c ∈ blanks, isSpace c = true :=
  ⟨text.takeWhile isSpace, List.takeWhile_append_dropWhile.symm,
    fun _ hc => List.mem_takeWhile_imp hc⟩

lemma pastSpaces_append {blanks : List Char} (h : ∀ c ∈ blanks, isSpace c = true)
    (text : List Char) : pastSpaces (blanks ++ text) = pastSpaces text :=
  List.dropWhile_append_of_pos h

lemma pastSpaces_pastSpaces (text : List Char) : pastSpaces (pastSpaces text) = pastSpaces text :=
  List.dropWhile_idempotent _ _

/-- A text without a blank at its front begins where its first token does. -/
lemma pastSpaces_cons {c : Char} (h : isSpace c = false) (text : List Char) :
    pastSpaces (c :: text) = c :: text :=
  List.dropWhile_cons_of_neg (by simp [h])

/-- Null, a truth value or a number. -/
def isPlain : Token → Bool
  | .null | .bool _ | .number _ => true
  | _ => false

/-- What comes behind an item or a member. -/
def endsItem : List Token → Bool
  | .comma :: _ | .closeBracket :: _ | .closeBrace :: _ => true
  | _ => false

/-- A character that passes a test is none of those that fail it. -/
lemma forall_ne_of_test {test : Char → Bool} {c : Char} {others : List Char} (hc : test c = true)
    (hothers : others.any test = false) : ∀ d ∈ others, c ≠ d := by
  rintro d hd rfl
  exact List.any_eq_false.1 hothers _ hd hc

/-- A character of names and numbers. -/
def isWordChar (c : Char) : Bool := Numeral.isNumberChar c || "nultrefas".toList.contains c

lemma IsWord.isWordChar {token : Token} {word : List Char} (h : IsWord token word) :
    ∀ c ∈ word, isWordChar c = true := by
  cases h with
  | null => exact List.all_eq_true.1 rfl
  | bool b => cases b <;> exact List.all_eq_true.1 rfl
  | number h =>
    intro c hc
    rw [Token.isWordChar, h.isNumberChar c hc, Bool.true_or]

/-- A name or a number begins with a letter or a digit, or with a sign before a digit. -/
lemma IsWord.exists_cons {token : Token} {word : List Char} (h : IsWord token word) :
    (∃ c rest, word = c :: rest ∧ c.isAlphanum = true) ∨
      ∃ c rest, word = '-' :: c :: rest ∧ c.isDigit = true := by
  cases h with
  | null => exact .inl ⟨_, _, rfl, by decide⟩
  | bool b => cases b <;> exact .inl ⟨_, _, rfl, by decide⟩
  | number h =>
    obtain ⟨c, rest, hc, rfl | rfl⟩ := Yaml.Scalar.exists_digit_of_spells h
    · exact .inl ⟨c, rest, rfl, by simp [Char.isAlphanum, hc]⟩
    · exact .inr ⟨c, rest, rfl, hc⟩

/-- Where a token begins there is no blank, no comment and no byte order mark. -/
lemma startsToken_of_scan {text : List Char} {tokens : List Token} (h : scan text = some tokens) :
    Yaml.Lexer.StartsToken (pastSpaces text) := by
  cases tokens with
  | nil =>
    rw [pastSpaces_of_scan_nil h]
    exact Yaml.Lexer.startsToken_nil
  | cons token tokens =>
    obtain ⟨rest, hbegins, -⟩ := begins_of_scan h
    generalize pastSpaces text = front at hbegins
    cases hbegins with
    | word hword rest =>
      intro c hc
      have hchar : isWordChar c = true := by
        obtain ⟨d, others, heq, -⟩ | ⟨d, others, heq, -⟩ := hword.exists_cons
        all_goals
          rw [heq] at hc
          obtain rfl := Option.some.inj hc
          exact hword.isWordChar _ (heq ▸ List.mem_cons_self)
      have hnone : ∀ d ∈ [' ', '\t', '\n', '\r', '\u0085', '\u2028', '\u2029', '#', '\ufeff'],
          c ≠ d := forall_ne_of_test hchar rfl
      simp only [List.forall_mem_cons] at hnone
      simp [Yaml.isSpace, Yaml.isBlank, Yaml.isBreak, hnone]
    | _ =>
      intro c hc
      obtain rfl := Option.some.inj hc
      decide

end Json.Token

namespace Yaml

open Json (Token.pastSpaces)

/-! ## Character classes -/

/-- A scalar goes on with any character of names and numbers. -/
lemma plain_of_isWordChar {c : Char} (h : Json.Token.isWordChar c = true) :
    isSpace c = false ∧ isFlowIndicator c = false ∧ c ≠ ':' := by
  have hnone : ∀ d ∈ [' ', '\t', '\n', '\r', '\u0085', '\u2028', '\u2029', ',', '[', ']', '{', '}',
      ':'], c ≠ d := Json.Token.forall_ne_of_test h rfl
  simp only [List.forall_mem_cons] at hnone
  simp [isSpace, isBlank, isBreak, isFlowIndicator, hnone]

/-- A blank of JSON is one of YAML. -/
lemma isSpace_of_json {c : Char} (h : Json.Token.isSpace c = true) : isSpace c = true := by
  simp only [Json.Token.isSpace, Bool.or_eq_true, decide_eq_true_eq] at h
  obtain ((rfl | rfl) | rfl) | rfl := h <;> decide

/-! ## Gaps and scalars -/

section Cursors

variable {blanks rest : List Char} {c : Cursor}

/-- What is skipped on a line is the longest run that satisfies the test. -/
lemma Cursor.exists_skip (c : Cursor) (test : Char → Bool) :
    ∃ run, (∀ ch ∈ run, test ch = true) ∧ c.text = run ++ (c.skip test).text ∧
      ∀ ch ∈ (c.skip test).text.head?, test ch = false := by
  have hdrop : (c.skip test).text = c.text.dropWhile test := by
    have happend : (c.text.takeWhile test ++ c.text.dropWhile test).drop
        (c.text.takeWhile test).length = c.text.dropWhile test := List.drop_left
    rwa [List.takeWhile_append_dropWhile] at happend
  rw [hdrop]
  refine ⟨c.text.takeWhile test, fun ch hch => List.mem_takeWhile_imp hch,
    List.takeWhile_append_dropWhile.symm, fun ch hch => ?_⟩
  have hnot := List.head?_dropWhile_not test c.text
  rw [Option.mem_def.1 hch] at hnot
  simpa using hnot

/-- A line end among the blanks of JSON takes some of them. -/
lemma Cursor.lineEnd_of_json {ch : Char} (hch : isBreak ch = true)
    (hblanks : ∀ d ∈ ch :: blanks, Json.Token.isSpace d = true)
    (hrest : ∀ d ∈ rest.head?, isSpace d = false) (htext : c.text = ch :: (blanks ++ rest)) :
    ∃ ending blanks' c', c.lineEnd = (ending, c') ∧ c'.text = blanks' ++ rest ∧
      blanks' <:+ blanks ∧ c'.size = c.size := by
  by_cases hreturn : ch = '\r' ∧ (blanks ++ rest).head? = some '\n'
  · obtain ⟨rfl, hfeed⟩ := hreturn
    cases blanks with
    | nil =>
      exact absurd (hrest '\n' hfeed) (by decide)
    | cons d blanks =>
      obtain rfl : d = '\n' := Option.some.inj hfeed
      have hend : c.lineEnd = (['\n'], c.breakLine 2 (blanks ++ rest)) := by
        rw [Cursor.lineEnd, htext]
        rfl
      exact ⟨_, blanks, _, hend, rfl, List.suffix_cons _ _, rfl⟩
  · have hend : c.lineEnd = (if ch = '\u2028' ∨ ch = '\u2029' then [ch] else ['\n'],
        c.breakLine ch.utf8Size (blanks ++ rest)) := by
      rw [Cursor.lineEnd, htext]
      split
      · next heq =>
        obtain ⟨rfl, hfeed⟩ := List.cons.inj heq
        exact absurd ⟨rfl, by rw [hfeed]; rfl⟩ hreturn
      · next heq =>
        obtain ⟨rfl, rfl⟩ := List.cons.inj heq
        rw [if_pos hch]
      · next heq => cases heq
    exact ⟨_, blanks, _, hend, rfl, List.suffix_rfl, rfl⟩

/-- The blanks of JSON are a gap of YAML. -/
lemma Gap.readUpTo_of_json {count : ℕ} (hblanks : ∀ d ∈ blanks, Json.Token.isSpace d = true)
    (hrest : ∀ d ∈ rest.head?, isSpace d = false) (hcount : blanks.length ≤ count) (gap : Gap)
    (htext : c.text = blanks ++ rest) :
    ∃ gap' c', Gap.readUpTo 0 count gap c = some (gap', c') ∧ c'.text = rest ∧
      c'.size = c.size := by
  -- a line end may take two characters, so the count is only a bound on what is left
  induction count generalizing blanks gap c with
  | zero =>
    obtain rfl := List.eq_nil_of_length_eq_zero (Nat.le_zero.1 hcount)
    exact ⟨gap, c, rfl, htext, rfl⟩
  | succ count ih =>
    cases blanks with
    | nil =>
      refine ⟨gap, c, ?_, htext, rfl⟩
      rw [List.nil_append] at htext
      cases rest with
      | nil => simp [Gap.readUpTo, htext]
      | cons ch rest =>
        have hsolid := Bool.or_eq_false_iff.1 (hrest ch rfl)
        simp [Gap.readUpTo, htext, hsolid]
    | cons ch blanks =>
      obtain ⟨hch, hlater⟩ := List.forall_mem_cons.1 hblanks
      rw [List.length_cons] at hcount
      rw [List.cons_append] at htext
      cases hblank : isBlank ch with
      | true =>
        have hnext : (c.advance 1).text = blanks ++ rest := by
          rw [Cursor.advance, htext]
          rfl
        simp only [Gap.readUpTo, htext, hblank, if_true, Nat.not_lt_zero, false_and, if_false]
        split_ifs
        · exact ih hlater (by omega) _ hnext
        · exact ih hlater (by omega) _ hnext
      | false =>
        have hbreak : isBreak ch = true := by
          have hspace := isSpace_of_json hch
          rwa [isSpace, hblank, Bool.false_or] at hspace
        obtain ⟨ending, blanks', c', hend, hc', hsuffix, hsize⟩ :=
          Cursor.lineEnd_of_json hbreak hblanks hrest htext
        have hlater' : ∀ d ∈ blanks', Json.Token.isSpace d = true :=
          fun d hd => hlater d (hsuffix.subset hd)
        have hlength := hsuffix.length_le
        simp only [Gap.readUpTo, htext, hblank, hbreak, hend, Bool.false_eq_true, if_false, if_true]
        rw [← hsize]
        split_ifs
        · exact ih hlater' (by omega) _ hc'
        · exact ih hlater' (by omega) _ hc'

/-- What ends a name or a number between brackets, behind blanks. -/
def EndsWord (text : List Char) : Prop :=
  ∃ c rest, text = c :: rest ∧ isFlowIndicator c = true

/-- A piece of a plain scalar is a whole word. -/
lemma Scalar.plainPiece_flow {word : List Char}
    (hword : ∀ ch ∈ word, Json.Token.isWordChar ch = true)
    (hrest : ∀ ch ∈ rest.head?, isSpace ch = true ∨ isFlowIndicator ch = true) :
    plainPiece true (word ++ rest) = some word := by
  induction word with
  | nil =>
    cases rest with
    | nil => rfl
    | cons ch rest =>
      rcases hrest ch rfl with hspace | hflow
      · simp [plainPiece, hspace]
      · have hcolon : ch ≠ ':' := by
          rintro rfl
          cases hflow
        simp [plainPiece, hflow, hcolon]
  | cons ch word ih =>
    obtain ⟨hch, hlater⟩ := List.forall_mem_cons.1 hword
    obtain ⟨hspace, hflow, hcolon⟩ := plain_of_isWordChar hch
    simp [plainPiece, hspace, hflow, hcolon, ih hlater]

lemma EndsWord.isSpace (h : EndsWord rest) : ∀ ch ∈ rest.head?, isSpace ch = false := by
  obtain ⟨d, after, rfl, hd⟩ := h
  intro ch hch
  obtain rfl := Option.some.inj hch
  simp only [isFlowIndicator, Bool.or_eq_true, decide_eq_true_eq] at hd
  obtain (((rfl | rfl) | rfl) | rfl) | rfl := hd <;> decide

/-- A plain scalar does not go on where a word ends. -/
lemma Scalar.plainFrom_endsWord (h : EndsWord c.text) (fuel : ℕ) (gap : Gap) :
    plainFrom true 0 fuel gap c = some ⟨[], c, gap.broken⟩ := by
  cases fuel with
  | zero => rfl
  | succ fuel =>
    have hpiece : plainPiece true c.text = some [] := by
      obtain ⟨d, after, htext, hd⟩ := h
      have hstop : plainPiece true ([] ++ d :: after) = some [] :=
        plainPiece_flow nofun fun ch hch => by
          obtain rfl := Option.some.inj hch
          exact .inr hd
      rw [htext]
      exact hstop
    rw [plainFrom, hpiece]
    split_ifs <;> rfl

/-- A word is one piece, whether blanks follow it or what ends it. -/
lemma Scalar.plainPiece_of_endsWord {word : List Char}
    (hword : ∀ ch ∈ word, Json.Token.isWordChar ch = true)
    (hends : EndsWord (Json.Token.pastSpaces rest)) :
    plainPiece true (word ++ rest) = some word := by
  obtain ⟨blanks, hsplit, hblanks⟩ := Json.Token.exists_blanks rest
  refine plainPiece_flow hword fun ch hch => ?_
  rw [hsplit] at hch
  cases blanks with
  | nil =>
    obtain ⟨d, after, hrest, hd⟩ := hends
    rw [List.nil_append, hrest] at hch
    obtain rfl := Option.some.inj hch
    exact .inr hd
  | cons d blanks =>
    obtain rfl := Option.some.inj hch
    exact .inl (isSpace_of_json (hblanks _ List.mem_cons_self))

/-- A name or a number of JSON is a plain scalar; the blanks behind it are read with it. -/
lemma Scalar.plain?_word {word : List Char}
    (hword : ∀ ch ∈ word, Json.Token.isWordChar ch = true) (hne : word ≠ [])
    (hends : EndsWord (Json.Token.pastSpaces rest)) (hmark : c.atDocumentMark = false)
    (htext : c.text = word ++ rest) :
    ∃ plain, plain? true 0 c = some plain ∧ plain.text = word ∧
      plain.cursor.text = Json.Token.pastSpaces rest ∧ plain.cursor.size = c.size := by
  obtain ⟨blanks, hsplit, hblanks⟩ := Json.Token.exists_blanks rest
  have hpiece : plainPiece true c.text = some word := by
    rw [htext]
    exact plainPiece_of_endsWord hword hends
  have hhash : c.next (· = '#') = false := by
    obtain ⟨ch, others, rfl⟩ := List.exists_cons_of_ne_nil hne
    have hch : ch ≠ '#' := by
      rintro rfl
      exact absurd (hword '#' List.mem_cons_self) (by decide)
    simp [Cursor.next, htext, hch]
  have hafter : (c.advance word.length).text = rest := by
    rw [Cursor.advance, htext, List.drop_left]
  obtain ⟨ch, others, rfl⟩ := List.exists_cons_of_ne_nil hne
  rw [plain?, plainFrom, hmark, hhash, hpiece]
  simp only [Bool.or_self, Bool.false_eq_true, if_false]
  -- what ends the word stands at once behind it, or behind blanks that are read with it
  cases hspace : (c.advance (ch :: others).length).next isSpace with
  | false =>
    refine ⟨_, rfl, by simp [Plain.append, Gap.folded], ?_, rfl⟩
    have hnone : blanks = [] := by
      cases blanks with
      | nil => rfl
      | cons d blanks =>
        rw [Cursor.next, hafter, hsplit, List.cons_append] at hspace
        exact absurd (isSpace_of_json (hblanks d List.mem_cons_self)) (by simp [hspace])
    rw [hnone, List.nil_append] at hsplit
    exact hafter.trans hsplit
  | true =>
    have hlength : blanks.length ≤ (c.advance (ch :: others).length).spaces := by
      rw [Cursor.spaces, hafter, hsplit, takeWhile_append_of_stop
        (fun d hd => isSpace_of_json (hblanks d hd)) hends.isSpace]
    obtain ⟨gap, c', hgap, hc', hsize⟩ := Gap.readUpTo_of_json hblanks hends.isSpace hlength {}
      (hafter.trans hsplit)
    have hread : Gap.read 0 {} (c.advance (ch :: others).length) = some (gap, c') := hgap
    have hstop := plainFrom_endsWord (c := c') (by rw [hc']; exact hends) c.size gap
    refine ⟨_, by simp only [Bool.not_true, Bool.false_and, hread, hstop]; rfl,
      by simp [Plain.append, Gap.folded], hc', hsize⟩

end Cursors

/-! ## Going to the next token -/

namespace Lexer

open Json.Token (pastSpaces pastSpaces_append pastSpaces_pastSpaces pastSpaces_cons)

variable {text : List Char} {c : Cursor}

/-- A blank of JSON comes next, or the token. -/
lemma head?_of_startsToken (h : StartsToken (pastSpaces text)) : ∀ ch ∈ text.head?,
    ch ≠ '\ufeff' ∧ ch ≠ '#' ∧
      (Json.Token.isSpace ch = true ∨ isSpace ch = false ∧ pastSpaces text = text) := by
  intro ch hch
  obtain ⟨rest, rfl⟩ := List.head?_eq_some_iff.1 hch
  cases hspace : Json.Token.isSpace ch with
  | true =>
    refine ⟨?_, ?_, .inl rfl⟩ <;> rintro rfl <;> revert hspace <;> decide
  | false =>
    have hpast := pastSpaces_cons hspace rest
    obtain ⟨hsolid, hhash, hmark⟩ := h ch (by rw [hpast]; rfl)
    exact ⟨hmark, hhash, .inr ⟨hsolid, hpast⟩⟩

/-- Neither a byte order mark nor a comment comes next. -/
lemma next_of_startsToken (h : StartsToken (pastSpaces c.text)) :
    c.next (· = '\ufeff') = false ∧ c.next (· = '#') = false := by
  cases htext : c.text with
  | nil => simp [Cursor.next, htext]
  | cons ch rest =>
    obtain ⟨hmark, hhash, -⟩ := head?_of_startsToken h ch (by rw [htext]; rfl)
    simp [Cursor.next, htext, hmark, hhash]

/-- A line end is a blank of JSON, and on the next line the same token follows. -/
lemma nextLine_of_startsToken {ch : Char} {rest : List Char} (hbreak : isBreak ch = true)
    (htext : c.text = ch :: rest) (h : StartsToken (pastSpaces c.text)) :
    c.nextLine.size = c.size ∧ c.nextLine.text.length < c.text.length ∧
      pastSpaces c.nextLine.text = pastSpaces c.text := by
  have hspace : Json.Token.isSpace ch = true := by
    obtain ⟨-, -, hspace | ⟨hsolid, -⟩⟩ := head?_of_startsToken h ch (by rw [htext]; rfl)
    · exact hspace
    · rw [isSpace, hbreak, Bool.or_true] at hsolid
      cases hsolid
  have hskip : pastSpaces c.text = pastSpaces rest := by
    rw [htext]
    exact List.dropWhile_cons_of_pos hspace
  rw [hskip] at h ⊢
  obtain ⟨blanks, hrest, hblanks⟩ := Json.Token.exists_blanks rest
  have hcut : c.text = ch :: (blanks ++ pastSpaces rest) := htext.trans (by rw [← hrest])
  obtain ⟨ending, later, c', hend, hc', hsuffix, hsize⟩ := Cursor.lineEnd_of_json hbreak
    (List.forall_mem_cons.2 ⟨hspace, hblanks⟩) h.isSpace hcut
  have hnext : c.nextLine = c' := congrArg Prod.snd hend
  have hlength := hsuffix.length_le
  refine ⟨hnext ▸ hsize, ?_, ?_⟩
  · rw [hnext, hc', hcut, List.length_cons, List.length_append, List.length_append]
    omega
  · rw [hnext, hc', pastSpaces_append fun d hd => hblanks d (hsuffix.subset hd),
      pastSpaces_pastSpaces]

/-- Of the blanks of JSON on a line only a tab may be left. -/
lemma head?_of_skip {inFlow keyAllowed : Bool} {ch : Char}
    (hspace : Json.Token.isSpace ch = true) (hbreak : isBreak ch = false)
    (hstop : (ch = ' ' || ((inFlow || !keyAllowed) && ch = '\t')) = false) :
    inFlow = false ∧ ch = '\t' := by
  simp only [Json.Token.isSpace, Bool.or_eq_true, decide_eq_true_eq] at hspace
  obtain ((rfl | rfl) | rfl) | rfl := hspace
  · simp at hstop
  · simp only [decide_true, Bool.and_true, Bool.or_eq_false_iff] at hstop
    exact ⟨hstop.2.1, rfl⟩
  · cases hbreak
  · cases hbreak

/-- Blanks of JSON are skipped from one place to another: between brackets up to the next token, and
elsewhere too, unless a tab stands where a key may begin. -/
structure Skips (inFlow keyAllowed : Bool) (c : Cursor) (keyAllowed' : Bool) (c' : Cursor) :
    Prop where
  size : c'.size = c.size
  length_le : c'.text.length ≤ c.text.length
  past : pastSpaces c'.text = pastSpaces c.text
  allowed : inFlow = true → keyAllowed' = keyAllowed
  stops : c'.text = pastSpaces c.text ∨ inFlow = false ∧ c'.text.head? = some '\t'

/-- Where the reader stops on a line, it stands at the token, or at a tab. -/
lemma Skips.of_stop {inFlow keyAllowed : Bool} {ch : Char} {rest : List Char}
    (htext : c.text = ch :: rest) (hstart : StartsToken (pastSpaces c.text))
    (hbreak : isBreak ch = false)
    (hstop : (ch = ' ' || ((inFlow || !keyAllowed) && ch = '\t')) = false) :
    Skips inFlow keyAllowed c keyAllowed c := by
  refine ⟨rfl, le_rfl, rfl, fun _ => rfl, ?_⟩
  obtain ⟨-, -, hspace | ⟨-, hsame⟩⟩ := head?_of_startsToken hstart ch (by rw [htext]; rfl)
  · obtain ⟨hflow, rfl⟩ := head?_of_skip hspace hbreak hstop
    exact .inr ⟨hflow, by rw [htext]; rfl⟩
  · exact .inl hsame.symm

/-- The next line is read like this one, except that outside brackets a key may begin there. -/
lemma Skips.nextLine {inFlow keyAllowed keyAllowed' : Bool} {c' : Cursor} {ch : Char}
    {rest : List Char} (hbreak : isBreak ch = true) (htext : c.text = ch :: rest)
    (hstart : StartsToken (pastSpaces c.text))
    (h : Skips inFlow (keyAllowed || !inFlow) c.nextLine keyAllowed' c') :
    Skips inFlow keyAllowed c keyAllowed' c' := by
  obtain ⟨hsize, hshorter, hpast⟩ := nextLine_of_startsToken hbreak htext hstart
  refine ⟨h.size.trans hsize, h.length_le.trans hshorter.le, h.past.trans hpast, fun hflow => ?_,
    hpast ▸ h.stops⟩
  rw [h.allowed hflow, hflow, Bool.not_true, Bool.or_false]

/-- The blanks before a token are skipped. -/
lemma skipFrom_json (inFlow : Bool) {fuel : ℕ} (keyAllowed : Bool) (hfuel : c.text.length < fuel)
    (hstart : StartsToken (pastSpaces c.text)) :
    ∃ keyAllowed' c', skipFrom inFlow fuel keyAllowed c = (keyAllowed', c') ∧
      Skips inFlow keyAllowed c keyAllowed' c' := by
  -- line by line, as the reader goes: the blanks of a line, and then perhaps its end
  induction fuel generalizing keyAllowed c with
  | zero => omega
  | succ fuel ih =>
    have hmark : (c.column = 0 && c.next (· = '\ufeff')) = false := by
      rw [(next_of_startsToken hstart).1, Bool.and_false]
    -- the blanks of the line
    generalize htest : (fun ch : Char => ch = ' ' || ((inFlow || !keyAllowed) && ch = '\t')) = test
    have hblank : ∀ ch, test ch = true → Json.Token.isSpace ch = true := by
      subst htest
      simp only [Bool.or_eq_true, decide_eq_true_eq, Bool.and_eq_true]
      rintro ch (rfl | ⟨-, rfl⟩) <;> decide
    obtain ⟨line, hline, hsplit, hstop⟩ := Cursor.exists_skip c test
    have hpast : pastSpaces (c.skip test).text = pastSpaces c.text := by
      rw [hsplit, pastSpaces_append fun ch hch => hblank ch (hline ch hch)]
    have hlength : (c.skip test).text.length ≤ c.text.length := by
      rw [hsplit, List.length_append]
      omega
    have hsize : (c.skip test).size = c.size := rfl
    rw [skipFrom, hmark, if_neg Bool.false_ne_true, htest]
    generalize c.skip test = c₁ at hstop hpast hlength hsize ⊢
    rw [← hpast] at hstart
    suffices hskips : ∃ keyAllowed' c', (if c₁.next isBreak then skipFrom inFlow fuel
        (keyAllowed || !inFlow) c₁.nextLine else (keyAllowed, c₁)) = (keyAllowed', c') ∧
          Skips inFlow keyAllowed c₁ keyAllowed' c' by
      rw [(next_of_startsToken hstart).2, if_neg Bool.false_ne_true]
      obtain ⟨keyAllowed', c', hfrom, hskips⟩ := hskips
      exact ⟨keyAllowed', c', hfrom, hskips.size.trans hsize, hskips.length_le.trans hlength,
        hskips.past.trans hpast, hskips.allowed, hpast ▸ hskips.stops⟩
    cases htext : c₁.text with
    | nil =>
      exact ⟨keyAllowed, c₁, by simp [Cursor.next, htext], rfl, le_rfl, rfl, fun _ => rfl,
        .inl (by rw [htext]; rfl)⟩
    | cons ch rest =>
      have hnext : c₁.next isBreak = isBreak ch := by simp [Cursor.next, htext]
      rw [hnext]
      cases hbreak : isBreak ch with
      | false =>
        have hleft := hstop ch (by rw [htext]; rfl)
        subst htest
        exact ⟨keyAllowed, c₁, rfl, .of_stop htext hstart hbreak hleft⟩
      | true =>
        obtain ⟨-, hshorter, hpast'⟩ := nextLine_of_startsToken hbreak htext hstart
        obtain ⟨keyAllowed', c', hfrom, hskips⟩ :=
          ih (c := c₁.nextLine) (keyAllowed || !inFlow) (by omega) (by rwa [hpast'])
        exact ⟨keyAllowed', c', hfrom, hskips.nextLine hbreak htext hstart⟩

/-! ## States -/

/-- How far both readers are: `js` remain for the JSON reader, and the YAML reader has read
`tokens`, the last first, and stands in as many open brackets as `depth` says. -/
structure At (s : Lexer) (depth : ℕ) (js : List Json.Token) (tokens : List Token) : Prop where
  scan : Json.Token.scan s.cursor.text = some js
  bounded : s.cursor.text.length ≤ s.cursor.size
  tokens : s.tokens = tokens
  depth : s.brackets.length = depth
  counted : s.count = s.tokens.length
  indent : s.indent = -1
  block : ∀ candidate ∈ s.block, candidate.required = false
  brackets : ∀ level ∈ s.brackets, ∀ candidate ∈ level, candidate.required = false

variable {s t : Lexer} {depth : ℕ} {js : List Json.Token} {tokens : List Token}

lemma At.inFlow (h : At s (depth + 1) js tokens) : s.inFlow = true := by
  have hlevels : s.brackets ≠ [] := List.ne_nil_of_length_eq_add_one h.depth
  simp [Lexer.inFlow, hlevels]

lemma unwind_eq (h : s.indent = -1) {column : ℤ} (hcolumn : -1 ≤ column) :
    s.unwind column = s := by
  have hnot : ¬column < s.indent := by omega
  obtain ⟨cursor, tokens, count, indent, outer, block, brackets, keyAllowed⟩ := s
  rw [unwind]
  split_ifs
  · rfl
  · cases outer with
    | nil => rfl
    | cons next outer => simp only [unwindFrom, hnot, if_false]

lemma keepFresh?_eq {level : Option Candidate}
    (h : ∀ candidate ∈ level, candidate.required = false) :
    s.keepFresh? level = some (level.filter fun candidate => !s.isStale candidate) := by
  cases level with
  | none => rfl
  | some candidate =>
    have hrequired := h candidate rfl
    cases hstale : s.isStale candidate <;> simp [keepFresh?, Option.filter_some, hstale, hrequired]

/-- Nothing that is required is given up. -/
lemma At.dropStale? (h : At s depth js tokens) : ∃ t, s.dropStale? = some t ∧
    At t depth js tokens ∧ t.cursor = s.cursor ∧ t.keyAllowed = s.keyAllowed ∧
      ∀ candidate ∈ t.candidate, candidate ∈ s.candidate := by
  have hbrackets : s.brackets.mapM s.keepFresh? =
      some (s.brackets.map (Option.filter fun candidate => !s.isStale candidate)) := by
    rw [mapM_eq_some_iff, List.forall₂_map_right_iff]
    exact List.forall₂_same.2 fun level hlevel => keepFresh?_eq (h.brackets level hlevel)
  refine ⟨_, dropStale?_eq (keepFresh?_eq h.block) hbrackets, ?_, rfl, rfl, ?_⟩
  · refine ⟨h.scan, h.bounded, h.tokens, by simpa using h.depth, h.counted, h.indent, ?_, ?_⟩
    · intro candidate hcandidate
      exact h.block candidate (Option.filter_eq_some_iff.1 hcandidate).1
    · intro level hlevel candidate hcandidate
      obtain ⟨other, hother, rfl⟩ := List.mem_map.1 hlevel
      exact h.brackets other hother candidate (Option.filter_eq_some_iff.1 hcandidate).1
  · intro candidate hcandidate
    unfold Lexer.candidate at hcandidate ⊢
    cases hlevels : s.brackets with
    | nil =>
      simp only [hlevels, List.map_nil] at hcandidate
      exact (Option.filter_eq_some_iff.1 hcandidate).1
    | cons innermost others =>
      simp only [hlevels, List.map_cons] at hcandidate
      exact (Option.filter_eq_some_iff.1 hcandidate).1

/-- No token begins with a tab. -/
lemma token?_tab (h : s.cursor.text.head? = some '\t') : s.token? = none := by
  obtain ⟨rest, htext⟩ := List.head?_eq_some_iff.1 h
  have hspace : isSpace '\t' = true := by decide
  simp [token?, htext, Cursor.atMark, startsPlain, Cursor.spaceAhead, Cursor.next, hspace]

/-- The next token is read where the JSON reader reads it. -/
lemma At.exists_token? (h : At s depth js tokens) {u : Lexer} (hstep : s.step? = some u) :
    ∃ t, t.token? = some u ∧ At t depth js tokens ∧ t.cursor.text = pastSpaces s.cursor.text ∧
      (0 < depth → t.keyAllowed = s.keyAllowed) ∧
      ∀ candidate ∈ t.candidate, candidate ∈ s.candidate := by
  obtain ⟨keyAllowed, c, hskip, hskips⟩ := skipFrom_json s.inFlow s.keyAllowed
    (Nat.lt_succ_of_le h.bounded) (Json.Token.startsToken_of_scan h.scan)
  have hstate : s.skip = { s with keyAllowed, cursor := c } := by
    rw [Lexer.skip, hskip]
  have hat : At { s with keyAllowed, cursor := c } depth js tokens := by
    refine { h with scan := ?_, bounded := ?_ }
    · rw [← h.scan, ← Json.Token.scan_pastSpaces, hskips.past, Json.Token.scan_pastSpaces]
    · simpa [hskips.size] using hskips.length_le.trans h.bounded
  obtain ⟨t, ht, hatt, hcursor, hkey, hcandidate⟩ := hat.dropStale?
  rw [step?, hstate, ht, Option.bind_some, unwind_eq hatt.indent (by omega)] at hstep
  have hplace : t.cursor.text = pastSpaces s.cursor.text := by
    rcases hskips.stops with htext | ⟨-, htab⟩
    · rw [hcursor]
      exact htext
    · rw [token?_tab (by rw [hcursor]; exact htab)] at hstep
      cases hstep
  refine ⟨t, hstep, hatt, hplace, fun hdepth => ?_, hcandidate⟩
  rw [hkey]
  refine hskips.allowed ?_
  rw [← h.depth] at hdepth
  simpa [Lexer.inFlow] using List.length_pos_iff.1 hdepth

/-! ## Candidates -/

section Candidates

variable {candidate : Option Candidate}

@[simp]
lemma setCandidate_cursor : (s.setCandidate candidate).cursor = s.cursor := by
  unfold setCandidate
  split <;> rfl

@[simp]
lemma setCandidate_count : (s.setCandidate candidate).count = s.count := by
  unfold setCandidate
  split <;> rfl

@[simp]
lemma setCandidate_candidate : (s.setCandidate candidate).candidate = candidate := by
  obtain ⟨cursor, tokens, count, indent, outer, block, brackets, keyAllowed⟩ := s
  cases brackets <;> rfl

@[simp]
lemma setCandidate_setCandidate {other : Option Candidate} :
    (s.setCandidate other).setCandidate candidate = s.setCandidate candidate := by
  obtain ⟨cursor, tokens, count, indent, outer, block, brackets, keyAllowed⟩ := s
  cases brackets <;> rfl

lemma setCandidate_self : s.setCandidate s.candidate = s := by
  obtain ⟨cursor, tokens, count, indent, outer, block, brackets, keyAllowed⟩ := s
  cases brackets <;> rfl

lemma At.setCandidate (h : At s depth js tokens)
    (hcandidate : ∀ found ∈ candidate, found.required = false) :
    At (s.setCandidate candidate) depth js tokens := by
  obtain ⟨cursor, read, count, indent, outer, block, brackets, keyAllowed⟩ := s
  cases brackets with
  | nil => exact { h with block := hcandidate }
  | cons innermost others =>
    refine { h with depth := h.depth, brackets := ?_ }
    exact List.forall_mem_cons.2 ⟨hcandidate, (List.forall_mem_cons.1 h.brackets).2⟩

lemma At.required (h : At s depth js tokens) :
    ∀ found ∈ s.candidate, found.required = false := by
  obtain ⟨cursor, read, count, indent, outer, block, brackets, keyAllowed⟩ := s
  cases brackets with
  | nil => exact h.block
  | cons innermost others => exact h.brackets innermost List.mem_cons_self

lemma At.dropCandidate? (h : At s depth js tokens) :
    s.dropCandidate? = some (s.setCandidate none) := by
  unfold Lexer.dropCandidate?
  split
  · next found hfound => rw [h.required found hfound, if_neg Bool.false_ne_true]
  · next hnone => rw [← hnone, setCandidate_self]

/-- Where a key may begin, its place is noted. -/
lemma At.noteCandidate? (h : At s depth js tokens) : ∃ candidate,
    s.noteCandidate? = some (s.setCandidate candidate) ∧
      At (s.setCandidate candidate) depth js tokens ∧ (s.keyAllowed = true →
        ∃ found, candidate = some found ∧ found.position = tokens.length) := by
  unfold Lexer.noteCandidate?
  cases hkey : s.keyAllowed with
  | false => exact ⟨s.candidate, by rw [setCandidate_self]; rfl, h.setCandidate h.required, nofun⟩
  | true =>
    have hrequired : (!s.inFlow && decide (s.indent = (s.cursor.column : ℤ))) = false := by
      have hne : s.indent ≠ s.cursor.column := by
        rw [h.indent]
        omega
      rw [decide_eq_false hne, Bool.and_false]
    refine ⟨some ⟨false, s.count, s.cursor.index, s.cursor.line, s.cursor.column⟩, ?_,
      h.setCandidate ?_, fun _ => ⟨_, rfl, ?_⟩⟩
    · simp [hrequired, h.dropCandidate?]
    · simp
    · exact h.counted.trans (by rw [h.tokens])

end Candidates

/-! ## Steps -/

section Steps

variable {rest : List Char} {u : Lexer}

/-- Behind a token. -/
lemma At.emit (h : At s depth js tokens) {c : Cursor} {js' : List Json.Token}
    (hscan : Json.Token.scan c.text = some js') (hlength : c.text.length ≤ s.cursor.text.length)
    (hsize : c.size = s.cursor.size) (keyAllowed : Bool) (token : Token) :
    At ({ s with cursor := c, keyAllowed }.emit token) depth js' (token :: tokens) where
  scan := hscan
  bounded := by
    have := h.bounded
    simp only [Lexer.emit]
    omega
  tokens := by rw [Lexer.emit, h.tokens]
  depth := h.depth
  counted := by simp [Lexer.emit, h.counted]
  indent := h.indent
  block := h.block
  brackets := h.brackets

/-- Behind a mark of one character. -/
lemma At.mark (h : At s depth js tokens) {ch : Char} (htext : s.cursor.text = ch :: rest)
    {js' : List Json.Token} (hscan : Json.Token.scan rest = some js') (keyAllowed : Bool)
    (token : Token) : At ({ s with keyAllowed }.take 1 token) depth js' (token :: tokens) := by
  have hrest : (s.cursor.advance 1).text = rest := by
    rw [Cursor.advance, htext]
    rfl
  exact h.emit (c := s.cursor.advance 1) (by rw [hrest]; exact hscan) (by simp [hrest, htext]) rfl
    keyAllowed token

lemma At.open (h : At s depth js tokens) :
    At { s with brackets := none :: s.brackets } (depth + 1) js tokens :=
  { h with
    depth := by simp [h.depth]
    brackets := List.forall_mem_cons.2 ⟨nofun, h.brackets⟩ }

lemma At.close (h : At s (depth + 1) js tokens) :
    At { s with brackets := s.brackets.drop 1 } depth js tokens :=
  { h with
    depth := by simp [h.depth]
    brackets := fun level hlevel => h.brackets level (List.mem_of_mem_drop hlevel) }

/-- An opening bracket. -/
lemma At.openBracket? (h : At s depth js tokens) {ch : Char} (htext : s.cursor.text = ch :: rest)
    {js' : List Json.Token} (hscan : Json.Token.scan rest = some js') {token : Token}
    (hopen : s.openBracket? token = some u) :
    At u (depth + 1) js' (token :: tokens) ∧ u.keyAllowed = true := by
  obtain ⟨candidate, hnote, hat, -⟩ := h.noteCandidate?
  rw [Lexer.openBracket?, hnote] at hopen
  obtain rfl := Option.some.inj hopen
  exact ⟨hat.open.mark (by simpa using htext) hscan true token, rfl⟩

/-- A closing bracket. -/
lemma At.closeBracket? (h : At s (depth + 1) js tokens) {ch : Char}
    (htext : s.cursor.text = ch :: rest) {js' : List Json.Token}
    (hscan : Json.Token.scan rest = some js') {token : Token}
    (hclose : s.closeBracket? token = some u) : At u depth js' (token :: tokens) := by
  rw [Lexer.closeBracket?, h.dropCandidate?] at hclose
  obtain rfl := Option.some.inj hclose
  exact (h.setCandidate (by simp)).close.mark (by simpa using htext) hscan false token

/-- The token that both read next. -/
lemma At.exists_begins {token : Json.Token} (h : At s depth (token :: js) tokens)
    (hstep : s.step? = some u) : ∃ t rest, t.token? = some u ∧
      At t depth (token :: js) tokens ∧ Json.Token.Begins token t.cursor.text rest ∧
      Json.Token.scan rest = some js ∧ (0 < depth → t.keyAllowed = s.keyAllowed) ∧
      ∀ candidate ∈ t.candidate, candidate ∈ s.candidate := by
  obtain ⟨t, htoken, hat, htext, hkey, hcandidate⟩ := h.exists_token? hstep
  obtain ⟨rest, hbegins, hscan⟩ := Json.Token.begins_of_scan h.scan
  exact ⟨t, rest, htoken, hat, htext ▸ hbegins, hscan, hkey, hcandidate⟩

/-- The mark that both read next. -/
lemma At.exists_mark {token : Json.Token} {ch : Char} (h : At s depth (token :: js) tokens)
    (hmark : token.spelling? = some [ch]) (hstep : s.step? = some u) :
    ∃ t rest, t.token? = some u ∧ At t depth (token :: js) tokens ∧ t.cursor.text = ch :: rest ∧
      Json.Token.scan rest = some js ∧ ∀ candidate ∈ t.candidate, candidate ∈ s.candidate := by
  obtain ⟨t, rest, htoken, hat, hbegins, hscan, -, hcandidate⟩ := h.exists_begins hstep
  exact ⟨t, rest, htoken, hat, hbegins.eq_append hmark, hscan, hcandidate⟩

lemma At.step_openBrace (h : At s depth (.openBrace :: js) tokens) (hstep : s.step? = some u) :
    At u (depth + 1) js (.flowMappingStart :: tokens) ∧ u.keyAllowed = true := by
  obtain ⟨t, rest, htoken, hat, htext, hscan, -⟩ := h.exists_mark rfl hstep
  have hopen : t.token? = t.openBracket? .flowMappingStart := by
    simp [token?, htext, Cursor.atMark]
  exact hat.openBracket? htext hscan (hopen ▸ htoken)

lemma At.step_openBracket (h : At s depth (.openBracket :: js) tokens)
    (hstep : s.step? = some u) :
    At u (depth + 1) js (.flowSequenceStart :: tokens) := by
  obtain ⟨t, rest, htoken, hat, htext, hscan, -⟩ := h.exists_mark rfl hstep
  have hopen : t.token? = t.openBracket? .flowSequenceStart := by
    simp [token?, htext, Cursor.atMark]
  exact (hat.openBracket? htext hscan (hopen ▸ htoken)).1

lemma At.step_closeBrace (h : At s (depth + 1) (.closeBrace :: js) tokens)
    (hstep : s.step? = some u) : At u depth js (.flowMappingEnd :: tokens) := by
  obtain ⟨t, rest, htoken, hat, htext, hscan, -⟩ := h.exists_mark rfl hstep
  have hclose : t.token? = t.closeBracket? .flowMappingEnd := by
    simp [token?, htext, Cursor.atMark]
  exact hat.closeBracket? htext hscan (hclose ▸ htoken)

lemma At.step_closeBracket (h : At s (depth + 1) (.closeBracket :: js) tokens)
    (hstep : s.step? = some u) : At u depth js (.flowSequenceEnd :: tokens) := by
  obtain ⟨t, rest, htoken, hat, htext, hscan, -⟩ := h.exists_mark rfl hstep
  have hclose : t.token? = t.closeBracket? .flowSequenceEnd := by
    simp [token?, htext, Cursor.atMark]
  exact hat.closeBracket? htext hscan (hclose ▸ htoken)

lemma At.step_comma (h : At s depth (.comma :: js) tokens) (hstep : s.step? = some u) :
    At u depth js (.flowEntry :: tokens) ∧ u.keyAllowed = true := by
  obtain ⟨t, rest, htoken, hat, htext, hscan, -⟩ := h.exists_mark rfl hstep
  have hentry : t.token? = t.flowEntry? := by simp [token?, htext, Cursor.atMark]
  rw [hentry, Lexer.flowEntry?, hat.dropCandidate?] at htoken
  obtain rfl := Option.some.inj htoken
  exact ⟨(hat.setCandidate (by simp)).mark (by simpa using htext) hscan true _, rfl⟩

/-- A string that both read alike is one scalar.  Where a key may begin, its place is noted. -/
lemma At.step_string {quoted : Quoted} (h : At s (depth + 1) (.string quoted :: js) tokens)
    (halike : quoted.ReadsAlike) (hstep : s.step? = some u) :
    ∃ text, quoted.text? = some text ∧
      At u (depth + 1) js (.scalar .doubleQuoted text :: tokens) ∧ (s.keyAllowed = true →
        ∃ found, u.candidate = some found ∧ found.position = tokens.length) := by
  obtain ⟨t, rest, htoken, hat, hbegins, hscan, hkey, -⟩ := h.exists_begins hstep
  generalize htext : t.cursor.text = text at hbegins
  cases hbegins with
  | word hword => cases hword
  | @string _ body _ hread =>
    have hscalar : t.token? = t.quotedScalar? .doubleQuoted := by
      simp [token?, htext, Cursor.atMark]
    obtain ⟨candidate, hnote, hnoted, hplace⟩ := hat.noteCandidate?
    rw [hscalar, Lexer.quotedScalar?, Lexer.property?, hnote] at htoken
    cases hquoted : Scalar.quoted? false t.cursor with
    | none => simp [hquoted] at htoken
    | some found =>
      obtain ⟨content, c⟩ := found
      obtain ⟨hcontent, hrest, hsize⟩ := Scalar.quoted?_of_read htext hread halike hquoted
      have hlength : c.text.length ≤ t.cursor.text.length := by
        have := Json.Token.length_of_quoted hread
        rw [hrest, htext, List.length_cons]
        omega
      simp only [reduceCtorEq, decide_false, hquoted, Option.map_some, Option.some.injEq] at htoken
      subst htoken
      refine ⟨_, hcontent, hnoted.emit (by rw [hrest]; exact hscan) (by simpa using hlength)
        (by simpa using hsize) false _, fun hallowed => ?_⟩
      obtain ⟨found, rfl, hposition⟩ := hplace ((hkey (Nat.succ_pos _)).trans hallowed)
      exact ⟨found, setCandidate_candidate, hposition⟩

/-- The token of a key, put in front of the last token. -/
lemma At.insertKey {token : Token} (h : At s depth js (token :: tokens)) :
    At (s.insertAt tokens.length .key) depth js (token :: .key :: tokens) := by
  have hcount : s.count = tokens.length + 1 := h.counted.trans (by rw [h.tokens]; rfl)
  refine { h with tokens := ?_, counted := ?_ }
  · simp [insertAt, h.tokens, hcount]
  · simp only [insertAt, h.tokens, hcount, List.length_append, List.length_take, List.length_cons,
      List.length_drop]
    omega

/-- A colon makes a key of the string before it, unless that is too far back. -/
lemma At.step_colon {token : Token} (h : At s (depth + 1) (.colon :: js) (token :: tokens))
    (hplace : ∀ found ∈ s.candidate, found.position = tokens.length) (hstep : s.step? = some u) :
    ∃ key, (key = [] ∨ key = [.key]) ∧
      At u (depth + 1) js (.value :: token :: (key ++ tokens)) := by
  obtain ⟨t, rest, htoken, hat, htext, hscan, hcandidate⟩ := h.exists_mark rfl hstep
  have hflow := hat.inFlow
  have hcolon : t.token? = t.value? := by simp [token?, htext, Cursor.atMark, hflow]
  rw [hcolon, Lexer.value?] at htoken
  -- The candidate may have been given up for being too far back; then no key is announced.
  cases hfound : t.candidate with
  | none =>
    simp only [hfound, hflow, open_, Bool.not_true, Bool.false_and, Bool.true_or, if_true,
      Bool.false_eq_true, if_false, Option.some.injEq] at htoken
    subst htoken
    exact ⟨[], .inl rfl, hat.mark htext hscan false _⟩
  | some found =>
    have hposition := hplace found (hcandidate found (by rw [hfound]; rfl))
    have hflow' : (t.insertAt tokens.length .key).inFlow = true := hflow
    simp only [hfound, hposition, open_, hflow', Bool.true_or, if_true,
      Option.some.injEq] at htoken
    subst htoken
    have hkey : At ((t.insertAt tokens.length .key).setCandidate none) _ _ _ :=
      hat.insertKey.setCandidate (by simp)
    exact ⟨[.key], .inr rfl, hkey.mark (by simpa [insertAt] using htext) hscan false _⟩

/-- What comes behind an item ends a word. -/
lemma endsWord_of_scan {text : List Char} (hscan : Json.Token.scan text = some js)
    (hends : Json.Token.endsItem js = true) : EndsWord (pastSpaces text) := by
  cases js with
  | nil => cases hends
  | cons token js =>
    obtain ⟨rest, hbegins, -⟩ := Json.Token.begins_of_scan hscan
    generalize pastSpaces text = front at hbegins
    cases token <;> cases hends <;> cases hbegins with
    | word hword => cases hword
    | _ => exact ⟨_, _, rfl, rfl⟩

/-- A plain scalar begins with a word. -/
lemma token?_word {token : Json.Token} {word : List Char} (hword : token.IsWord word)
    (htext : s.cursor.text = word ++ rest) :
    s.token? = s.plainScalar? ∧ s.cursor.atDocumentMark = false := by
  -- a minus sign begins a number only if a digit stands behind it; a list entry has a blank there
  rcases hword.exists_cons with ⟨c, others, rfl, hc⟩ | ⟨c, others, rfl, hc⟩
  · have hnone : ∀ d ∈ ['%', '-', '.', '[', '{', ']', '}', ',', '?', ':', '*', '&', '!', '|', '>',
        '\'', '"', '#', '@', '\x60', ' ', '\t', '\n', '\r', '\u0085', '\u2028', '\u2029'],
        c ≠ d := Json.Token.forall_ne_of_test hc rfl
    have hgrave : c.toNat ≠ 96 := fun heq => hnone '\x60' (by simp) (Char.toNat_inj.1 heq)
    simp only [List.forall_mem_cons] at hnone
    have hspace : isSpace c = false := by simp [isSpace, isBlank, isBreak, hnone]
    have hindicator : isIndicator c = false := by
      simp [isIndicator, isFlowIndicator, hnone, hgrave]
    have hplain : s.startsPlain = true := by
      simp [startsPlain, Cursor.spaceAhead, Cursor.next, htext, hspace, hindicator]
    constructor
    · simp [token?, htext, Cursor.atMark, hnone, hplain]
    · simp [Cursor.atDocumentMark, Cursor.atMark, htext, hnone]
  · have hdash : c ≠ '-' := by
      rintro rfl
      cases hc
    have hspace : isSpace c = false :=
      (plain_of_isWordChar (by simp [Json.Token.isWordChar, Numeral.isNumberChar, hc])).1
    have hplain : s.startsPlain = true := by
      have hblank := (Bool.or_eq_false_iff.1 hspace).1
      simp [startsPlain, Cursor.next, Cursor.ahead, htext, hblank]
    constructor
    · simp [token?, htext, Cursor.atMark, Cursor.spaceAhead, hspace, hdash, hplain]
    · simp [Cursor.atDocumentMark, Cursor.atMark, htext, hdash]

/-- Null, a truth value and a number are plain scalars. -/
lemma At.step_plain {token : Json.Token} (h : At s (depth + 1) (token :: js) tokens)
    (hkind : token.isPlain = true) (hends : Json.Token.endsItem js = true)
    (hstep : s.step? = some u) : ∃ word, token.IsWord word ∧
      At u (depth + 1) js (.scalar .plain (String.ofList word) :: tokens) := by
  obtain ⟨t, rest, htoken, hat, hbegins, hscan, -, -⟩ := h.exists_begins hstep
  generalize htext : t.cursor.text = text at hbegins
  cases hbegins with
  | @word _ word hword =>
    obtain ⟨hplain, hmark⟩ := token?_word hword htext
    obtain ⟨candidate, hnote, hnoted, -⟩ := hat.noteCandidate?
    have hne : word ≠ [] := by
      obtain ⟨_, _, rfl, -⟩ | ⟨_, _, rfl, -⟩ := hword.exists_cons <;> simp
    have hflow := hat.inFlow
    obtain ⟨plain, hread, hword', hrest, hsize⟩ := Scalar.plain?_word hword.isWordChar hne
      (endsWord_of_scan hscan hends) hmark htext
    have hmargin : (t.indent + 1).toNat = 0 := by rw [hat.indent]; rfl
    rw [hplain, Lexer.plainScalar?, hnote, hflow, hmargin, hread] at htoken
    obtain rfl := Option.some.inj htoken
    have hlength : plain.cursor.text.length ≤ t.cursor.text.length := by
      have hpast : (pastSpaces rest).length ≤ rest.length := List.length_dropWhile_le _ _
      rw [hrest, htext, List.length_append]
      omega
    refine ⟨word, hword, ?_⟩
    rw [← hword']
    refine hnoted.emit ?_ (by simpa using hlength) (by simpa using hsize) plain.lineEnded _
    rw [hrest, Json.Token.scan_pastSpaces, hscan]
  | _ => cases hkind

/-- At the end of the text. -/
lemma At.step_end (h : At s 0 [] tokens) (hstep : s.step? = some u) :
    u.tokens = .streamEnd :: tokens := by
  obtain ⟨t, htoken, hat, htext, -, -⟩ := h.exists_token? hstep
  rw [Json.Token.pastSpaces_of_scan_nil h.scan] at htext
  have hend : t.token? = t.streamEnd? := by simp [token?, htext]
  rw [hend, Lexer.streamEnd?, unwind_eq hat.indent le_rfl, hat.dropCandidate?] at htoken
  obtain rfl := Option.some.inj htoken
  have hnone : At (t.setCandidate none) 0 [] tokens := hat.setCandidate (by simp)
  exact congrArg (Token.streamEnd :: ·) hnone.tokens

end Steps

end Lexer

end Yaml

end SiblingQuery
