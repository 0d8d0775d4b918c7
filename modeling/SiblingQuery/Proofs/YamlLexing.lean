import Mathlib.Logic.Relation
import SiblingQuery.Proofs.YamlUnquoted
import SiblingQuery.Yaml.Token.Lexer

/-!
# Tokens of a printed YAML text, one at a time

Between two tokens outside brackets the state of the reader is `Lexer.between`: a place in the text,
the tokens so far, the indentations that are open, perhaps a candidate for a key, and whether a key
may begin.

Block collections are not closed where they end but when the next token is seen, and how many of
them are depends on its column only.  So what the reader does is not compared with a state but with
what the state becomes when it is unwound to the column of its own place: `Settles s t` says that
`s` goes on as `t` does, and `Leads s t` that this comes about after some steps.  Closing a
collection in advance is then a matter of rewriting `t` (`Leads.close`).
-/

namespace SiblingQuery

namespace Yaml

namespace Lexer

open Quoting (indentation)

/-! ## States -/

/-- The state after `read` in a text that goes on with `rest`, outside brackets. -/
def between (read rest : List Char) (tokens : List Token) (indent : ℤ) (outer : List ℤ)
    (block : Option Candidate) (keyAllowed : Bool) : Lexer :=
  ⟨Cursor.between read rest, tokens, tokens.length, indent, outer, block, [], keyAllowed⟩

/-- The state in which a key may begin and none is expected. -/
abbrev ready (read rest : List Char) (tokens : List Token) (indent : ℤ) (outer : List ℤ) :
    Lexer :=
  between read rest tokens indent outer none true

/-- What a token may begin with: no blank, no comment and no byte order mark. -/
def StartsToken (rest : List Char) : Prop :=
  ∀ c ∈ rest.head?, isSpace c = false ∧ c ≠ '#' ∧ c ≠ '\ufeff'

variable {read rest gap : List Char} {tokens : List Token} {indent : ℤ} {outer : List ℤ}
  {block : Option Candidate} {keyAllowed : Bool} {s t u : Lexer}

lemma StartsToken.isSpace (h : StartsToken rest) : ∀ c ∈ rest.head?, isSpace c = false :=
  fun c hc => (h c hc).1

lemma startsToken_nil : StartsToken [] := nofun

lemma startsToken_cons {c : Char} (h : isSpace c = false ∧ c ≠ '#' ∧ c ≠ '\ufeff')
    (rest : List Char) : StartsToken (c :: rest) := by
  intro d hd
  obtain rfl := Option.some.inj hd
  exact h

@[simp]
lemma between_cursor : (between read rest tokens indent outer block keyAllowed).cursor =
    Cursor.between read rest := rfl

@[simp]
lemma inFlow_between :
    (between read rest tokens indent outer block keyAllowed).inFlow = false := rfl

/-! ## Going to the next token -/

/-- What comes next in a gap or at a token is no byte order mark, and no comment behind blanks. -/
lemma head?_gap (hgap : ∀ c ∈ gap, isPrintedSpace c = true) (hrest : StartsToken rest) :
    ∀ c ∈ (gap ++ rest).head?, c ≠ '\ufeff' ∧ c ≠ '#' ∧ c ≠ '\t' := by
  cases gap with
  | nil =>
    intro c hc
    obtain ⟨hspace, hhash, hmark⟩ := hrest c hc
    exact ⟨hmark, hhash, (ne_blank_of_isSpace hspace).2⟩
  | cons d gap =>
    intro c hc
    obtain rfl := Option.some.inj hc
    have hspace := hgap d List.mem_cons_self
    refine ⟨?_, ?_, ?_⟩ <;> rintro rfl <;> revert hspace <;> decide

/-- The spaces of a line are skipped, up to a line end or the next token. -/
lemma skip_spaces {spaces breaks : List Char} (hspaces : ∀ c ∈ spaces, decide (c = ' ') = true)
    (hbreaks : ∀ c ∈ breaks.head?, decide (c = ' ') = false)
    (hgap : ∀ c ∈ breaks, isPrintedSpace c = true) (hrest : StartsToken rest) :
    (Cursor.between read (spaces ++ (breaks ++ rest))).skip
      (fun ch => ch = ' ' || ((false || !keyAllowed) && ch = '\t')) =
      Cursor.between (read ++ spaces) (breaks ++ rest) := by
  have hline := isBreak_of_spaces fun c hc => of_decide_eq_true (hspaces c hc)
  refine Cursor.skip_between (fun c hc => by simp [hspaces c hc]) hline fun c hc => ?_
  have hspace : decide (c = ' ') = false := by
    cases breaks with
    | nil => exact decide_eq_false (ne_blank_of_isSpace (hrest.isSpace c hc)).1
    | cons b breaks => exact hbreaks c hc
  simp [hspace, (head?_gap hgap hrest c hc).2.2]

/-- Spaces and line ends are skipped up to the next token. -/
lemma skipFrom_between {fuel : ℕ} (hgap : ∀ c ∈ gap, isPrintedSpace c = true)
    (hrest : StartsToken rest) (hfuel : gap.length < fuel) :
    skipFrom false fuel keyAllowed (Cursor.between read (gap ++ rest)) =
      (keyAllowed || gap.any isBreak, Cursor.between (read ++ gap) rest) := by
  -- line by line: spaces, and then a line end or the token
  induction fuel generalizing gap read keyAllowed with
  | zero => omega
  | succ fuel ih =>
    have hmark : ((Cursor.between read (gap ++ rest)).column = 0 &&
        (Cursor.between read (gap ++ rest)).next (· = '\ufeff')) = false := by
      rw [Cursor.next_between fun c hc => decide_eq_false (head?_gap hgap hrest c hc).1,
        Bool.and_false]
    obtain ⟨spaces, breaks, rfl, hspaces, hbreaks⟩ := exists_run (· = ' ') gap
    have hbreaksGap := (List.forall_mem_append.1 hgap).2
    have hnext := head?_gap hbreaksGap hrest
    have hline := isBreak_of_spaces fun c hc => of_decide_eq_true (hspaces c hc)
    have hhash : (Cursor.between (read ++ spaces) (breaks ++ rest)).next (· = '#') = false :=
      Cursor.next_between fun c hc => decide_eq_false (hnext c hc).2.1
    rw [skipFrom, hmark, if_neg Bool.false_ne_true, List.append_assoc,
      skip_spaces hspaces hbreaks hbreaksGap hrest, hhash, if_neg Bool.false_ne_true]
    cases breaks with
    | nil =>
      have hstop : (Cursor.between (read ++ spaces) ([] ++ rest)).next isBreak = false :=
        Cursor.next_between fun c hc => isBreak_of_isSpace (hrest.isSpace c hc)
      have hnone : spaces.any isBreak = false := by simpa using hline
      rw [hstop, if_neg Bool.false_ne_true]
      simp [hnone]
    | cons b breaks =>
      have hspace : b ≠ ' ' := by simpa using hbreaks b rfl
      have hb : isKeptBreak b = true := by
        have hprinted := hbreaksGap b List.mem_cons_self
        simpa [isPrintedSpace, hspace] using hprinted
      have hlater := List.forall_mem_cons.1 hbreaksGap
      have hlength : breaks.length < fuel := by
        simp only [List.length_append, List.length_cons] at hfuel
        omega
      have hgoes : (Cursor.between (read ++ spaces) (b :: breaks ++ rest)).next isBreak = true :=
        isBreak_of_isKeptBreak hb
      rw [hgoes, if_pos rfl, List.cons_append, Cursor.nextLine_between hb, ih hlater.2 hlength]
      simp [isBreak_of_isKeptBreak hb]

/-- A place in the text as it is after a gap. -/
lemma skip_between (hgap : ∀ c ∈ gap, isPrintedSpace c = true) (hrest : StartsToken rest) :
    (between read (gap ++ rest) tokens indent outer block keyAllowed).skip =
      between (read ++ gap) rest tokens indent outer block (keyAllowed || gap.any isBreak) := by
  have hfuel : gap.length < (Cursor.between read (gap ++ rest)).size + 1 := by
    simp only [Cursor.between_size, List.length_append]
    omega
  have hskip : skipFrom false ((Cursor.between read (gap ++ rest)).size + 1) keyAllowed
      (Cursor.between read (gap ++ rest)) = _ := skipFrom_between hgap hrest hfuel
  have hstate : (between read (gap ++ rest) tokens indent outer block keyAllowed).skip =
      (fun place : Bool × Cursor => (⟨place.2, tokens, tokens.length, indent, outer, block, [],
        place.1⟩ : Lexer)) (skipFrom false ((Cursor.between read (gap ++ rest)).size + 1) keyAllowed
          (Cursor.between read (gap ++ rest))) := rfl
  rw [hstate, hskip]
  rfl

lemma dropStale?_eq {brackets : List (Option Candidate)}
    (hblock : s.keepFresh? s.block = some block)
    (hbrackets : s.brackets.mapM s.keepFresh? = some brackets) :
    s.dropStale? = some { s with block, brackets } := by
  rw [dropStale?, hblock, hbrackets]

/-- A candidate that is not required and stands on an earlier line is given up. -/
def IsPast (read : List Char) (block : Option Candidate) : Prop :=
  ∀ candidate ∈ block, candidate.required = false ∧ candidate.line < read.countP isBreak

lemma isPast_none (read : List Char) : IsPast read none := nofun

lemma IsPast.append (h : IsPast read block) (more : List Char) : IsPast (read ++ more) block := by
  intro candidate hcandidate
  obtain ⟨hrequired, hline⟩ := h candidate hcandidate
  refine ⟨hrequired, ?_⟩
  rw [List.countP_append]
  omega

lemma dropStale?_of_isPast (h : IsPast read block) :
    (between read rest tokens indent outer block keyAllowed).dropStale? =
      some (between read rest tokens indent outer none keyAllowed) := by
  cases block with
  | none => rfl
  | some candidate =>
    obtain ⟨hrequired, hline⟩ := h candidate rfl
    have hstale : (between read rest tokens indent outer (some candidate) keyAllowed).isStale
        candidate = true := by
      simp [isStale, between, Cursor.between, hline]
    have hkeep : (between read rest tokens indent outer (some candidate) keyAllowed).keepFresh?
        (some candidate) = some none := by
      simp [keepFresh?, hstale, hrequired]
    exact dropStale?_eq hkeep rfl

/-! ## Steps -/

/-- The state in which the next token is read: at its place, with the collections closed that end
before it. -/
def next? (s : Lexer) : Option Lexer :=
  s.skip.dropStale?.map fun s => s.unwind s.cursor.column

lemma step?_eq_bind (s : Lexer) : s.step? = s.next?.bind token? := by
  rw [step?, next?]
  cases s.skip.dropStale? <;> rfl

/-- One token is read, and it is not the end of the text. -/
structure Step (s t : Lexer) : Prop where
  step : s.step? = some t
  inside : t.tokens.head? ≠ some .streamEnd
  shorter : t.cursor.text.length < s.cursor.text.length

/-- Any number of tokens is read. -/
abbrev Reads : Lexer → Lexer → Prop := Relation.ReflTransGen Step

/-- A state goes on as another does that stands at a token. -/
structure Settles (s t : Lexer) : Prop where
  next : s.next? = some (t.unwind t.cursor.column)
  shorter : t.cursor.text.length ≤ s.cursor.text.length

/-- After some tokens, a state goes on as another does. -/
def Leads (s t : Lexer) : Prop := ∃ between, Reads s between ∧ Settles between t

lemma Leads.of_reads (h : Reads s t) (hleads : Leads t u) : Leads s u := by
  obtain ⟨between, hreads, hsettles⟩ := hleads
  exact ⟨between, h.trans hreads, hsettles⟩

/-- Reading on where a state goes on as another. -/
lemma Leads.step (h : Leads s t) (htoken : (t.unwind t.cursor.column).token? = some u)
    (hinside : u.tokens.head? ≠ some .streamEnd)
    (hshorter : u.cursor.text.length < t.cursor.text.length) : Reads s u := by
  obtain ⟨between, hreads, hsettles⟩ := h
  refine hreads.tail ⟨?_, hinside, hshorter.trans_le hsettles.shorter⟩
  rw [step?_eq_bind, hsettles.next]
  exact htoken

/-- A gap before a token. -/
lemma settles_gap (hgap : ∀ c ∈ gap, isPrintedSpace c = true) (hrest : StartsToken rest)
    (hblock : IsPast (read ++ gap) block) :
    Settles (between read (gap ++ rest) tokens indent outer block keyAllowed)
      (between (read ++ gap) rest tokens indent outer none (keyAllowed || gap.any isBreak)) where
  next := by
    rw [next?, skip_between hgap hrest, dropStale?_of_isPast hblock]
    rfl
  shorter := by simp [between]

/-- Reading the whole text, told by what has been read so far. -/
lemma Reads.runFrom_eq (h : Reads s t) {fuel : ℕ} (hfuel : s.cursor.text.length < fuel) :
    ∃ fuel', t.cursor.text.length < fuel' ∧ runFrom fuel s = runFrom fuel' t := by
  induction h using Relation.ReflTransGen.head_induction_on generalizing fuel with
  | refl => exact ⟨fuel, hfuel, rfl⟩
  | head hstep hlater ih =>
    rename_i start next
    obtain ⟨fuel, rfl⟩ := Nat.exists_eq_add_one_of_ne_zero (by omega : fuel ≠ 0)
    have hshorter := hstep.shorter
    have hless : next.cursor.text.length < fuel := by omega
    obtain ⟨fuel', hfuel', hrun⟩ := ih hless
    refine ⟨fuel', hfuel', ?_⟩
    rw [← hrun, runFrom, hstep.step]
    exact if_neg hstep.inside

/-- A collection is closed before a token that stands left of it. -/
lemma Leads.close {inner : ℤ} (h : Leads s (ready read rest tokens inner (indent :: outer)))
    (hcolumn : (Cursor.columnOf read : ℤ) < inner) :
    Leads s (ready read rest (.blockEnd :: tokens) indent outer) := by
  obtain ⟨before, hreads, hsettles⟩ := h
  refine ⟨before, hreads, ?_, hsettles.shorter⟩
  rw [hsettles.next]
  have hclose : (ready read rest tokens inner (indent :: outer)).unwind (Cursor.columnOf read) =
      (ready read rest (.blockEnd :: tokens) indent outer).unwind (Cursor.columnOf read) := by
    simp [unwind, inFlow, between, unwindFrom, hcolumn]
  exact congrArg some hclose

/-! ## Marks -/

/-- The tokens with the start of a collection, if `column` is right of the indentation. -/
def openTokens (indent : ℤ) (column : ℕ) (token : Token) (tokens : List Token) : List Token :=
  if indent < column then token :: tokens else tokens

/-- The indentations that are open around `column`. -/
def openOuter (indent : ℤ) (column : ℕ) (outer : List ℤ) : List ℤ :=
  if indent < column then indent :: outer else outer

lemma open_between {column : ℕ} (h : indent ≤ column) (token : Token) :
    (between read rest tokens indent outer block keyAllowed).open_ column none token =
      between read rest (openTokens indent column token tokens) column
        (openOuter indent column outer) block keyAllowed := by
  unfold openTokens openOuter
  by_cases hlt : indent < column
  · simp [open_, between, inFlow, hlt, emit]
  · have heq : indent = column := by omega
    simp [open_, between, inFlow, heq]

/-- A mark of one character that a blank follows. -/
lemma take_between {c : Char} (hc : isBreak c = false) (token : Token) :
    (between read (c :: rest) tokens indent outer block keyAllowed).take 1 token =
      between (read ++ [c]) rest (token :: tokens) indent outer block keyAllowed := by
  have hadvance : (Cursor.between read (c :: rest)).advance 1 = _ := Cursor.advance_one_between hc
  simp only [take, emit, between, hadvance, List.length_cons]

variable {c : Char}

/-- The hyphen of an entry. -/
lemma token?_entry (hc : isSpace c = true) (hindent : indent ≤ Cursor.columnOf read) :
    (ready read ('-' :: c :: rest) tokens indent outer).token? =
      some (ready (read ++ ['-']) (c :: rest)
        (.blockEntry :: openTokens indent (Cursor.columnOf read) .blockSequenceStart tokens)
        (Cursor.columnOf read) (openOuter indent (Cursor.columnOf read) outer)) := by
  have hne : c ≠ '-' := by
    rintro rfl
    revert hc
    decide
  have htoken : (ready read ('-' :: c :: rest) tokens indent outer).token? =
      blockEntry? (ready read ('-' :: c :: rest) tokens indent outer) := by
    simp [token?, between, Cursor.atMark, Cursor.spaceAhead, hne, hc]
  have hopen : (ready read ('-' :: c :: rest) tokens indent outer).open_
      (Cursor.columnOf read) none .blockSequenceStart = _ := open_between hindent _
  have hbreak : isBreak '-' = false := by decide
  rw [htoken]
  change ((ready read ('-' :: c :: rest) tokens indent outer).open_
    (Cursor.columnOf read) none .blockSequenceStart).dropCandidate?.map _ = _
  rw [hopen]
  exact congrArg some (take_between hbreak _)

/-- The question mark of a key. -/
lemma token?_question (hc : isSpace c = true) (hindent : indent ≤ Cursor.columnOf read)
    (hcolumn : Cursor.columnOf read ≠ 0) :
    (ready read ('?' :: c :: rest) tokens indent outer).token? =
      some (ready (read ++ ['?']) (c :: rest)
        (.key :: openTokens indent (Cursor.columnOf read) .blockMappingStart tokens)
        (Cursor.columnOf read) (openOuter indent (Cursor.columnOf read) outer)) := by
  have htoken : (ready read ('?' :: c :: rest) tokens indent outer).token? =
      (ready read ('?' :: c :: rest) tokens indent outer).key? := by
    simp [token?, between, Cursor.atMark, Cursor.spaceAhead, hcolumn, hc]
  have hopen : (ready read ('?' :: c :: rest) tokens indent outer).open_
      (Cursor.columnOf read) none .blockMappingStart = _ := open_between hindent _
  have hbreak : isBreak '?' = false := by decide
  rw [htoken]
  change ((ready read ('?' :: c :: rest) tokens indent outer).open_
    (Cursor.columnOf read) none .blockMappingStart).dropCandidate?.map _ = _
  rw [hopen]
  exact congrArg some (take_between hbreak _)

lemma token?_colon (hc : isSpace c = true) (hcolumn : Cursor.columnOf read ≠ 0) :
    (between read (':' :: c :: rest) tokens indent outer block keyAllowed).token? =
      (between read (':' :: c :: rest) tokens indent outer block keyAllowed).value? := by
  simp [token?, between, Cursor.atMark, Cursor.spaceAhead, hcolumn, hc]

/-- The colon of a key that a question mark announced. -/
lemma token?_value (hc : isSpace c = true) (hindent : indent = Cursor.columnOf read)
    (hcolumn : Cursor.columnOf read ≠ 0) :
    (ready read (':' :: c :: rest) tokens indent outer).token? =
      some (ready (read ++ [':']) (c :: rest) (.value :: tokens) indent outer) := by
  have hbreak : isBreak ':' = false := by decide
  have hopen : (ready read (':' :: c :: rest) tokens indent outer).open_
      (Cursor.columnOf read) none .blockMappingStart =
        ready read (':' :: c :: rest) tokens indent outer := by
    simp [open_, between, inFlow, hindent]
  rw [token?_colon hc hcolumn]
  have hvalue : (ready read (':' :: c :: rest) tokens indent outer).value? =
      (fun s : Lexer => some ({ s with keyAllowed := !s.inFlow }.take 1 .value))
        ((ready read (':' :: c :: rest) tokens indent outer).open_
          (Cursor.columnOf read) none .blockMappingStart) := rfl
  rw [hvalue, hopen]
  exact congrArg some (take_between hbreak _)

/-! ## Candidates -/

/-- The candidate that is noted where a key may begin. -/
def noted (read : List Char) (tokens : List Token) (indent : ℤ) (keyAllowed : Bool) :
    Option Candidate :=
  if keyAllowed then
    some ⟨indent = Cursor.columnOf read, tokens.length, Cursor.octetCount read,
      read.countP isBreak, Cursor.columnOf read⟩
  else none

lemma noteCandidate?_between :
    (between read rest tokens indent outer none keyAllowed).noteCandidate? =
      some (between read rest tokens indent outer (noted read tokens indent keyAllowed)
        keyAllowed) := by
  cases keyAllowed <;> rfl

lemma insertAt_between (before after : List Token) (token : Token) :
    (between read rest (before ++ after) indent outer block keyAllowed).insertAt after.length
        token =
      between read rest (before ++ token :: after) indent outer block keyAllowed := by
  simp only [insertAt, between, List.length_append, List.length_cons, Nat.add_sub_cancel,
    List.take_left, List.drop_left, Nat.add_assoc]

/-- Where a mapping is opened for a key, its start is put in front of the key. -/
lemma open_between_key {scalar : Token} {required : Bool} {index line column : ℕ}
    (hindent : indent ≤ column) :
    (between read rest (scalar :: .key :: tokens) indent outer
        (some ⟨required, tokens.length, index, line, column⟩) false).open_ column
          (some tokens.length) .blockMappingStart =
      between read rest (scalar :: .key :: openTokens indent column .blockMappingStart tokens)
        column (openOuter indent column outer)
        (some ⟨required, tokens.length, index, line, column⟩) false := by
  unfold openTokens openOuter
  by_cases hlt : indent < column
  · have hinsert : (between read rest (scalar :: .key :: tokens) column (indent :: outer)
        (some ⟨required, tokens.length, index, line, column⟩) false).insertAt tokens.length
          .blockMappingStart = _ :=
      insertAt_between [scalar, .key] tokens .blockMappingStart
    rw [if_pos hlt, if_pos hlt]
    simpa [open_, between, inFlow, hlt] using hinsert
  · have heq : indent = column := by omega
    simp [open_, between, inFlow, heq]

/-- The colon after a simple key: the token of the key, and if need be the start of the mapping,
are put in front of the key. -/
lemma token?_simple {scalar : Token} {required : Bool} {index line column : ℕ}
    (hc : isSpace c = true) (hcolumn : Cursor.columnOf read ≠ 0) (hindent : indent ≤ column) :
    (between read (':' :: c :: rest) (scalar :: tokens) indent outer
        (some ⟨required, tokens.length, index, line, column⟩) false).token? =
      some (between (read ++ [':']) (c :: rest)
        (.value :: scalar :: .key :: openTokens indent column .blockMappingStart tokens) column
        (openOuter indent column outer) none false) := by
  have hbreak : isBreak ':' = false := by decide
  have hkey : (between read (':' :: c :: rest) (scalar :: tokens) indent outer
      (some ⟨required, tokens.length, index, line, column⟩) false).insertAt tokens.length .key =
        between read (':' :: c :: rest) (scalar :: .key :: tokens) indent outer
          (some ⟨required, tokens.length, index, line, column⟩) false :=
    insertAt_between [scalar] tokens .key
  rw [token?_colon hc hcolumn]
  have hvalue : (between read (':' :: c :: rest) (scalar :: tokens) indent outer
      (some ⟨required, tokens.length, index, line, column⟩) false).value? =
      (fun s : Lexer => some ({ (s.open_ column (some tokens.length)
        .blockMappingStart).setCandidate none with keyAllowed := false }.take 1 .value))
        ((between read (':' :: c :: rest) (scalar :: tokens) indent outer
          (some ⟨required, tokens.length, index, line, column⟩) false).insertAt
            tokens.length .key) := rfl
  rw [hvalue, hkey]
  simp only [open_between_key hindent]
  exact congrArg some (take_between hbreak _)

/-! ## Scalars -/

open Scalar (quote singleChar)

/-- A token read by its own reader, where a key may begin. -/
lemma property?_between {reader : Cursor → Option (Token × Cursor)} {token : Token}
    {readAfter restAfter : List Char}
    (h : reader (Cursor.between read rest) = some (token, Cursor.between readAfter restAfter)) :
    (between read rest tokens indent outer none keyAllowed).property? reader =
      some (between readAfter restAfter (token :: tokens) indent outer
        (noted read tokens indent keyAllowed) false) := by
  have hcursor : (between read rest tokens indent outer none keyAllowed).cursor =
      Cursor.between read rest := rfl
  rw [property?, noteCandidate?_between, hcursor, h]
  rfl

/-- A quoted scalar, read from its opening quote. -/
lemma token?_quoted {single : Bool} {body text : List Char}
    (hcolumn : Cursor.columnOf read ≠ 0)
    (hread : Scalar.quoted? single (Cursor.between read (quote single :: (body ++
      quote single :: rest))) = some (text, Cursor.between (read ++ quote single :: (body ++
        [quote single])) rest)) :
    (between read (quote single :: (body ++ quote single :: rest)) tokens indent outer none
        keyAllowed).token? =
      some (between (read ++ quote single :: (body ++ [quote single])) rest
        (.scalar (if single then .singleQuoted else .doubleQuoted) (String.ofList text) :: tokens)
        indent outer (noted read tokens indent keyAllowed) false) := by
  have htoken : (between read (quote single :: (body ++ quote single :: rest)) tokens indent outer
      none keyAllowed).token? =
      (between read (quote single :: (body ++ quote single :: rest)) tokens indent outer none
        keyAllowed).quotedScalar? (if single then .singleQuoted else .doubleQuoted) := by
    cases single <;> simp [token?, between, Cursor.atMark, hcolumn, quote]
  have hstyle : Scalar.quoted? (decide ((if single then Style.singleQuoted else .doubleQuoted) =
      .singleQuoted)) (Cursor.between read (quote single :: (body ++ quote single :: rest))) =
      some (text, Cursor.between (read ++ quote single :: (body ++ [quote single])) rest) := by
    rw [← hread]
    cases single <;> rfl
  rw [htoken]
  exact property?_between (by rw [hstyle]; rfl)

/-- A question mark, a colon or a hyphen begins a word only if something stands right behind it. -/
lemma ahead_of_mark {c : Char} {text : List Char}
    (hindicator : Quoting.beginsWithIndicator (c :: text) = false)
    (hmark : c = '?' ∨ c = ':' ∨ c = '-') :
    (Cursor.between read (c :: text ++ rest)).spaceAhead 1 = false ∧
      (Cursor.between read (c :: text ++ rest)).ahead 1 isBlank = false := by
  simp only [Quoting.beginsWithIndicator, Bool.or_eq_false_iff, Bool.and_eq_false_iff,
    decide_eq_false_iff_not] at hindicator
  obtain ⟨⟨⟨-, hword⟩, -⟩, -⟩ := hindicator
  have hgap : Quoting.beforeGap text = false := hword.resolve_left (by tauto)
  cases text with
  | nil => cases hgap
  | cons d text =>
    have hd : isSpace d = false := (Bool.or_eq_false_iff.1 hgap).1
    exact ⟨hd, (Bool.or_eq_false_iff.1 hd).1⟩

/-- A plain scalar begins where no indicator is. -/
lemma token?_plain {text : List Char} (hne : text ≠ [])
    (hindicator : Quoting.beginsWithIndicator text = false)
    (hspace : ∀ c ∈ text.head?, isSpace c = false) (hcolumn : Cursor.columnOf read ≠ 0) :
    (between read (text ++ rest) tokens indent outer block keyAllowed).token? =
      (between read (text ++ rest) tokens indent outer block keyAllowed).plainScalar? := by
  obtain ⟨c, text, rfl⟩ := List.exists_cons_of_ne_nil hne
  have hc := hspace c rfl
  have hsolid (hmark : c = '?' ∨ c = ':' ∨ c = '-') :
      (Cursor.between read (c :: text ++ rest)).spaceAhead 1 = false ∧
        (Cursor.between read (c :: text ++ rest)).ahead 1 isBlank = false :=
    ahead_of_mark hindicator hmark
  simp only [Quoting.beginsWithIndicator, Bool.or_eq_false_iff, Bool.and_eq_false_iff,
    decide_eq_false_iff_not] at hindicator
  obtain ⟨⟨⟨⟨⟨hflow, hmarks⟩, hback⟩, -⟩, -⟩, -⟩ := hindicator
  have hmarks' : c ≠ '#' ∧ c ≠ '&' ∧ c ≠ '*' ∧ c ≠ '!' ∧ c ≠ '|' ∧ c ≠ '>' ∧ c ≠ '\'' ∧ c ≠ '"' ∧
      c ≠ '%' ∧ c ≠ '@' := by
    simpa using hmarks
  have hstarts :
      (between read (c :: text ++ rest) tokens indent outer block keyAllowed).startsPlain = true := by
    by_cases hmark : c = '?' ∨ c = ':' ∨ c = '-'
    · obtain ⟨hspaceAhead, hblank⟩ := hsolid hmark
      rw [startsPlain, between_cursor, hspaceAhead, hblank]
      rcases hmark with rfl | rfl | rfl <;> simp [Cursor.next]
    · have hplain : isIndicator c = false := by
        have hlist : "-?:#&*!|>'\"%@".toList = '-' :: '?' :: ':' :: "#&*!|>'\"%@".toList := rfl
        simp only [not_or] at hmark
        simp [isIndicator, hflow, hback, hmark, hlist, hmarks']
      simp [startsPlain, Cursor.spaceAhead, Cursor.next, hc, hplain]
  -- Each of the three marks opens something else only before a blank.
  have hopens (mark : Char) (hmark : mark = '?' ∨ mark = ':' ∨ mark = '-') :
      ¬ (c = mark ∧ (Cursor.between read (c :: text ++ rest)).spaceAhead 1 = true) := by
    rintro ⟨rfl, hahead⟩
    rw [(hsolid hmark).1] at hahead
    cases hahead
  have hdash := hopens '-' (by simp)
  have hquestion := hopens '?' (by simp)
  have hcolon := hopens ':' (by simp)
  have hflow' : c ≠ ',' ∧ c ≠ '[' ∧ c ≠ ']' ∧ c ≠ '\x7b' ∧ c ≠ '\x7d' := by
    simpa [isFlowIndicator, and_assoc] using hflow
  simp only [List.cons_append] at hdash hquestion hcolon hstarts ⊢
  simp [token?, Cursor.atMark, hcolumn, hflow', hmarks', hdash, hquestion, hcolon, hstarts]

lemma plainScalar?_between {text readAfter restAfter : List Char} {lineEnded : Bool}
    (h : Scalar.plain? false (indent + 1).toNat (Cursor.between read rest) =
      some ⟨text, Cursor.between readAfter restAfter, lineEnded⟩) :
    (between read rest tokens indent outer none keyAllowed).plainScalar? =
      some (between readAfter restAfter (.scalar .plain (String.ofList text) :: tokens) indent outer
        (noted read tokens indent keyAllowed) lineEnded) := by
  have hplain : Scalar.plain? (between read rest tokens indent outer none keyAllowed).inFlow
      ((between read rest tokens indent outer none keyAllowed).indent + 1).toNat
        (between read rest tokens indent outer none keyAllowed).cursor = _ := h
  rw [plainScalar?, noteCandidate?_between, hplain]
  rfl

/-- A literal block, where no key is expected. -/
lemma token?_literal {header text readAfter restAfter : List Char}
    (hcolumn : Cursor.columnOf read ≠ 0)
    (h : Scalar.block? false indent (Cursor.between read ('|' :: header ++ rest)) =
      some (text, Cursor.between readAfter restAfter)) :
    (between read ('|' :: header ++ rest) tokens indent outer none keyAllowed).token? =
      some (ready readAfter restAfter (.scalar .literal (String.ofList text) :: tokens) indent
        outer) := by
  have htoken : (between read ('|' :: header ++ rest) tokens indent outer none keyAllowed).token? =
      (between read ('|' :: header ++ rest) tokens indent outer none keyAllowed).blockScalar?
        .literal := by
    simp [token?, Cursor.atMark, hcolumn]
  have hblock : Scalar.block? (decide (Style.literal = Style.folded))
      (between read ('|' :: header ++ rest) tokens indent outer none keyAllowed).indent
        (between read ('|' :: header ++ rest) tokens indent outer none keyAllowed).cursor = _ := h
  have hdrop : (between read ('|' :: header ++ rest) tokens indent outer none
      keyAllowed).dropCandidate? =
        some (between read ('|' :: header ++ rest) tokens indent outer none keyAllowed) := rfl
  rw [htoken, blockScalar?, hdrop, hblock]
  rfl

/-! ## Fresh candidates -/

/-- A candidate on the same line and not too far back. -/
def IsFresh (read : List Char) (block : Option Candidate) : Prop :=
  ∀ candidate ∈ block, candidate.line = read.countP isBreak ∧
    Cursor.octetCount read ≤ candidate.index + 1024

lemma keepFresh?_of_isFresh (hcursor : s.cursor = Cursor.between read rest)
    (h : IsFresh read block) : s.keepFresh? block = some block := by
  cases block with
  | none => rfl
  | some candidate =>
    obtain ⟨hline, hindex⟩ := h candidate rfl
    have hfresh : s.isStale candidate = false := by
      simp [isStale, hcursor, Cursor.between, hline, hindex]
    simp [keepFresh?, hfresh]

lemma dropStale?_of_isFresh (h : IsFresh read block) :
    (between read rest tokens indent outer block keyAllowed).dropStale? =
      some (between read rest tokens indent outer block keyAllowed) := by
  have hkeep : (between read rest tokens indent outer block keyAllowed).keepFresh? block =
      some block := keepFresh?_of_isFresh rfl h
  exact dropStale?_eq hkeep rfl

/-- Nothing is closed before a token right of the indentation. -/
lemma unwind_between {column : ℤ} (h : indent ≤ column) :
    (between read rest tokens indent outer block keyAllowed).unwind column =
      between read rest tokens indent outer block keyAllowed := by
  have hnot : ¬ column < indent := by omega
  cases outer <;> simp [unwind, inFlow, between, unwindFrom, hnot]

/-- The next token follows without a blank. -/
lemma step?_between (hrest : StartsToken rest) (hfresh : IsFresh read block)
    (hindent : indent ≤ Cursor.columnOf read) :
    (between read rest tokens indent outer block keyAllowed).step? =
      (between read rest tokens indent outer block keyAllowed).token? := by
  have hskip : (between read ([] ++ rest) tokens indent outer block keyAllowed).skip = _ :=
    skip_between (by simp) hrest
  simp only [List.nil_append, List.append_nil, List.any_nil, Bool.or_false] at hskip
  rw [step?_eq_bind, next?, hskip, dropStale?_of_isFresh hfresh, Option.map_some, Option.bind_some,
    between_cursor, Cursor.between_column, unwind_between hindent]

/-- A candidate stays fresh along the line, for a while. -/
lemma isFresh_append {word : List Char} {tokens : List Token} {keyAllowed : Bool}
    (hline : ∀ c ∈ word, isBreak c = false) (hlength : Cursor.octetCount word ≤ 1024) :
    IsFresh (read ++ word) (noted read tokens indent keyAllowed) := by
  intro candidate hcandidate
  have hlines : word.countP isBreak = 0 := List.countP_eq_zero.2 (by simpa using hline)
  cases keyAllowed with
  | false => cases hcandidate
  | true =>
    obtain rfl := Option.some.inj hcandidate
    refine ⟨by simp [hlines], ?_⟩
    rw [Cursor.octetCount_append]
    simpa using hlength

/-- A candidate that is not in the column of its collection is past where a line ends. -/
lemma isPast_noted {word : List Char} (hbreak : word.any isBreak = true)
    (hindent : indent < Cursor.columnOf read) :
    IsPast (read ++ word) (noted read tokens indent keyAllowed) := by
  intro candidate hcandidate
  have hlines : 0 < word.countP isBreak := by
    rwa [List.countP_pos_iff, ← List.any_eq_true]
  cases keyAllowed with
  | false => cases hcandidate
  | true =>
    obtain rfl := Option.some.inj hcandidate
    refine ⟨decide_eq_false (by omega), ?_⟩
    rw [List.countP_append]
    simp only
    omega

/-- A token is read that stands right of the indentation. -/
lemma Leads.token (h : Leads s (between read rest tokens indent outer block keyAllowed))
    (hindent : indent ≤ Cursor.columnOf read)
    (htoken : (between read rest tokens indent outer block keyAllowed).token? = some u)
    (hinside : u.tokens.head? ≠ some .streamEnd)
    (hshorter : u.cursor.text.length < rest.length) : Reads s u := by
  refine h.step ?_ hinside hshorter
  rwa [between_cursor, Cursor.between_column, unwind_between hindent]

/-! ## Brackets -/

/-- The opening bracket of a flow collection, and its token. -/
def opening (mapping : Bool) : Char × Token :=
  if mapping then ('\x7b', .flowMappingStart) else ('[', .flowSequenceStart)

/-- The closing bracket of a flow collection, and its token. -/
def closing (mapping : Bool) : Char × Token :=
  if mapping then ('\x7d', .flowMappingEnd) else (']', .flowSequenceEnd)

/-- The state between the brackets of an empty collection. -/
def inside (read rest : List Char) (tokens : List Token) (indent : ℤ) (outer : List ℤ)
    (block : Option Candidate) : Lexer :=
  { between read rest tokens indent outer block true with brackets := [none] }

/-- Between brackets nothing is skipped where a token begins. -/
lemma skipFrom_inside {c : Char} (hc : isSpace c = false ∧ c ≠ '#' ∧ c ≠ '\ufeff') (fuel : ℕ) :
    skipFrom true (fuel + 1) true (Cursor.between read (c :: rest)) =
      (true, Cursor.between read (c :: rest)) := by
  obtain ⟨hspace, hhash, hmark⟩ := hc
  have hplain := ne_blank_of_isSpace hspace
  have hstay : (Cursor.between read (c :: rest)).skip
      (fun ch => ch = ' ' || ((true || !true) && ch = '\t')) = Cursor.between read (c :: rest) := by
    have hrun : (Cursor.between read ([] ++ c :: rest)).skip
        (fun ch => ch = ' ' || ((true || !true) && ch = '\t')) = _ :=
      Cursor.skip_between (by simp) (by simp) (by simp [hplain])
    simpa using hrun
  have hbreak : (Cursor.between read (c :: rest)).next isBreak = false := isBreak_of_isSpace hspace
  have hcomment : (Cursor.between read (c :: rest)).next (· = '#') = false := decide_eq_false hhash
  have hbom : (Cursor.between read (c :: rest)).next (· = '\ufeff') = false := decide_eq_false hmark
  rw [skipFrom, hbom, Bool.and_false, if_neg Bool.false_ne_true, hstay, hcomment,
    if_neg Bool.false_ne_true, hbreak, if_neg Bool.false_ne_true]

lemma next?_inside (hc : isSpace c = false ∧ c ≠ '#' ∧ c ≠ '\ufeff') (hfresh : IsFresh read block) :
    (inside read (c :: rest) tokens indent outer block).next? =
      some (inside read (c :: rest) tokens indent outer block) := by
  have hstate : (inside read (c :: rest) tokens indent outer block).skip =
      (fun place : Bool × Cursor => (⟨place.2, tokens, tokens.length, indent, outer, block, [none],
        place.1⟩ : Lexer)) (skipFrom true ((Cursor.between read (c :: rest)).size + 1) true
          (Cursor.between read (c :: rest))) := rfl
  have hkeep : (inside read (c :: rest) tokens indent outer block).dropStale? =
      some (inside read (c :: rest) tokens indent outer block) := by
    have hkeep : (inside read (c :: rest) tokens indent outer block).keepFresh? block =
        some block := keepFresh?_of_isFresh rfl hfresh
    exact dropStale?_eq hkeep rfl
  rw [next?, hstate, skipFrom_inside hc]
  change (inside read (c :: rest) tokens indent outer block).dropStale?.map _ = _
  rw [hkeep]
  rfl

lemma token?_opening (mapping : Bool) (hcolumn : Cursor.columnOf read ≠ 0) :
    (between read ((opening mapping).1 :: rest) tokens indent outer none keyAllowed).token? =
      some (inside (read ++ [(opening mapping).1]) rest ((opening mapping).2 :: tokens) indent outer
        (noted read tokens indent keyAllowed)) := by
  have htoken : (between read ((opening mapping).1 :: rest) tokens indent outer none
      keyAllowed).token? = (between read ((opening mapping).1 :: rest) tokens indent outer none
        keyAllowed).openBracket? (opening mapping).2 := by
    cases mapping <;> simp [token?, Cursor.atMark, hcolumn, opening]
  have hline : isBreak (opening mapping).1 = false := by cases mapping <;> decide
  have hadvance : (Cursor.between read ((opening mapping).1 :: rest)).advance 1 = _ :=
    Cursor.advance_one_between hline
  rw [htoken, openBracket?, noteCandidate?_between, Option.map_some]
  simp only [take, emit, inside, between, hadvance, List.length_cons]

lemma token?_closing (mapping : Bool) (hcolumn : Cursor.columnOf read ≠ 0) :
    (inside read ((closing mapping).1 :: rest) tokens indent outer block).token? =
      some (between (read ++ [(closing mapping).1]) rest ((closing mapping).2 :: tokens) indent
        outer block false) := by
  have htoken : (inside read ((closing mapping).1 :: rest) tokens indent outer block).token? =
      (inside read ((closing mapping).1 :: rest) tokens indent outer block).closeBracket?
        (closing mapping).2 := by
    cases mapping <;> simp [token?, inside, Cursor.atMark, hcolumn, closing]
  have hline : isBreak (closing mapping).1 = false := by cases mapping <;> decide
  have hadvance : (Cursor.between read ((closing mapping).1 :: rest)).advance 1 = _ :=
    Cursor.advance_one_between hline
  have hdrop :
      (inside read ((closing mapping).1 :: rest) tokens indent outer block).dropCandidate? =
        some (inside read ((closing mapping).1 :: rest) tokens indent outer block) := rfl
  rw [htoken, closeBracket?, hdrop, Option.map_some]
  simp only [take, emit, inside, between, hadvance, List.length_cons, List.drop_succ_cons,
    List.drop_nil]

/-- Brackets with nothing between them. -/
lemma reads_empty (mapping : Bool) (hcolumn : Cursor.columnOf read ≠ 0)
    (hindent : indent ≤ Cursor.columnOf read)
    (h : Leads s (between read ((opening mapping).1 :: (closing mapping).1 :: rest) tokens indent
      outer none keyAllowed)) :
    Reads s (between (read ++ [(opening mapping).1, (closing mapping).1]) rest
      ((closing mapping).2 :: (opening mapping).2 :: tokens) indent outer
        (noted read tokens indent keyAllowed) false) := by
  have hline : ∀ c ∈ [(opening mapping).1], isBreak c = false :=
    List.forall_mem_singleton.2 (by cases mapping <;> decide)
  have hpos : Cursor.columnOf (read ++ [(opening mapping).1]) ≠ 0 := by
    rw [Cursor.columnOf_append hline]
    omega
  have hsolid : isSpace (closing mapping).1 = false ∧ (closing mapping).1 ≠ '#' ∧
      (closing mapping).1 ≠ '\ufeff' := by
    cases mapping <;> decide
  have hfresh : IsFresh (read ++ [(opening mapping).1]) (noted read tokens indent keyAllowed) :=
    isFresh_append hline (by cases mapping <;> decide)
  have hfirst := h.token hindent (token?_opening mapping hcolumn)
    (by cases mapping <;> simp [inside, between, opening]) (by simp [inside, between])
  refine hfirst.tail ⟨?_, ?_, ?_⟩
  · rw [step?_eq_bind, next?_inside hsolid hfresh, Option.bind_some, token?_closing mapping hpos]
    simp
  · cases mapping <;> simp [between, closing]
  · simp [inside, between]

end Lexer

end Yaml

end SiblingQuery
