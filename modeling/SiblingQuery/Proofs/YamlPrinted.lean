import SiblingQuery.Proofs.JsonDocument
import SiblingQuery.Proofs.YamlUnquoted
import SiblingQuery.Yaml.Printer

/-!
# What a printed YAML text looks like

What the reader of a printed text relies on: which style a text is given (`Quoting.of_style_plain`
and its siblings), that a simple key is short and on one line (`writeKey_of_isSimpleKey`), that
every value ends with the end of a line (`endsLine_valueText`), and that every character is one that
is written as itself (`isPrinted_valueText`).

The text that stands last (`lastText?`) has to be known, because a literal block that keeps the line
ends at its tail also keeps a line feed that is put behind the whole text.
-/

namespace SiblingQuery

namespace Yaml

open Quoting (indentation)

/-! ## Styles -/

namespace Quoting

variable {text : String}

/-- A plain text is not empty, since the empty text would not be read as a text. -/
lemma of_style_plain (h : style text = .plain) :
    allowsPlain text.toList = true ∧ text.toList ≠ [] := by
  unfold style at h
  simp only at h
  split_ifs at h with _ _ htyped _ hplain
  refine ⟨hplain, fun hnil => htyped ?_⟩
  obtain rfl : text = "" := String.toList_eq_nil_iff.1 hnil
  decide

lemma of_style_singleQuoted (h : style text = .singleQuoted) :
    allowsSingle text.toList = true ∧ '\n' ∉ text.toList := by
  unfold style at h
  simp only at h
  split_ifs at h <;> simp_all

lemma of_style_literal (h : style text = .literal) :
    allowsBlock text.toList = true ∧ '\n' ∈ text.toList := by
  unfold style at h
  simp only at h
  split_ifs at h
  simp_all

lemma style_ne_folded (text : String) : style text ≠ .folded := by
  unfold style
  simp only
  split_ifs <;> simp

end Quoting

/-! ## Keys -/

open Cursor (octetCount octetCount_append)

lemma octetCount_toList (text : String) : octetCount text.toList = text.utf8ByteSize := by
  have hchars (chars : List Char) : octetCount chars = (String.ofList chars).utf8ByteSize := by
    induction chars with
    | nil => rfl
    | cons c chars ih =>
      have hcons : String.ofList (c :: chars) = String.singleton c ++ String.ofList chars := by
        rw [String.singleton_eq_ofList, ← String.ofList_append]
        rfl
      rw [hcons, String.utf8ByteSize_append, String.utf8ByteSize_singleton, ← ih,
        ← List.singleton_append, octetCount_append]
      simp [octetCount]
  rw [hchars, String.ofList_toList]

lemma octetCount_flatMap_le {spell : Char → List Char} {n : ℕ}
    (h : ∀ c, octetCount (spell c) ≤ n * c.utf8Size) (text : List Char) :
    octetCount (text.flatMap spell) ≤ n * octetCount text := by
  induction text with
  | nil => simp [octetCount]
  | cons c text ih =>
    have hc := h c
    have hcons : octetCount (c :: text) = c.utf8Size + octetCount text := by
      rw [← List.singleton_append, octetCount_append]
      simp [octetCount]
    rw [List.flatMap_cons, octetCount_append, hcons, Nat.mul_add]
    omega

lemma octetCount_singleChar_le (c : Char) : octetCount (Scalar.singleChar c) ≤ 2 * c.utf8Size := by
  unfold Scalar.singleChar
  split_ifs with hc
  · subst hc
    decide
  · simp only [octetCount, List.foldl_cons, List.foldl_nil]
    omega

lemma octetCount_doubleChar_le (c : Char) : octetCount (Quoting.doubleChar c) ≤ 4 * c.utf8Size := by
  rcases Scalar.doubleChar_cases c with ⟨heq, -⟩ | ⟨hspelled, hlength⟩
  · rw [heq]
    simp only [octetCount, List.foldl_cons, List.foldl_nil]
    omega
  · have hone (word : List Char) (hword : ∀ d ∈ word, Scalar.IsSpelling d) :
        octetCount word = word.length := by
      induction word with
      | nil => rfl
      | cons d word ih =>
        obtain ⟨hd, hword⟩ := List.forall_mem_cons.1 hword
        rw [← List.singleton_append, octetCount_append, ih hword]
        simp [octetCount, hd.2.2, Nat.add_comm]
    rwa [hone _ hspelled]

lemma line_quoted (single : Bool) {body : List Char} (hline : ∀ c ∈ body, isBreak c = false)
    (hsize : octetCount body ≤ 512) :
    (∀ c ∈ Scalar.quote single :: (body ++ [Scalar.quote single]), isBreak c = false) ∧
      octetCount (Scalar.quote single :: (body ++ [Scalar.quote single])) ≤ 1024 := by
  have hquote : isBreak (Scalar.quote single) = false := by cases single <;> decide
  have hone : octetCount [Scalar.quote single] = 1 := by cases single <;> decide
  refine ⟨?_, ?_⟩
  · intro c hc
    simp only [List.mem_cons, List.mem_append, List.not_mem_nil, or_false] at hc
    rcases hc with rfl | hc | rfl
    exacts [hquote, hline c hc, hquote]
  · rw [← List.singleton_append, octetCount_append, octetCount_append, hone]
    omega

/-- A simple key is not a block, and it is written on one line and is short. -/
lemma writeKey_of_isSimpleKey {key : String} (h : Quoting.isSimpleKey key = true) :
    Quoting.style key ≠ .literal ∧ (∀ c ∈ Quoting.writeKey key, isBreak c = false) ∧
      octetCount (Quoting.writeKey key) ≤ 1024 := by
  simp only [Quoting.isSimpleKey, Bool.and_eq_true, Bool.not_eq_true', decide_eq_true_eq,
    List.any_eq_false, Bool.not_eq_true] at h
  obtain ⟨hline, hsize⟩ := h
  have hliteral : Quoting.style key ≠ .literal := by
    intro hstyle
    have hbreak := hline '\n' (Quoting.of_style_literal hstyle).2
    revert hbreak
    decide
  rw [← octetCount_toList] at hsize
  refine ⟨hliteral, ?_⟩
  cases hstyle : Quoting.style key with
  | plain =>
    simp only [Quoting.writeKey, hstyle]
    exact ⟨hline, by omega⟩
  | singleQuoted =>
    have hbody : Quoting.singleBody 0 false key.toList = key.toList.flatMap Scalar.singleChar := by
      have happend : Quoting.singleBody 0 false (key.toList ++ []) = _ :=
        Scalar.singleBody_append_line hline []
      simpa [Quoting.singleBody] using happend
    have hshort := octetCount_flatMap_le octetCount_singleChar_le key.toList
    simp only [Quoting.writeKey, hstyle, hbody]
    exact line_quoted true (Scalar.isBreak_of_mem_singleChar hline) (by omega)
  | doubleQuoted =>
    have hshort := octetCount_flatMap_le octetCount_doubleChar_le key.toList
    simp only [Quoting.writeKey, hstyle]
    exact line_quoted false (Scalar.isBreak_of_mem_doubleText key.toList) (by omega)
  | literal => exact absurd hstyle hliteral
  | folded => exact absurd hstyle (Quoting.style_ne_folded key)

/-! ## The last text -/

mutual

/-- The text that is printed last in a value, if what is printed last is a text. -/
def lastText? : Json → Option String
  | .str s => some s
  | .arr items => lastTextOfItems? items
  | .obj members => lastTextOfMembers? members
  | _ => none
termination_by structural value => value

/-- The text that is printed last in some items. -/
def lastTextOfItems? : List Json → Option String
  | [] => none
  | item :: items => if items.isEmpty then lastText? item else lastTextOfItems? items
termination_by structural items => items

/-- The text that is printed last in some members. -/
def lastTextOfMembers? : List (String × Json) → Option String
  | [] => none
  | (_, value) :: members => if members.isEmpty then lastText? value else lastTextOfMembers? members
termination_by structural members => members

end

/-! ## Line ends -/

/-- What is printed ends with the end of a line.  If the last thing in it is a literal block that
keeps the line ends at its tail, that is the end of the text of the block. -/
def EndsLine (last : Option String) (printed : List Char) : Prop :=
  ∃ b ∈ printed.getLast?, isBreak b = true ∧ ∀ text ∈ last, Quoting.style text = .literal →
    Scalar.keepsTail text.toList = true → text.toList.getLast? = some b

lemma EndsLine.append {last : Option String} {printed : List Char} (h : EndsLine last printed)
    (before : List Char) : EndsLine last (before ++ printed) := by
  obtain ⟨b, hb, hlast⟩ := h
  refine ⟨b, ?_, hlast⟩
  have hne : printed ≠ [] := by
    rintro rfl
    cases hb
  rwa [List.getLast?_append_of_ne_nil before hne]

lemma EndsLine.columnOf {last : Option String} {printed : List Char} (h : EndsLine last printed)
    (read : List Char) : Cursor.columnOf (read ++ printed) = 0 := by
  obtain ⟨b, hb, hbreak, -⟩ := h
  obtain ⟨front, rfl⟩ := List.getLast?_eq_some_iff.1 hb
  rw [← List.append_assoc]
  exact Cursor.columnOf_append_break hbreak

lemma endsLine_newline (printed : List Char) : EndsLine none (printed ++ ['\n']) :=
  ⟨'\n', by simp, by decide, nofun⟩

lemma getLast?_literalBody (indent : ℕ) (atStart : Bool) (text : List Char) (c : Char) :
    (Quoting.literalBody indent atStart (text ++ [c])).getLast? =
      some (if isBreak c then c else '\n') := by
  induction text generalizing atStart with
  | nil =>
    cases hc : isBreak c <;> simp [Quoting.literalBody, hc]
  | cons d text ih =>
    have hne (atStart : Bool) : Quoting.literalBody indent atStart (text ++ [c]) ≠ [] := by
      intro hnil
      have hlast := ih atStart
      rw [hnil] at hlast
      cases hlast
    rw [List.cons_append, Quoting.literalBody]
    by_cases hd : isBreak d = true
    · rw [if_pos hd, List.getLast?_cons_of_ne_nil (hne true), ih]
    · rw [if_neg hd, List.getLast?_append_of_ne_nil _ (List.cons_ne_nil _ _),
        List.getLast?_cons_of_ne_nil (hne false), ih]

/-- A block keeps the line ends at its tail only if there are some. -/
lemma isBreak_of_keepsTail {text : List Char} {c : Char}
    (h : Scalar.keepsTail (text ++ [c]) = true) : isBreak c = true := by
  by_contra hc
  have hcore : ∀ d ∈ (text ++ [c]).getLast?, isBreak d = false := by
    intro d hd
    obtain rfl : c = d := by simpa using hd
    exact Bool.eq_false_of_not_eq_true hc
  have hstrip : Scalar.chompingOf (text ++ [c]) [] = .keep :=
    (Scalar.keepsTail_iff (by simp) hcore).1 (by rwa [List.append_nil])
  cases hstrip

lemma endsLine_write (indent : ℕ) (text : String) :
    EndsLine (some text) (Quoting.write indent (Quoting.style text) text) := by
  have hline (printed : List Char) (hstyle : Quoting.style text ≠ .literal) :
      EndsLine (some text) (printed ++ ['\n']) := by
    refine ⟨'\n', by simp, by decide, fun last hlast hliteral => ?_⟩
    obtain rfl := Option.some.inj hlast
    exact absurd hliteral hstyle
  cases hstyle : Quoting.style text with
  | plain => exact hline text.toList (by simp [hstyle])
  | singleQuoted =>
    have hends := hline ('\'' :: (Quoting.singleBody indent false text.toList ++ ['\'']))
      (by simp [hstyle])
    simpa [Quoting.write] using hends
  | doubleQuoted =>
    have hends := hline ('"' :: (text.toList.flatMap Quoting.doubleChar ++ ['"']))
      (by simp [hstyle])
    simpa [Quoting.write] using hends
  | literal =>
    have hne := List.ne_nil_of_mem (Quoting.of_style_literal hstyle).2
    obtain ⟨front, c, hsplit⟩ := text.toList.eq_nil_or_concat'.resolve_left hne
    have hbody : EndsLine (some text) (Quoting.literalBody indent true text.toList) := by
      have hnewline : isBreak '\n' = true := by decide
      refine ⟨if isBreak c then c else '\n', ?_, ?_, ?_⟩
      · rw [hsplit, Option.mem_def, getLast?_literalBody]
      · split_ifs with hc
        exacts [hc, hnewline]
      · intro last hlast _ hkeeps
        obtain rfl := Option.some.inj hlast
        rw [hsplit] at hkeeps ⊢
        rw [if_pos (isBreak_of_keepsTail hkeeps), List.getLast?_concat]
    -- the header stands before the body and does not matter for the end
    have hends := hbody.append (Quoting.literalHeader text.toList ++ ['\n'])
    simpa [Quoting.write] using hends
  | folded => exact absurd hstyle (Quoting.style_ne_folded text)

lemma endsLine_items {item : Json} {items : List Json}
    (h : ∀ item' ∈ item :: items, ∀ m, EndsLine (lastText? item') (valueText m false item'))
    (m : ℕ) : EndsLine (lastTextOfItems? (item :: items))
      (valueText m false item ++ furtherItems m items) := by
  induction items generalizing item with
  | nil => simpa [lastTextOfItems?, furtherItems] using h item (by simp) m
  | cons next items ih =>
    have hnext : EndsLine (lastTextOfItems? (next :: items)) _ :=
      ih fun item' hitem => h item' (List.mem_cons_of_mem _ hitem)
    have hmore := hnext.append (valueText m false item ++ indentation m ++ ['-'])
    simpa [lastTextOfItems?, furtherItems] using hmore

lemma endsLine_members {key : String} {value : Json} {members : List (String × Json)}
    (h : ∀ member ∈ (key, value) :: members, ∀ m onKeyLine,
      EndsLine (lastText? member.2) (valueText m onKeyLine member.2)) (m : ℕ) :
    EndsLine (lastTextOfMembers? ((key, value) :: members))
      (valueText m (Quoting.isSimpleKey key) value ++ furtherMembers m members) := by
  induction members generalizing key value with
  | nil => simpa [lastTextOfMembers?, furtherMembers] using h (key, value) (by simp) m _
  | cons next members ih =>
    obtain ⟨nextKey, nextValue⟩ := next
    have hnext : EndsLine (lastTextOfMembers? ((nextKey, nextValue) :: members)) _ :=
      ih fun member hmember => h member (List.mem_cons_of_mem _ hmember)
    have hmore := hnext.append (valueText m (Quoting.isSimpleKey key) value ++ indentation m ++
      keyText m nextKey)
    simpa [lastTextOfMembers?, furtherMembers] using hmore

/-- The text of a value ends with the end of a line. -/
lemma endsLine_valueText {value : Json} (h : value.IsWhole) (m : ℕ) (onKeyLine : Bool) :
    EndsLine (lastText? value) (valueText m onKeyLine value) := by
  induction h generalizing m onKeyLine with
  | null => exact endsLine_newline " null".toList
  | bool b =>
    cases b with
    | false => exact endsLine_newline " false".toList
    | true => exact endsLine_newline " true".toList
  | num h =>
    rename_i n
    exact endsLine_newline (' ' :: n.write doubleNotation)
  | str s => exact (endsLine_write (m + 2) s).append [' ']
  | arr h ih =>
    rename_i items
    cases items with
    | nil => exact endsLine_newline " []".toList
    | cons item items =>
      have hitems (m : ℕ) : EndsLine (lastTextOfItems? (item :: items)) _ :=
        endsLine_items (fun item' hitem m => ih item' hitem m false) m
      rw [lastText?, valueText]
      cases onKeyLine with
      | false => exact (hitems (m + 2)).append " -".toList
      | true =>
        have hline := (hitems m).append ('\n' :: (indentation m ++ ['-']))
        simpa using hline
  | obj h ih =>
    rename_i members
    cases members with
    | nil => exact endsLine_newline " \x7b\x7d".toList
    | cons member members =>
      obtain ⟨key, value⟩ := member
      have hmembers : EndsLine (lastTextOfMembers? ((key, value) :: members)) _ :=
        endsLine_members ih (m + 2)
      rw [lastText?, valueText, ← List.append_assoc]
      exact hmembers.append _

/-- The text of a list ends with the end of a line. -/
lemma endsLine_sequenceText {items : List Json} (h : ∀ item ∈ items, item.IsWhole) :
    EndsLine (lastTextOfItems? items) (sequenceText items) := by
  cases items with
  | nil => exact endsLine_newline "[]".toList
  | cons item items =>
    have hitems : EndsLine (lastTextOfItems? (item :: items)) _ :=
      endsLine_items (fun item' hitem m => endsLine_valueText (h item' hitem) m false) 0
    exact hitems.append ['-']

/-! ## Numbers -/

lemma hasPair_eq_false {first second : Char → Bool} {text : List Char}
    (h : (∀ c ∈ text, first c = false) ∨ ∀ c ∈ text, second c = false) :
    Quoting.hasPair first second text = false := by
  rw [Quoting.hasPair_eq_false_iff, List.isChain_iff_getElem]
  intro i hi hfirst
  rcases h with h | h
  · rw [h _ (List.getElem_mem _)] at hfirst
    cases hfirst
  · exact h _ (List.getElem_mem _)

lemma beginsWith_eq_false {test : Char → Bool} {text : List Char}
    (h : ∀ c ∈ text, test c = false) : Quoting.beginsWith test text = false := by
  cases text with
  | nil => rfl
  | cons c text => exact h c List.mem_cons_self

/-- A text without blanks, colons and number signs is plain unless it begins with an indicator. -/
lemma allowsPlain_word {text : List Char} (hprint : ∀ c ∈ text, Quoting.isPrintable c = true)
    (hspace : ∀ c ∈ text, isSpace c = false) (hcolon : ':' ∉ text) (hhash : '#' ∉ text)
    (hindicator : Quoting.beginsWithIndicator text = false) : Quoting.allowsPlain text = true := by
  have hblank : ∀ c ∈ text, decide (c = ' ') = false := by
    intro c hc
    refine decide_eq_false ?_
    rintro rfl
    cases hspace ' ' hc
  have hbefore : Quoting.hasPair (· = ' ') isBreak text = false := hasPair_eq_false (.inl hblank)
  have hline : text.any isBreak = false :=
    List.any_eq_false.2 fun c hc => by simp [isBreak_of_isSpace (hspace c hc)]
  have hfinal : Quoting.hasFinalColon text = false := by
    clear hprint hspace hhash hindicator hblank hbefore hline
    induction text with
    | nil => rfl
    | cons c text ih =>
      rw [List.mem_cons, not_or] at hcolon
      simp [Quoting.hasFinalColon, ih hcolon.2, Ne.symm hcolon.1]
  have hall : text.all Quoting.isPrintable = true := List.all_eq_true.2 hprint
  have hcomment : Quoting.hasPair Quoting.isGap (· = '#') text = false := by
    refine hasPair_eq_false (.inr fun c hc => decide_eq_false ?_)
    rintro rfl
    exact hhash hc
  have hends : Quoting.beginsWith (· = ' ') text.reverse = false :=
    beginsWith_eq_false (by simpa using hblank)
  simp [Quoting.allowsPlain, Quoting.isClean, Quoting.hasBlankBeforeBreak, Quoting.hasIndicator,
    Quoting.endsWith, hbefore, hline, hfinal, hcomment, hends, beginsWith_eq_false hblank,
    hindicator, hall]

lemma allowsPlain_intText (n : ℤ) : Quoting.allowsPlain (intText n) = true := by
  have hdigit : ∀ c ∈ Nat.toDigits 10 n.natAbs, Quoting.isPrintable c = true ∧
      isSpace c = false ∧ (isFlowIndicator c = false ∧ c ≠ '\x00') ∧ c.toNat ≠ 96 ∧
        c ∉ "?:-.#&*!|>'\"%@".toList :=
    Scalar.forall_mem_toDigits (by decide) (by decide) n.natAbs
  have hne : Nat.toDigits 10 n.natAbs ≠ [] := Nat.toDigits_ne_nil
  obtain ⟨d, digits, hdigits⟩ := List.exists_cons_of_ne_nil hne
  rw [hdigits] at hdigit
  have hprint : ∀ c ∈ d :: digits, Quoting.isPrintable c = true := fun c hc => (hdigit c hc).1
  have hspace : ∀ c ∈ d :: digits, isSpace c = false := fun c hc => (hdigit c hc).2.1
  have hcolon : ':' ∉ d :: digits := fun hc => (hdigit ':' hc).2.2.2.2 (by decide)
  have hhash : '#' ∉ d :: digits := fun hc => (hdigit '#' hc).2.2.2.2 (by decide)
  obtain ⟨-, hsolid, ⟨hflow, hzero⟩, hcode, hmarks⟩ := hdigit d List.mem_cons_self
  have hdash : ('-' == d) = false := by
    rw [beq_eq_false_iff_ne]
    rintro rfl
    exact hmarks (by decide)
  have hdot : ('.' == d) = false := by
    rw [beq_eq_false_iff_ne]
    rintro rfl
    exact hmarks (by decide)
  have hword : ¬((d = '?' ∨ d = ':') ∨ d = '-') := by
    rintro ((rfl | rfl) | rfl)
    all_goals exact hmarks (by decide)
  have hplain : d ∉ "#&*!|>'\"%@".toList := fun hd =>
    hmarks (List.mem_append_right "?:-.".toList hd)
  unfold intText
  rw [hdigits]
  -- a sign is followed by a digit, so it does not begin an entry of a list
  by_cases hneg : n < 0
  · rw [if_pos hneg]
    refine allowsPlain_word (List.forall_mem_cons.2 ⟨by decide, hprint⟩)
      (List.forall_mem_cons.2 ⟨by decide, hspace⟩) (by simpa using hcolon) (by simpa using hhash) ?_
    simp [Quoting.beginsWithIndicator, Quoting.beforeGap, Quoting.isGap, isFlowIndicator, hsolid,
      hzero, List.isPrefixOf, hdash]
  · rw [if_neg hneg]
    refine allowsPlain_word hprint hspace hcolon hhash ?_
    simpa [Quoting.beginsWithIndicator, hflow, hcode, List.isPrefixOf, hdash, hdot, hword] using
      hplain

/-! ## Printed characters -/

/-- Every character is written as itself. -/
def IsPrinted (text : List Char) : Prop := ∀ c ∈ text, Quoting.isPrintable c = true

instance (text : List Char) : Decidable (IsPrinted text) :=
  decidable_of_iff (text.all Quoting.isPrintable = true) List.all_eq_true

lemma isPrinted_append {text more : List Char} :
    IsPrinted (text ++ more) ↔ IsPrinted text ∧ IsPrinted more := List.forall_mem_append

lemma isPrinted_cons {c : Char} {text : List Char} :
    IsPrinted (c :: text) ↔ Quoting.isPrintable c = true ∧ IsPrinted text := List.forall_mem_cons

lemma isPrinted_indentation (indent : ℕ) : IsPrinted (indentation indent) := by
  intro c hc
  rw [(List.mem_replicate.1 hc).2]
  decide

lemma isPrinted_singleBody {text : List Char} (h : IsPrinted text) (indent : ℕ)
    (afterBreak : Bool) : IsPrinted (Quoting.singleBody indent afterBreak text) := by
  have hindent (afterBreak : Bool) : IsPrinted (if afterBreak then indentation indent else []) := by
    cases afterBreak
    exacts [nofun, isPrinted_indentation indent]
  induction text generalizing afterBreak with
  | nil => exact hindent afterBreak
  | cons c text ih =>
    obtain ⟨hc, htext⟩ := isPrinted_cons.1 h
    have hchar : IsPrinted (if c = '\'' then ['\'', '\''] else [c]) := by
      split_ifs
      · decide
      · exact isPrinted_cons.2 ⟨hc, nofun⟩
    rw [Quoting.singleBody]
    by_cases hbreak : isBreak c = true
    · rw [if_pos hbreak]
      exact isPrinted_cons.2 ⟨hc, ih htext true⟩
    · rw [if_neg hbreak]
      exact isPrinted_append.2 ⟨isPrinted_append.2 ⟨hindent afterBreak, hchar⟩, ih htext false⟩

lemma isPrinted_literalBody {text : List Char} (h : IsPrinted text) (indent : ℕ)
    (atStart : Bool) : IsPrinted (Quoting.literalBody indent atStart text) := by
  have hindent (atStart : Bool) : IsPrinted (if atStart then indentation indent else []) := by
    cases atStart
    exacts [nofun, isPrinted_indentation indent]
  induction text generalizing atStart with
  | nil =>
    rw [Quoting.literalBody]
    cases atStart <;> decide
  | cons c text ih =>
    obtain ⟨hc, htext⟩ := isPrinted_cons.1 h
    rw [Quoting.literalBody]
    by_cases hbreak : isBreak c = true
    · rw [if_pos hbreak]
      exact isPrinted_cons.2 ⟨hc, ih htext true⟩
    · rw [if_neg hbreak]
      exact isPrinted_append.2 ⟨hindent atStart, isPrinted_cons.2 ⟨hc, ih htext false⟩⟩

lemma isPrinted_literalHeader (text : List Char) : IsPrinted (Quoting.literalHeader text) := by
  obtain ⟨core, trail, rfl, htrail, hcore⟩ := Scalar.exists_core text
  rw [Scalar.literalHeader_eq htrail hcore]
  cases Scalar.beginsIndented (core ++ trail) <;> cases Scalar.chompingOf core trail <;> decide

lemma isPrinted_doubleBody (text : List Char) : IsPrinted (text.flatMap Quoting.doubleChar) := by
  intro c hc
  obtain ⟨d, -, hd⟩ := List.mem_flatMap.1 hc
  exact (Scalar.isPrintable_of_mem_doubleChar hd).1

/-- A text is printed in every style that it may be given, alone or as a key. -/
lemma isPrinted_write (indent : ℕ) (text : String) :
    IsPrinted (Quoting.write indent (Quoting.style text) text) ∧
      (Quoting.style text ≠ .literal → IsPrinted (Quoting.writeKey text)) := by
  unfold Quoting.writeKey
  cases hstyle : Quoting.style text with
  | plain =>
    have hplain := (Quoting.of_style_plain hstyle).1
    simp only [Quoting.allowsPlain, Quoting.isClean, Bool.and_eq_true, List.all_eq_true] at hplain
    have htext : IsPrinted text.toList := hplain.1.1.1.1.1
    exact ⟨isPrinted_append.2 ⟨htext, by decide⟩, fun _ => htext⟩
  | singleQuoted =>
    obtain ⟨hsingle, hnewline⟩ := Quoting.of_style_singleQuoted hstyle
    have htext := (Scalar.isSingle_of_allowsSingle hsingle hnewline).printable
    have hbody (indent : ℕ) := isPrinted_singleBody htext indent false
    exact ⟨isPrinted_cons.2 ⟨by decide, isPrinted_append.2 ⟨hbody indent, by decide⟩⟩,
      fun _ => isPrinted_cons.2 ⟨by decide, isPrinted_append.2 ⟨hbody 0, by decide⟩⟩⟩
  | doubleQuoted =>
    have hbody := isPrinted_doubleBody text.toList
    exact ⟨isPrinted_cons.2 ⟨by decide, isPrinted_append.2 ⟨hbody, by decide⟩⟩,
      fun _ => isPrinted_cons.2 ⟨by decide, isPrinted_append.2 ⟨hbody, by decide⟩⟩⟩
  | literal =>
    have hblock := (Quoting.of_style_literal hstyle).1
    simp only [Quoting.allowsBlock, Quoting.isClean, Bool.and_eq_true, List.all_eq_true] at hblock
    have hbody := isPrinted_literalBody hblock.1.1 indent true
    exact ⟨isPrinted_append.2 ⟨isPrinted_literalHeader text.toList,
      isPrinted_cons.2 ⟨by decide, hbody⟩⟩, fun hno => absurd rfl hno⟩
  | folded => exact absurd hstyle (Quoting.style_ne_folded text)

lemma isPrinted_keyText (indent : ℕ) (key : String) : IsPrinted (keyText indent key) := by
  unfold keyText
  by_cases hsimple : Quoting.isSimpleKey key = true
  · rw [if_pos hsimple]
    have hkey := (isPrinted_write indent key).2 (writeKey_of_isSimpleKey hsimple).1
    exact isPrinted_append.2 ⟨hkey, by decide⟩
  · rw [if_neg hsimple]
    have hkey := (isPrinted_write (indent + 2) key).1
    exact isPrinted_cons.2 ⟨by decide, isPrinted_cons.2 ⟨by decide, isPrinted_append.2
      ⟨hkey, isPrinted_append.2 ⟨isPrinted_indentation indent, by decide⟩⟩⟩⟩

lemma isPrinted_items {item : Json} {items : List Json}
    (h : ∀ item' ∈ item :: items, ∀ m, IsPrinted (valueText m false item')) (m : ℕ) :
    IsPrinted (valueText m false item ++ furtherItems m items) := by
  induction items generalizing item with
  | nil => simpa [furtherItems] using h item (by simp) m
  | cons next items ih =>
    have hmore : IsPrinted (valueText m false next ++ furtherItems m items) :=
      ih fun item' hitem => h item' (List.mem_cons_of_mem _ hitem)
    have hentry : IsPrinted (furtherItems m (next :: items)) :=
      isPrinted_append.2 ⟨isPrinted_indentation m, isPrinted_cons.2 ⟨by decide, hmore⟩⟩
    exact isPrinted_append.2 ⟨h item (by simp) m, hentry⟩

lemma isPrinted_members {key : String} {value : Json} {members : List (String × Json)}
    (h : ∀ member ∈ (key, value) :: members, ∀ m onKeyLine,
      IsPrinted (valueText m onKeyLine member.2)) (m : ℕ) :
    IsPrinted (keyText m key ++ (valueText m (Quoting.isSimpleKey key) value ++
      furtherMembers m members)) := by
  induction members generalizing key value with
  | nil =>
    have hvalue := h (key, value) (by simp) m (Quoting.isSimpleKey key)
    simpa [furtherMembers, isPrinted_append, isPrinted_keyText] using hvalue
  | cons next members ih =>
    obtain ⟨nextKey, nextValue⟩ := next
    have hmore : IsPrinted (keyText m nextKey ++ (valueText m (Quoting.isSimpleKey nextKey)
        nextValue ++ furtherMembers m members)) :=
      ih fun member hmember => h member (List.mem_cons_of_mem _ hmember)
    have hentry : IsPrinted (furtherMembers m ((nextKey, nextValue) :: members)) :=
      isPrinted_append.2 ⟨isPrinted_indentation m, hmore⟩
    exact isPrinted_append.2 ⟨isPrinted_keyText m key,
      isPrinted_append.2 ⟨h (key, value) (by simp) m _, hentry⟩⟩

/-- Every character of a printed value is one that is written as itself. -/
lemma isPrinted_valueText {value : Json} (h : value.IsWhole) (m : ℕ) (onKeyLine : Bool) :
    IsPrinted (valueText m onKeyLine value) := by
  induction h generalizing m onKeyLine with
  | null => exact (by decide : IsPrinted " null\n".toList)
  | bool b =>
    cases b with
    | false => exact (by decide : IsPrinted " false\n".toList)
    | true => exact (by decide : IsPrinted " true\n".toList)
  | num h =>
    rename_i n
    cases n with
    | float d => cases h
    | int n =>
      have hplain := allowsPlain_intText n
      simp only [Quoting.allowsPlain, Quoting.isClean, Bool.and_eq_true, List.all_eq_true] at hplain
      exact isPrinted_cons.2 ⟨by decide, isPrinted_append.2 ⟨hplain.1.1.1.1.1, by decide⟩⟩
  | str s => exact isPrinted_cons.2 ⟨by decide, (isPrinted_write (m + 2) s).1⟩
  | arr h ih =>
    rename_i items
    cases items with
    | nil => exact (by decide : IsPrinted " []\n".toList)
    | cons item items =>
      have hitems (m : ℕ) := isPrinted_items (fun item' hitem m => ih item' hitem m false) m
      cases onKeyLine with
      | false => exact isPrinted_append.2 ⟨(by decide : IsPrinted " -".toList), hitems (m + 2)⟩
      | true =>
        exact isPrinted_cons.2 ⟨by decide, isPrinted_append.2 ⟨isPrinted_indentation m,
          isPrinted_cons.2 ⟨by decide, hitems m⟩⟩⟩
  | obj h ih =>
    rename_i members
    cases members with
    | nil => exact (by decide : IsPrinted " \x7b\x7d\n".toList)
    | cons member members =>
      obtain ⟨key, value⟩ := member
      have hmembers := isPrinted_members ih (m + 2)
      rw [valueText]
      refine isPrinted_append.2 ⟨?_, hmembers⟩
      cases onKeyLine with
      | false => exact (by decide : IsPrinted [' '])
      | true => exact isPrinted_cons.2 ⟨by decide, isPrinted_indentation (m + 2)⟩

end Yaml

end SiblingQuery
