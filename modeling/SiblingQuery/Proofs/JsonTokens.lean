import Mathlib.Data.List.TakeWhile
import SiblingQuery.Proofs.JsonDocument

/-!
# Which tokens a JSON tree was read from

`Json.Source.tokens` writes a tree out as tokens, and the reading machine reads it back from them.
Here is the converse: the machine reads a tree from no other tokens (`eq_tokens_of_ofTokens?`).  For
every state of the machine, `taken` is what has been taken to get there, and a step takes
one token more.

The scanner is opened from the same side.  A text that has tokens at all is empty but for blanks, or
it has a first token after some blanks, and the rest of the text has the other tokens
(`scan_eq_cons_iff`).
-/

namespace SiblingQuery

namespace Json

namespace Source

/-! ## The reading machine -/

/-- The tokens of an open array, its items last first, up to where the next item begins. -/
def openedArray : List Source → List Token
  | [] => [.openBracket]
  | item :: done => openedArray done ++ (item.tokens ++ [.comma])

/-- The tokens of an open object, its members last first, up to where the next key begins. -/
def openedObject : List (Quoted × Source) → List Token
  | [] => [.openBrace]
  | (key, value) :: done =>
    openedObject done ++ (.string key :: .colon :: (value.tokens ++ [.comma]))

/-- The tokens of everything that is open. -/
def openedFrames : List Frame → List Token
  | [] => []
  | .array done :: stack => openedFrames stack ++ openedArray done
  | .object done key :: stack => openedFrames stack ++ (openedObject done ++ [.string key, .colon])

/-- The tokens that have been taken. -/
def taken : State → List Token
  | .value stack => openedFrames stack
  | .item stack => openedFrames (.array [] :: stack)
  | .key _ done stack => openedFrames stack ++ openedObject done
  | .colon key done stack => openedFrames stack ++ (openedObject done ++ [.string key])
  | .after value stack => openedFrames stack ++ value.tokens

/-- An object that has just been opened has no members. -/
def State.IsProper : State → Prop
  | .key opened done _ => opened = true → done = []
  | _ => True

/-- The items that are done, one more, and the rest of an array are the whole array. -/
lemma openedArray_append (done : List Source) (item : Source) (items : List Source) :
    openedArray done ++ (item.tokens ++ tokensOfItems items) =
      tokens (.array (done.reverse ++ item :: items)) := by
  induction done generalizing item items with
  | nil => rfl
  | cons last done ih =>
    rw [openedArray, List.reverse_cons, List.append_assoc, List.append_assoc, List.append_assoc,
      List.singleton_append, List.singleton_append]
    exact ih last (item :: items)

/-- The members that are done, one more, and the rest of an object are the whole object. -/
lemma openedObject_append (done : List (Quoted × Source)) (key : Quoted) (value : Source)
    (members : List (Quoted × Source)) :
    openedObject done ++ (.string key :: .colon :: (value.tokens ++ tokensOfMembers members)) =
      tokens (.object (done.reverse ++ (key, value) :: members)) := by
  induction done generalizing key value members with
  | nil => rfl
  | cons last done ih =>
    obtain ⟨lastKey, lastValue⟩ := last
    rw [openedObject, List.reverse_cons, List.append_assoc, List.append_assoc, List.cons_append,
      List.cons_append, List.append_assoc, List.singleton_append, List.singleton_append]
    exact ih lastKey lastValue ((key, value) :: members)

lemma tokens_startValue {stack : List Frame} {token : Token} {next : State}
    (h : startValue stack token = some next) :
    taken next = openedFrames stack ++ [token] ∧ next.IsProper := by
  cases token <;> simp only [startValue, reduceCtorEq] at h <;> obtain rfl := Option.some.inj h
  case openBrace => exact ⟨rfl, fun _ => rfl⟩
  all_goals exact ⟨rfl, trivial⟩

/-- A step takes one token. -/
lemma tokens_step {state next : State} {token : Token} (h : step state token = some next)
    (hproper : state.IsProper) : taken next = taken state ++ [token] ∧ next.IsProper := by
  -- one case for each pair of state and token that the reader accepts
  unfold step at h
  split at h
  · exact tokens_startValue h
  · obtain rfl := Option.some.inj h
    exact ⟨by simp [taken, openedFrames, openedArray, tokens], trivial⟩
  · exact tokens_startValue h
  · obtain rfl := Option.some.inj h
    exact ⟨by simp [taken], trivial⟩
  · obtain rfl := Option.some.inj h
    obtain rfl := hproper rfl
    exact ⟨by simp [taken, openedObject, tokens], trivial⟩
  · obtain rfl := Option.some.inj h
    exact ⟨by simp [taken, openedFrames], trivial⟩
  · obtain rfl := Option.some.inj h
    exact ⟨by simp [taken, openedFrames, openedArray], trivial⟩
  · next value done stack =>
    obtain rfl := Option.some.inj h
    refine ⟨?_, trivial⟩
    have hwhole := openedArray_append done value []
    rw [tokensOfItems] at hwhole
    simp only [taken, openedFrames, List.append_assoc, List.reverse_cons]
    rw [← hwhole]
  · obtain rfl := Option.some.inj h
    exact ⟨by simp [taken, openedFrames, openedObject], nofun⟩
  · next value done key stack =>
    obtain rfl := Option.some.inj h
    refine ⟨?_, trivial⟩
    have hwhole := openedObject_append done key value []
    rw [tokensOfMembers] at hwhole
    simp only [taken, openedFrames, List.append_assoc, List.reverse_cons, List.cons_append,
      List.nil_append]
    rw [← hwhole]
  · cases h

/-- A run takes the tokens that it is given. -/
lemma tokens_foldlM_step {tokens : List Token} {state last : State}
    (h : tokens.foldlM step state = some last) (hproper : state.IsProper) :
    taken last = taken state ++ tokens := by
  induction tokens generalizing state with
  | nil =>
    obtain rfl : state = last := Option.some.inj h
    rw [List.append_nil]
  | cons token tokens ih =>
    rw [List.foldlM_cons] at h
    obtain ⟨next, hnext, hlast⟩ := Option.bind_eq_some_iff.1 h
    obtain ⟨htokens, hproper⟩ := tokens_step hnext hproper
    rw [ih hlast hproper, htokens, List.append_assoc, List.singleton_append]

/-- A tree is read from its own tokens only. -/
lemma eq_tokens_of_ofTokens? {tokens : List Token} {source : Source}
    (h : ofTokens? tokens = some source) : tokens = source.tokens := by
  unfold ofTokens? at h
  split at h
  · next value hrun =>
    obtain rfl := Option.some.inj h
    have htokens := tokens_foldlM_step hrun trivial
    simpa [taken, openedFrames] using htokens.symm
  · cases h

/-- A text that is read as a tree has the tokens of the tree. -/
lemma scan_of_read {text : List Char} {source : Source} (h : read text = some source) :
    Token.scan text = some source.tokens := by
  obtain ⟨tokens, hscan, hread⟩ := Option.bind_eq_some_iff.1 h
  rw [hscan, eq_tokens_of_ofTokens? hread]

end Source

/-! ## The scanner -/

namespace Token

/-- The text without the blanks at its front. -/
def pastSpaces (text : List Char) : List Char := text.dropWhile isSpace

lemma scan_pastSpaces (text : List Char) : scan (pastSpaces text) = scan text := by
  induction text with
  | nil => rfl
  | cons c text ih =>
    unfold pastSpaces at ih ⊢
    by_cases hc : isSpace c = true
    · rw [List.dropWhile_cons_of_pos hc, ih, scan_space hc]
    · rw [List.dropWhile_cons_of_neg hc]

lemma isSpace_head?_pastSpaces (text : List Char) :
    ∀ c ∈ (pastSpaces text).head?, isSpace c = false := by
  intro c hc
  have hnot := List.head?_dropWhile_not isSpace text
  rw [← pastSpaces, Option.mem_def.1 hc] at hnot
  simpa using hnot

/-- The first token of a text stands behind the blanks, and behind it stand the others. -/
lemma scan_eq_cons_iff {text : List Char} {token : Token} {tokens : List Token} :
    scan text = some (token :: tokens) ↔
      ∃ rest, next? (pastSpaces text) = some (token, rest) ∧ scan rest = some tokens := by
  have hspace := isSpace_head?_pastSpaces text
  rw [← scan_pastSpaces]
  constructor
  · intro h
    cases htext : pastSpaces text with
    | nil => simp [htext] at h
    | cons c remaining =>
      rw [htext] at h hspace
      have hc : isSpace c = false := hspace c rfl
      cases hnext : next? (c :: remaining) with
      | none => simp [scan, scanFrom, hc, hnext] at h
      | some pair =>
        obtain ⟨first, rest⟩ := pair
        rw [scan_next hnext hspace] at h
        obtain ⟨others, hothers, heq⟩ := Option.map_eq_some_iff.1 h
        obtain ⟨rfl, rfl⟩ := List.cons.inj heq
        exact ⟨rest, rfl, hothers⟩
  · rintro ⟨rest, hnext, hrest⟩
    rw [scan_next hnext hspace, hrest]
    rfl

/-- A text without tokens is blank. -/
lemma pastSpaces_of_scan_nil {text : List Char} (h : scan text = some []) :
    pastSpaces text = [] := by
  have hspace := isSpace_head?_pastSpaces text
  rw [← scan_pastSpaces] at h
  cases htext : pastSpaces text with
  | nil => rfl
  | cons c remaining =>
    rw [htext] at h hspace
    have hc : isSpace c = false := hspace c rfl
    cases hnext : next? (c :: remaining) with
    | none => simp [scan, scanFrom, hc, hnext] at h
    | some pair =>
      rw [scan_next hnext hspace] at h
      cases hrest : scan pair.2 <;> simp [hrest] at h

/-! ### Numbers -/

lemma isDigit_of_digits? {text digits rest : List Char} (h : digits? text = some (digits, rest)) :
    ∀ c ∈ digits, c.isDigit = true := by
  unfold digits? at h
  rw [List.span_eq_takeWhile_dropWhile] at h
  split at h
  · cases h
  · obtain ⟨rfl, -⟩ := Prod.mk.inj (Option.some.inj h)
    exact fun c hc => List.mem_takeWhile_imp hc

lemma isDigit_of_whole? {text whole rest : List Char} (h : whole? text = some (whole, rest)) :
    whole ≠ [] ∧ ∀ c ∈ whole, c.isDigit = true := by
  unfold whole? at h
  split at h
  · obtain ⟨rfl, -⟩ := Prod.mk.inj (Option.some.inj h)
    exact ⟨by simp, by simp⟩
  · exact ⟨(eq_append_of_digits? h).2, isDigit_of_digits? h⟩

/-- Before the point of a number that has been read there are digits. -/
lemma isDigit_of_numeral? {text rest : List Char} {numeral : Numeral}
    (h : numeral? text = some (numeral, rest)) :
    numeral.whole ≠ [] ∧ ∀ c ∈ numeral.whole, c.isDigit = true := by
  have hunsigned : ∃ negative text, unsigned? negative text = some (numeral, rest) := by
    unfold numeral? at h
    split at h
    · exact ⟨_, _, h⟩
    · exact ⟨_, _, h⟩
  obtain ⟨negative, text, hunsigned⟩ := hunsigned
  simp only [unsigned?, Option.bind_eq_bind, Option.bind_eq_some_iff, Prod.exists,
    Option.pure_def, Option.some.injEq, Prod.mk.injEq] at hunsigned
  obtain ⟨whole, _, hwhole, _, _, _, _, _, _, rfl, rfl⟩ := hunsigned
  exact isDigit_of_whole? hwhole

/-- Of all tokens a number alone begins as a number does. -/
lemma numeral?_of_next? {text rest : List Char} {numeral : Numeral}
    (h : next? text = some (.number numeral, rest)) : numeral? text = some (numeral, rest) := by
  obtain ⟨word, hword, -⟩ | ⟨quoted, after, htoken, -⟩ | ⟨found, htoken, hnumeral⟩ := next?_cases h
  · cases hword
  · cases htoken
  · obtain rfl := Token.number.inj htoken
    exact hnumeral

end Token

end Json

end SiblingQuery
