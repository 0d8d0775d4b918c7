import SiblingQuery.Proofs.YamlLexing
import SiblingQuery.Proofs.YamlPrinted

/-!
# The tokens of printed scalars and keys

A scalar or a key in a printed YAML text is read as one token, or as the few tokens that announce
it.  What a lemma here says of a scalar it says of the scalar as the value after a mark in column
`m`, with anything behind it that may follow there (`EndsAt`).  Where the value ends the reader has
not yet gone on to the next token, so the state after it is named by what it goes on as (`resume`).
-/

namespace SiblingQuery

namespace Yaml

/-! ## What follows a value -/

namespace Lexer

open Quoting (indentation)

variable {read rest : List Char} {tokens : List Token} {indent : ℤ} {outer : List ℤ}
  {block : Option Candidate} {keyAllowed : Bool} {m : ℕ} {s : Lexer}

/-- What may follow a value in column `m`: line feeds, and then a token in that column or left of
it, or the end of the text. -/
inductive EndsAt (m : ℕ) : List Char → Prop
  | intro {newlines after : List Char} {count : ℕ} (hnewlines : ∀ c ∈ newlines, c = '\n')
      (hcount : count ≤ m) (hafter : StartsToken after) :
      EndsAt m (newlines ++ (indentation count ++ after))

/-- The state at the next token after `read`. -/
def resume (read rest : List Char) (tokens : List Token) (indent : ℤ) (outer : List ℤ) : Lexer :=
  ready (read ++ rest.takeWhile isSpace) (rest.dropWhile isSpace) tokens indent outer

lemma resume_append {gap after : List Char} (hgap : ∀ c ∈ gap, isPrintedSpace c = true)
    (hafter : StartsToken after) :
    resume read (gap ++ after) tokens indent outer =
      ready (read ++ gap) after tokens indent outer := by
  have hspace : ∀ c ∈ gap, isSpace c = true := fun c hc => isSpace_of_isPrintedSpace (hgap c hc)
  have hstop : after.dropWhile isSpace = after := by
    cases after with
    | nil => rfl
    | cons c after => simp [hafter.isSpace c rfl]
  rw [resume, takeWhile_append_of_stop hspace hafter.isSpace,
    List.dropWhile_append_of_pos hspace, hstop]

lemma isPrintedSpace_of_newlines {newlines : List Char} (h : ∀ c ∈ newlines, c = '\n')
    (count : ℕ) : ∀ c ∈ newlines ++ indentation count, isPrintedSpace c = true := by
  refine List.forall_mem_append.2 ⟨fun c hc => ?_, fun c hc => ?_⟩
  · rw [h c hc]
    decide
  · rw [(List.mem_replicate.1 hc).2]
    decide

/-- Line feeds and blanks up to a token. -/
lemma resume_lines {newlines after : List Char} (hnewlines : ∀ c ∈ newlines, c = '\n')
    (count : ℕ) (hafter : StartsToken after) :
    resume read (newlines ++ (indentation count ++ after)) tokens indent outer =
      ready (read ++ (newlines ++ indentation count)) after tokens indent outer := by
  rw [← List.append_assoc]
  exact resume_append (isPrintedSpace_of_newlines hnewlines count) hafter

/-- A value on its line ends with the line. -/
lemma settles_line (hends : EndsAt m rest) (hpast : IsPast (read ++ ['\n']) block) :
    Settles (between read ('\n' :: rest) tokens indent outer block keyAllowed)
      (resume (read ++ ['\n']) rest tokens indent outer) := by
  obtain ⟨hnewlines, -, hafter⟩ := hends
  rename_i newlines after count
  have hgap := isPrintedSpace_of_newlines hnewlines count
  have hall : ∀ c ∈ '\n' :: (newlines ++ indentation count), isPrintedSpace c = true :=
    List.forall_mem_cons.2 ⟨by decide, hgap⟩
  have hbreak : isBreak '\n' = true := by decide
  have hblock : IsPast (read ++ '\n' :: (newlines ++ indentation count)) block := by
    simpa using hpast.append (newlines ++ indentation count)
  have hsettles : Settles (between read ('\n' :: (newlines ++ indentation count) ++ after) tokens
      indent outer block keyAllowed) _ := settles_gap hall hafter hblock
  rw [resume_lines hnewlines count hafter]
  simpa [hbreak] using hsettles

/-- Nothing stands before the token. -/
lemma settles_self (hrest : StartsToken rest) (hblock : IsPast read block) :
    Settles (between read rest tokens indent outer block true)
      (ready read rest tokens indent outer) := by
  have hsettles : Settles (between read ([] ++ rest) tokens indent outer block true) _ :=
    settles_gap (by simp) hrest (by simpa using hblock)
  simpa using hsettles

/-- A blank before a token. -/
lemma leads_blank (hrest : StartsToken rest) :
    Leads (between read (' ' :: rest) tokens indent outer none keyAllowed)
      (between (read ++ [' ']) rest tokens indent outer none keyAllowed) := by
  have hblank : isBreak ' ' = false := by decide
  have hspace : ∀ c ∈ [' '], isPrintedSpace c = true := List.forall_mem_singleton.2 (by decide)
  have hsettles : Settles (between read ([' '] ++ rest) tokens indent outer none keyAllowed) _ :=
    settles_gap hspace hrest (isPast_none _)
  exact ⟨_, .refl, by simpa [hblank] using hsettles⟩

lemma columnOf_blank (read : List Char) :
    Cursor.columnOf (read ++ [' ']) = Cursor.columnOf read + 1 := by
  rw [Cursor.columnOf_append (List.forall_mem_singleton.2 (by decide))]
  rfl

lemma columnOf_blank_ne_zero (read : List Char) : Cursor.columnOf (read ++ [' ']) ≠ 0 := by
  rw [columnOf_blank]
  exact Nat.succ_ne_zero _

/-- A token behind a blank, in a column right of the mark that it belongs to. -/
lemma reads_value {t : Lexer} (hrest : StartsToken rest) (hcolumn : m < Cursor.columnOf read)
    (htoken : (between (read ++ [' ']) rest tokens m outer none keyAllowed).token? = some t)
    (hinside : t.tokens.head? ≠ some .streamEnd)
    (hshorter : t.cursor.text.length < rest.length) :
    Reads (between read (' ' :: rest) tokens m outer none keyAllowed) t := by
  refine (leads_blank hrest).token ?_ htoken hinside hshorter
  rw [columnOf_blank]
  omega

/-! ## Scalars as values -/

lemma startsToken_of_allowsPlain {text : List Char} (htext : Quoting.allowsPlain text = true)
    (hne : text ≠ []) (rest : List Char) : StartsToken (text ++ rest) := by
  obtain ⟨c, text, rfl⟩ := List.exists_cons_of_ne_nil hne
  obtain ⟨hspace, hhash⟩ := (Scalar.head?_of_allowsPlain htext).2 c rfl
  refine startsToken_cons ⟨hspace, hhash, ?_⟩ _
  rintro rfl
  have hprint := htext
  simp only [Quoting.allowsPlain, Quoting.isClean, Bool.and_eq_true, List.all_eq_true] at hprint
  have hmark := hprint.1.1.1.1.1 '\ufeff' List.mem_cons_self
  revert hmark
  decide

lemma columnOf_line {newlines : List Char} (h : ∀ c ∈ newlines, c = '\n') (read : List Char)
    (count : ℕ) : Cursor.columnOf (read ++ '\n' :: (newlines ++ indentation count)) = count := by
  have hbreaks : ∀ c ∈ newlines, isBreak c = true := fun c hc => by
    rw [h c hc]
    decide
  have hstart : Cursor.columnOf (read ++ ['\n']) = 0 := Cursor.columnOf_append_break (by decide)
  have hcolumn := Scalar.columnOf_append_indentation
    (Scalar.columnOf_append_breaks hstart hbreaks) count
  simpa using hcolumn

/-- A plain scalar as a value. -/
lemma leads_plain {text : List Char} (htext : Quoting.allowsPlain text = true) (hne : text ≠ [])
    (hends : EndsAt m rest) (hcolumn : m < Cursor.columnOf read) :
    Leads (between read (' ' :: (text ++ '\n' :: rest)) tokens m outer none keyAllowed)
      (resume (read ++ ' ' :: (text ++ ['\n'])) rest
        (.scalar .plain (String.ofList text) :: tokens) m outer) := by
  obtain ⟨hnewlines, hcount, hafter⟩ := hends
  rename_i newlines after count
  have hpos := columnOf_blank_ne_zero read
  have hbreak : isBreak '\n' = true := by decide
  have hgap : ∀ c ∈ '\n' :: (newlines ++ indentation count), isPrintedSpace c = true :=
    List.forall_mem_cons.2 ⟨by decide, isPrintedSpace_of_newlines hnewlines count⟩
  have hplain : Scalar.plain? false ((m : ℤ) + 1).toNat (Cursor.between (read ++ [' '])
      (text ++ ('\n' :: (newlines ++ indentation count) ++ after))) = _ :=
    Scalar.plain?_line htext hne hpos (by rw [columnOf_blank]; omega) hgap rfl hafter.isSpace
      (by rw [columnOf_line hnewlines]; omega)
  have hstarts := Scalar.head?_of_allowsPlain htext
  have htoken : (between (read ++ [' '])
      (text ++ ('\n' :: (newlines ++ indentation count) ++ after)) tokens m outer none
        keyAllowed).token? = _ :=
    (token?_plain hne hstarts.1 (fun c hc => (hstarts.2 c hc).1) hpos).trans
      (plainScalar?_between hplain)
  have hreads := reads_value (startsToken_of_allowsPlain htext hne _) hcolumn htoken
    (by simp [between]) (by simp [between]; omega)
  -- the scalar may have been a key, but its line has ended without a colon
  have hpast : IsPast (read ++ [' '] ++ (text ++ '\n' :: (newlines ++ indentation count)))
      (noted (read ++ [' ']) tokens m keyAllowed) :=
    isPast_noted (by simp [hbreak]) (by rw [columnOf_blank]; omega)
  rw [← List.append_assoc] at hpast
  have hleads : Leads _ _ := ⟨_, hreads, settles_self hafter hpast⟩
  rw [resume_lines hnewlines count hafter]
  simpa using hleads

/-- A quoted scalar as a value. -/
lemma leads_quoted {single : Bool} {body text : List Char}
    (hread : Scalar.quoted? single (Cursor.between (read ++ [' ']) (Scalar.quote single :: (body ++
      Scalar.quote single :: '\n' :: rest))) = some (text, Cursor.between (read ++ [' '] ++
        Scalar.quote single :: (body ++ [Scalar.quote single])) ('\n' :: rest)))
    (hends : EndsAt m rest) (hcolumn : m < Cursor.columnOf read) :
    Leads (between read (' ' :: Scalar.quote single :: (body ++ Scalar.quote single ::
        '\n' :: rest)) tokens m outer none keyAllowed)
      (resume (read ++ ' ' :: Scalar.quote single :: (body ++ [Scalar.quote single, '\n'])) rest
        (.scalar (if single then .singleQuoted else .doubleQuoted) (String.ofList text) :: tokens)
        m outer) := by
  have hstarts : StartsToken (Scalar.quote single :: (body ++ Scalar.quote single ::
      '\n' :: rest)) := startsToken_cons (by cases single <;> decide) _
  have hright : (m : ℤ) < Cursor.columnOf (read ++ [' ']) := by
    rw [columnOf_blank]
    omega
  have hreads : Reads (between read (' ' :: _) tokens m outer none keyAllowed) _ :=
    reads_value hstarts hcolumn (token?_quoted (columnOf_blank_ne_zero read) hread)
      (by simp [between]) (by simp [between]; omega)
  have hbreak : isBreak '\n' = true := by decide
  -- the scalar may have been a key, but its line has ended without a colon
  have hpast : IsPast (read ++ [' '] ++ (Scalar.quote single :: (body ++ [Scalar.quote single]) ++
      ['\n'])) (noted (read ++ [' ']) tokens m keyAllowed) :=
    isPast_noted (by simp [hbreak]) hright
  rw [← List.append_assoc] at hpast
  have hleads : Leads _ _ := ⟨_, hreads, settles_line hends hpast⟩
  simpa using hleads

/-- A literal block as a value. -/
lemma leads_literal {text : List Char} (hprint : ∀ c ∈ text, Quoting.isPrintable c = true)
    (hne : text ≠ []) (hends : EndsAt m rest)
    (hopen : rest.head? = some '\n' → Scalar.keepsTail text = false)
    (hcolumn : m < Cursor.columnOf read) :
    Leads (between read (' ' :: (Quoting.literalHeader text ++
        '\n' :: (Quoting.literalBody (m + 2) true text ++ rest))) tokens m outer none keyAllowed)
      (resume (read ++ ' ' :: (Quoting.literalHeader text ++
        '\n' :: Quoting.literalBody (m + 2) true text)) rest
          (.scalar .literal (String.ofList text) :: tokens) m outer) := by
  obtain ⟨hnewlines, hcount, hafter⟩ := hends
  rename_i newlines after count
  obtain ⟨header, hheader⟩ : ∃ header, Quoting.literalHeader text = '|' :: header := ⟨_, rfl⟩
  have hstarts (rest : List Char) : StartsToken ('|' :: header ++ rest) :=
    startsToken_cons (by decide) _
  have hfollows : Scalar.Follows (m + 2) count newlines after :=
    ⟨hnewlines, by omega, hafter.isSpace⟩
  have hkeeps : newlines ≠ [] → Scalar.keepsTail text = false := by
    intro hne
    obtain ⟨c, newlines, rfl⟩ := List.exists_cons_of_ne_nil hne
    refine hopen ?_
    rw [hnewlines c List.mem_cons_self]
    rfl
  have hblock : Scalar.block? false m (Cursor.between (read ++ [' '])
      (Quoting.literalHeader text ++ '\n' :: (Quoting.literalBody (m + 2) true text ++
        (newlines ++ (indentation count ++ after))))) = _ :=
    Scalar.block?_literal hprint hne hfollows hkeeps
  rw [hheader] at hblock
  have hreads : Reads (between read (' ' :: _) tokens m outer none keyAllowed) _ :=
    reads_value (hstarts _) hcolumn (token?_literal (columnOf_blank_ne_zero read) hblock)
      (by simp [between]) (by simp [between]; omega)
  have hleads : Leads _ _ := ⟨_, hreads, settles_self hafter (isPast_none _)⟩
  rw [resume_lines hnewlines count hafter, hheader]
  simpa using hleads

/-- A text as a value, in the style that suits it. -/
lemma leads_text {text : String} (hends : EndsAt m rest)
    (hopen : rest.head? = some '\n' → Quoting.style text = .literal →
      Scalar.keepsTail text.toList = false) (hcolumn : m < Cursor.columnOf read) :
    Leads (between read (' ' :: (Quoting.write (m + 2) (Quoting.style text) text ++ rest)) tokens m
        outer none keyAllowed)
      (resume (read ++ ' ' :: Quoting.write (m + 2) (Quoting.style text) text) rest
        (.scalar (Quoting.style text) text :: tokens) m outer) := by
  cases hstyle : Quoting.style text with
  | plain =>
    obtain ⟨hplain, hne⟩ := Quoting.of_style_plain hstyle
    have hleads : Leads (between read (' ' :: (text.toList ++ '\n' :: rest)) tokens m outer none
        keyAllowed) _ := leads_plain hplain hne hends hcolumn
    simpa [Quoting.write] using hleads
  | singleQuoted =>
    obtain ⟨hsingle, hnewline⟩ := Quoting.of_style_singleQuoted hstyle
    have hread : Scalar.quoted? true (Cursor.between (read ++ [' ']) (Scalar.quote true ::
        (Quoting.singleBody (m + 2) false text.toList ++ Scalar.quote true :: '\n' :: rest))) = _ :=
      Scalar.quoted?_single (Scalar.isSingle_of_allowsSingle hsingle hnewline) (.inl (by omega))
        (by simp)
    have hleads : Leads (between read _ tokens m outer none keyAllowed) _ :=
      leads_quoted hread hends hcolumn
    simpa [Quoting.write, Scalar.quote] using hleads
  | doubleQuoted =>
    have hread : Scalar.quoted? false (Cursor.between (read ++ [' ']) (Scalar.quote false ::
        (text.toList.flatMap Quoting.doubleChar ++ Scalar.quote false :: '\n' :: rest))) = _ :=
      Scalar.quoted?_double text.toList
    have hleads : Leads (between read _ tokens m outer none keyAllowed) _ :=
      leads_quoted hread hends hcolumn
    simpa [Quoting.write, Scalar.quote] using hleads
  | literal =>
    obtain ⟨hblock, hnewline⟩ := Quoting.of_style_literal hstyle
    simp only [Quoting.allowsBlock, Quoting.isClean, Bool.and_eq_true, List.all_eq_true] at hblock
    have hleads : Leads (between read _ tokens m outer none keyAllowed) _ :=
      leads_literal hblock.1.1 (List.ne_nil_of_mem hnewline) hends (fun hhead => hopen hhead hstyle)
        hcolumn
    simpa [Quoting.write] using hleads
  | folded => exact absurd hstyle (Quoting.style_ne_folded text)

/-! ## Keys -/

variable {c : Char}

/-- A quoted key, from its opening quote. -/
lemma reads_quotedKey {single : Bool} {body text : List Char} (hcolumn : Cursor.columnOf read ≠ 0)
    (hindent : indent ≤ Cursor.columnOf read)
    (hread : Scalar.quoted? single (Cursor.between read (Scalar.quote single :: (body ++
      Scalar.quote single :: rest))) = some (text, Cursor.between (read ++ Scalar.quote single ::
        (body ++ [Scalar.quote single])) rest))
    (h : Leads s (ready read ((Scalar.quote single :: (body ++ [Scalar.quote single])) ++ rest)
      tokens indent outer)) :
    Reads s (between (read ++ Scalar.quote single :: (body ++ [Scalar.quote single])) rest
      (.scalar (if single then .singleQuoted else .doubleQuoted) (String.ofList text) :: tokens)
      indent outer (noted read tokens indent true) false) := by
  simp only [List.cons_append, List.append_assoc, List.nil_append] at h
  exact h.token hindent (token?_quoted hcolumn hread) (by simp [between])
    (by simp [between]; omega)

/-- A simple key up to its colon. -/
lemma reads_simpleKey {key : String} (hkey : Quoting.isSimpleKey key = true)
    (hc : isSpace c = true) (hcolumn : Cursor.columnOf read ≠ 0)
    (hindent : indent ≤ Cursor.columnOf read)
    (h : Leads s (ready read (Quoting.writeKey key ++ ':' :: c :: rest) tokens indent outer)) :
    Reads s (between (read ++ Quoting.writeKey key) (':' :: c :: rest)
      (.scalar (Quoting.style key) key :: tokens) indent outer (noted read tokens indent true)
        false) := by
  have hline : ∀ c ∈ key.toList, isBreak c = false := by
    simp only [Quoting.isSimpleKey, Bool.and_eq_true, Bool.not_eq_true', List.any_eq_false,
      Bool.not_eq_true] at hkey
    exact hkey.1
  -- a simple key is on one line, so it is written without a block and without a fold
  cases hstyle : Quoting.style key with
  | plain =>
    obtain ⟨hplain, hne⟩ := Quoting.of_style_plain hstyle
    have hstarts := Scalar.head?_of_allowsPlain hplain
    have hscalar : Scalar.plain? false (indent + 1).toNat (Cursor.between read (key.toList ++
        ':' :: c :: rest)) = _ := Scalar.plain?_colon hplain hne hcolumn (by omega) hc
    have htoken : (ready read (key.toList ++ ':' :: c :: rest) tokens indent outer).token? = _ :=
      (token?_plain hne hstarts.1 (fun c hc => (hstarts.2 c hc).1) hcolumn).trans
        (plainScalar?_between hscalar)
    have hwrite : Quoting.writeKey key = key.toList := by rw [Quoting.writeKey, hstyle]
    have hlength := List.length_pos_iff.2 hne
    rw [hwrite] at h ⊢
    have hreads := h.token hindent htoken (by simp [between])
      (by simp only [between_cursor, Cursor.between_text, List.length_append]; omega)
    simpa using hreads
  | singleQuoted =>
    obtain ⟨hsingle, hnewline⟩ := Quoting.of_style_singleQuoted hstyle
    have hread : Scalar.quoted? true (Cursor.between read (Scalar.quote true ::
        (Quoting.singleBody 0 false key.toList ++ Scalar.quote true :: ':' :: c :: rest))) = _ :=
      Scalar.quoted?_single (Scalar.isSingle_of_allowsSingle hsingle hnewline) (.inr hline)
        (by simp)
    have hwrite : Quoting.writeKey key = Scalar.quote true ::
        (Quoting.singleBody 0 false key.toList ++ [Scalar.quote true]) := by
      rw [Quoting.writeKey, hstyle]
      rfl
    rw [hwrite] at h ⊢
    simpa using reads_quotedKey hcolumn hindent hread h
  | doubleQuoted =>
    have hread : Scalar.quoted? false (Cursor.between read (Scalar.quote false ::
        (key.toList.flatMap Quoting.doubleChar ++ Scalar.quote false :: ':' :: c :: rest))) = _ :=
      Scalar.quoted?_double key.toList
    have hwrite : Quoting.writeKey key = Scalar.quote false ::
        (key.toList.flatMap Quoting.doubleChar ++ [Scalar.quote false]) := by
      rw [Quoting.writeKey, hstyle]
      rfl
    rw [hwrite] at h ⊢
    simpa using reads_quotedKey hcolumn hindent hread h
  | literal => exact absurd hstyle (writeKey_of_isSimpleKey hkey).1
  | folded => exact absurd hstyle (Quoting.style_ne_folded key)

/-- The colon of a simple key. -/
lemma reads_simpleColon {key : String} (hkey : Quoting.isSimpleKey key = true)
    (hc : isSpace c = true) (hcolumn : Cursor.columnOf read ≠ 0)
    (hindent : indent ≤ Cursor.columnOf read)
    (h : Leads s (ready read (Quoting.writeKey key ++ ':' :: c :: rest) tokens indent outer)) :
    Reads s (between (read ++ (Quoting.writeKey key ++ [':'])) (c :: rest)
      (.value :: .scalar (Quoting.style key) key :: .key ::
        openTokens indent (Cursor.columnOf read) .blockMappingStart tokens)
      (Cursor.columnOf read) (openOuter indent (Cursor.columnOf read) outer) none false) := by
  obtain ⟨-, hline, hshort⟩ := writeKey_of_isSimpleKey hkey
  have hpast : Cursor.columnOf (read ++ Quoting.writeKey key) =
      Cursor.columnOf read + (Quoting.writeKey key).length := Cursor.columnOf_append hline
  have hstarts : StartsToken (':' :: c :: rest) := startsToken_cons (by decide) _
  have hreads := reads_simpleKey hkey hc hcolumn hindent h
  refine hreads.tail ⟨?_, by simp [between], by simp [between]⟩
  rw [step?_between hstarts (isFresh_append hline hshort) (by omega)]
  exact (token?_simple hc (by omega) hindent).trans (by simp)

/-- Blanks up to a column, and a token there. -/
lemma endsAt_indentation {count : ℕ} (hcount : count ≤ m) (hrest : StartsToken rest) :
    EndsAt m (indentation count ++ rest) := by
  have hnone : ∀ c ∈ ([] : List Char), c = '\n' := by simp
  exact .intro hnone hcount hrest

lemma resume_indentation {count : ℕ} (hrest : StartsToken rest) :
    resume read (indentation count ++ rest) tokens indent outer =
      ready (read ++ indentation count) rest tokens indent outer := by
  have hnone : ∀ c ∈ ([] : List Char), c = '\n' := by simp
  exact resume_append (isPrintedSpace_of_newlines hnone count) hrest

lemma head?_indentation (hrest : StartsToken rest) (count : ℕ) :
    (indentation count ++ rest).head? ≠ some '\n' := by
  intro hhead
  cases count with
  | zero =>
    obtain ⟨hspace, -⟩ := hrest '\n' hhead
    cases hspace
  | succ count => cases hhead

/-- A key that is not simple stands between a question mark and a line of its own for the colon. -/
lemma reads_longKey {key : String} (hc : isSpace c = true) (hcolumn : Cursor.columnOf read = m)
    (hpos : m ≠ 0) (hindent : indent ≤ m)
    (h : Leads s (ready read ('?' :: ' ' :: (Quoting.write (m + 2) (Quoting.style key) key ++
      (indentation m ++ ':' :: c :: rest))) tokens indent outer)) :
    Reads s (ready (read ++ '?' :: ' ' :: (Quoting.write (m + 2) (Quoting.style key) key ++
        (indentation m ++ [':']))) (c :: rest)
      (.value :: .scalar (Quoting.style key) key :: .key ::
        openTokens indent m .blockMappingStart tokens) m (openOuter indent m outer)) := by
  subst hcolumn
  have hblank : isSpace ' ' = true := by decide
  have hcolon : StartsToken (':' :: c :: rest) := startsToken_cons (by decide) _
  have hquestion := h.token hindent (token?_question hblank hindent hpos) (by simp [between])
    (by simp [between])
  have hright : Cursor.columnOf (read ++ ['?']) = Cursor.columnOf read + 1 :=
    Cursor.columnOf_append (List.forall_mem_singleton.2 (by decide))
  have hends : EndsAt (Cursor.columnOf read)
      (indentation (Cursor.columnOf read) ++ ':' :: c :: rest) := endsAt_indentation le_rfl hcolon
  have htext := Leads.of_reads hquestion (leads_text hends
    (fun hhead => absurd hhead (head?_indentation hcolon _)) (by omega))
  rw [resume_indentation hcolon] at htext
  have hstart := (endsLine_write (Cursor.columnOf read + 2) key).columnOf (read ++ ['?'] ++ [' '])
  have hcolumn : Cursor.columnOf (read ++ ['?'] ++ ' ' :: Quoting.write (Cursor.columnOf read + 2)
      (Quoting.style key) key ++ indentation (Cursor.columnOf read)) = Cursor.columnOf read :=
    Scalar.columnOf_append_indentation (by simpa using hstart) _
  have hreads := htext.token (by rw [hcolumn]) (token?_value hc (by rw [hcolumn])
    (by rwa [hcolumn])) (by simp [between]) (by simp [between])
  simpa using hreads

/-- A key of either kind, up to the blank or line end after its colon. -/
lemma reads_key {key : String} (hc : isSpace c = true) (hcolumn : Cursor.columnOf read = m)
    (hpos : m ≠ 0) (hindent : indent ≤ m)
    (h : Leads s (ready read (keyText m key ++ c :: rest) tokens indent outer)) :
    Reads s (between (read ++ keyText m key) (c :: rest)
      (.value :: .scalar (Quoting.style key) key :: .key ::
        openTokens indent m .blockMappingStart tokens) m (openOuter indent m outer) none
          (!Quoting.isSimpleKey key)) := by
  subst hcolumn
  unfold keyText at h ⊢
  by_cases hkey : Quoting.isSimpleKey key = true
  · rw [if_pos hkey, List.append_assoc] at h
    rw [if_pos hkey, hkey]
    exact reads_simpleColon hkey hc hpos hindent h
  · rw [if_neg hkey] at h
    rw [if_neg hkey, Bool.eq_false_of_not_eq_true hkey]
    exact reads_longKey hc rfl hpos hindent (by simpa using h)

end Lexer

end Yaml

end SiblingQuery
