import SiblingQuery.Proofs.YamlTokens

/-!
# The tokens of a printed YAML text

`valueTokens` is the token form of a printed value, and `leads_value` says that the reader gets it
from the text of the value, wherever that stands (`ReadsValue`).  One entry and one member are the
steps (`leads_entry`, `leads_member`); the entries of a sequence and the members of a mapping follow
by induction on their list, and values by induction on the value.

`scan_sequenceText` is the outcome for a list of values printed as one sequence.
-/

namespace SiblingQuery

namespace Yaml

/-! ## Values as tokens -/

mutual

/-- The tokens of a printed value.  A sequence that leaves the line of its key has no tokens around
its entries, since it stands in the column of the key. -/
def valueTokens (onKeyLine : Bool) : Json → List Token
  | .null => [.scalar .plain "null"]
  | .bool b => [.scalar .plain (if b then "true" else "false")]
  | .num n => [.scalar .plain (String.ofList (n.write doubleNotation))]
  | .str s => [.scalar (Quoting.style s) s]
  | .arr items =>
    if items.isEmpty then [.flowSequenceStart, .flowSequenceEnd]
    else if onKeyLine then itemTokens items
    else .blockSequenceStart :: (itemTokens items ++ [.blockEnd])
  | .obj members =>
    if members.isEmpty then [.flowMappingStart, .flowMappingEnd]
    else .blockMappingStart :: (memberTokens members ++ [.blockEnd])
termination_by structural value => value

/-- The tokens of the entries of a sequence. -/
def itemTokens : List Json → List Token
  | [] => []
  | item :: items => .blockEntry :: (valueTokens false item ++ itemTokens items)
termination_by structural items => items

/-- The tokens of the members of a mapping. -/
def memberTokens : List (String × Json) → List Token
  | [] => []
  | (key, value) :: members =>
    .key :: .scalar (Quoting.style key) key :: .value ::
      (valueTokens (Quoting.isSimpleKey key) value ++ memberTokens members)
termination_by structural members => members

end

namespace Lexer

open Quoting (indentation)

variable {read rest : List Char} {tokens : List Token} {indent : ℤ} {outer : List ℤ} {m : ℕ}
  {s : Lexer}

/-! ## Values -/

/-- Where a literal block that keeps the line ends at its tail is printed last, no other line end
follows. -/
def SparesTail (last : Option String) (rest : List Char) : Prop :=
  rest.head? = some '\n' → ∀ text ∈ last, Quoting.style text = .literal →
    Scalar.keepsTail text.toList = false

lemma sparesTail_of_head? {last : Option String} (h : rest.head? ≠ some '\n') :
    SparesTail last rest := fun hhead => absurd hhead h

/-- The tokens of a value are read from its text, wherever it stands: after the mark in column `m`
that introduces it, and before anything that may follow it. -/
def ReadsValue (value : Json) : Prop :=
  ∀ ⦃m : ℕ⦄ ⦃onKeyLine : Bool⦄ ⦃read rest : List Char⦄ ⦃tokens : List Token⦄ ⦃outer : List ℤ⦄,
    EndsAt m rest → SparesTail (lastText? value) rest → m < Cursor.columnOf read →
    (onKeyLine = false → Cursor.columnOf read = m + 1) →
    Leads (between read (valueText m onKeyLine value ++ rest) tokens m outer none (!onKeyLine))
      (resume (read ++ valueText m onKeyLine value) rest
        ((valueTokens onKeyLine value).reverse ++ tokens) m outer)

lemma EndsAt.mono {m' : ℕ} (h : EndsAt m rest) (hle : m ≤ m') : EndsAt m' rest := by
  obtain ⟨hnewlines, hcount, hafter⟩ := h
  exact .intro hnewlines (hcount.trans hle) hafter

lemma openTokens_self (token : Token) : openTokens m m token tokens = tokens := by
  simp [openTokens]

lemma openOuter_self : openOuter m m outer = outer := by
  simp [openOuter]

lemma openTokens_of_lt {inner : ℕ} (h : m < inner) (token : Token) :
    openTokens m inner token tokens = token :: tokens := by
  simp [openTokens, h]

lemma openOuter_of_lt {inner : ℕ} (h : m < inner) : openOuter m inner outer = ↑m :: outer := by
  simp [openOuter, h]

/-- The text of a value begins with a blank or a line end. -/
lemma exists_valueText_eq_cons (m : ℕ) (onKeyLine : Bool) (value : Json) :
    ∃ c text, valueText m onKeyLine value = c :: text ∧ isSpace c = true := by
  have hblank : isSpace ' ' = true := by decide
  have hnewline : isSpace '\n' = true := by decide
  cases value with
  | null | bool | num | str => exact ⟨' ', _, rfl, hblank⟩
  | arr items =>
    cases items with
    | nil => exact ⟨' ', _, rfl, hblank⟩
    | cons item items =>
      cases onKeyLine
      exacts [⟨' ', _, rfl, hblank⟩, ⟨'\n', _, rfl, hnewline⟩]
  | obj members =>
    cases members with
    | nil => exact ⟨' ', _, rfl, hblank⟩
    | cons member members =>
      cases onKeyLine
      exacts [⟨' ', _, rfl, hblank⟩, ⟨'\n', _, rfl, hnewline⟩]

/-- An entry of a sequence, from its hyphen. -/
lemma leads_entry {item : Json} (hvalue : ReadsValue item)
    (h : Leads s (ready read ('-' :: (valueText m false item ++ rest)) tokens indent outer))
    (hcolumn : Cursor.columnOf read = m) (hindent : indent ≤ m) (hends : EndsAt m rest)
    (hspares : SparesTail (lastText? item) rest) :
    Leads s (resume (read ++ '-' :: valueText m false item) rest ((itemTokens [item]).reverse ++
      openTokens indent m .blockSequenceStart tokens) m (openOuter indent m outer)) := by
  subst hcolumn
  have hright : Cursor.columnOf (read ++ ['-']) = Cursor.columnOf read + 1 :=
    Cursor.columnOf_append (List.forall_mem_singleton.2 (by decide))
  obtain ⟨c, text, htext, hc⟩ := exists_valueText_eq_cons (Cursor.columnOf read) false item
  have hhyphen : Reads s (ready (read ++ ['-'])
      (valueText (Cursor.columnOf read) false item ++ rest)
      (.blockEntry :: openTokens indent (Cursor.columnOf read) .blockSequenceStart tokens)
      (Cursor.columnOf read) (openOuter indent (Cursor.columnOf read) outer)) := by
    rw [htext] at h ⊢
    exact h.token hindent (token?_entry hc hindent) (by simp [between]) (by simp [between])
  have hitem := Leads.of_reads hhyphen (hvalue hends hspares (by omega) (fun _ => hright))
  simpa [itemTokens] using hitem

/-- After a key the text is right of its column, and right behind it if the key is not simple. -/
lemma columnOf_keyText (hcolumn : Cursor.columnOf read = m) (key : String) :
    m < Cursor.columnOf (read ++ keyText m key) ∧
      (Quoting.isSimpleKey key = false → Cursor.columnOf (read ++ keyText m key) = m + 1) := by
  have hcolon : ∀ c ∈ [':'], isBreak c = false := List.forall_mem_singleton.2 (by decide)
  unfold keyText
  by_cases hkey : Quoting.isSimpleKey key = true
  · obtain ⟨-, hline, -⟩ := writeKey_of_isSimpleKey hkey
    have hcolumn' : Cursor.columnOf (read ++ (Quoting.writeKey key ++ [':'])) = _ :=
      Cursor.columnOf_append (List.forall_mem_append.2 ⟨hline, hcolon⟩)
    rw [if_pos hkey, hcolumn', List.length_append, List.length_singleton, hkey]
    exact ⟨by omega, nofun⟩
  · have hstart := (endsLine_write (m + 2) key).columnOf (read ++ ['?', ' '])
    have hindent := Scalar.columnOf_append_indentation hstart m
    have hend : Cursor.columnOf (read ++ '?' :: ' ' :: (Quoting.write (m + 2) (Quoting.style key)
        key ++ (indentation m ++ [':']))) = m + 1 := by
      have happend : Cursor.columnOf (read ++ ['?', ' '] ++ Quoting.write (m + 2)
          (Quoting.style key) key ++ indentation m ++ [':']) = _ := Cursor.columnOf_append hcolon
      rw [hindent] at happend
      simpa using happend
    rw [if_neg hkey, hend]
    exact ⟨by omega, fun _ => rfl⟩

/-- A member of a mapping, from its key. -/
lemma leads_member {key : String} {value : Json} (hvalue : ReadsValue value)
    (h : Leads s (ready read (keyText m key ++ (valueText m (Quoting.isSimpleKey key) value ++
      rest)) tokens indent outer))
    (hcolumn : Cursor.columnOf read = m) (hpos : m ≠ 0) (hindent : indent ≤ m)
    (hends : EndsAt m rest) (hspares : SparesTail (lastText? value) rest) :
    Leads s (resume (read ++ (keyText m key ++ valueText m (Quoting.isSimpleKey key) value)) rest
      ((memberTokens [(key, value)]).reverse ++ openTokens indent m .blockMappingStart tokens) m
        (openOuter indent m outer)) := by
  obtain ⟨c, text, htext, hc⟩ := exists_valueText_eq_cons m (Quoting.isSimpleKey key) value
  obtain ⟨hright, hexact⟩ := columnOf_keyText hcolumn key
  have hkey : Reads s (between (read ++ keyText m key)
      (valueText m (Quoting.isSimpleKey key) value ++ rest)
      (.value :: .scalar (Quoting.style key) key :: .key ::
        openTokens indent m .blockMappingStart tokens) m (openOuter indent m outer) none
          (!Quoting.isSimpleKey key)) := by
    rw [htext] at h ⊢
    exact reads_key hc hcolumn hpos hindent h
  have hmember := Leads.of_reads hkey (hvalue hends hspares hright hexact)
  simpa [memberTokens] using hmember

lemma startsToken_hyphen (text : List Char) : StartsToken ('-' :: text) :=
  startsToken_cons (by decide) text

/-- The entries of a sequence, from the hyphen of the first. -/
lemma leads_entries {item : Json} {items : List Json}
    (hvalues : ∀ item' ∈ item :: items, ReadsValue item' ∧ ∀ read,
      Cursor.columnOf (read ++ valueText m false item') = 0)
    (h : Leads s (ready read ('-' :: (valueText m false item ++ (furtherItems m items ++ rest)))
      tokens indent outer))
    (hcolumn : Cursor.columnOf read = m) (hindent : indent ≤ m) (hends : EndsAt m rest)
    (hspares : SparesTail (lastTextOfItems? (item :: items)) rest) :
    Leads s (resume (read ++ '-' :: (valueText m false item ++ furtherItems m items)) rest
      ((itemTokens (item :: items)).reverse ++ openTokens indent m .blockSequenceStart tokens) m
        (openOuter indent m outer)) := by
  obtain ⟨hvalue, hline⟩ := hvalues item (by simp)
  induction items generalizing item read tokens indent outer with
  | nil => simpa [furtherItems] using leads_entry hvalue h hcolumn hindent hends hspares
  | cons next items ih =>
    have hnext := hvalues next (by simp)
    have hstarts : StartsToken ('-' :: (valueText m false next ++
        (furtherItems m items ++ rest))) := startsToken_hyphen _
    have hfirst := leads_entry hvalue (by simpa [furtherItems] using h) hcolumn hindent
      (endsAt_indentation le_rfl hstarts) (sparesTail_of_head? (head?_indentation hstarts m))
    rw [resume_indentation hstarts] at hfirst
    have hmore := ih (fun item' hitem => hvalues item' (List.mem_cons_of_mem _ hitem)) hfirst
      (Scalar.columnOf_append_indentation (by simpa using hline (read ++ ['-'])) m) le_rfl hspares
      hnext.1 hnext.2
    simpa [itemTokens, furtherItems, openTokens_self, openOuter_self] using hmore

/-- The text of a key begins with a token. -/
lemma startsToken_keyText (m : ℕ) (key : String) (rest : List Char) :
    StartsToken (keyText m key ++ rest) := by
  unfold keyText
  by_cases hkey : Quoting.isSimpleKey key = true
  · rw [if_pos hkey, List.append_assoc]
    unfold Quoting.writeKey
    cases hstyle : Quoting.style key with
    | plain =>
      obtain ⟨hplain, hne⟩ := Quoting.of_style_plain hstyle
      exact startsToken_of_allowsPlain hplain hne _
    | singleQuoted => exact startsToken_cons (by decide) _
    | doubleQuoted | literal | folded => exact startsToken_cons (by decide) _
  · rw [if_neg hkey]
    exact startsToken_cons (by decide) _

/-- The members of a mapping, from the first key. -/
lemma leads_members {key : String} {value : Json} {members : List (String × Json)}
    (hvalues : ∀ member ∈ (key, value) :: members, ReadsValue member.2 ∧ ∀ onKeyLine read,
      Cursor.columnOf (read ++ valueText m onKeyLine member.2) = 0)
    (h : Leads s (ready read (keyText m key ++ (valueText m (Quoting.isSimpleKey key) value ++
      (furtherMembers m members ++ rest))) tokens indent outer))
    (hcolumn : Cursor.columnOf read = m) (hpos : m ≠ 0) (hindent : indent ≤ m)
    (hends : EndsAt m rest)
    (hspares : SparesTail (lastTextOfMembers? ((key, value) :: members)) rest) :
    Leads s (resume (read ++ (keyText m key ++ (valueText m (Quoting.isSimpleKey key) value ++
        furtherMembers m members))) rest
      ((memberTokens ((key, value) :: members)).reverse ++
        openTokens indent m .blockMappingStart tokens) m (openOuter indent m outer)) := by
  obtain ⟨hvalue, hline⟩ := hvalues (key, value) (by simp)
  induction members generalizing key value read tokens indent outer with
  | nil => simpa [furtherMembers] using leads_member hvalue h hcolumn hpos hindent hends hspares
  | cons next members ih =>
    obtain ⟨nextKey, nextValue⟩ := next
    have hnext := hvalues (nextKey, nextValue) (by simp)
    have hstarts : StartsToken (keyText m nextKey ++ (valueText m (Quoting.isSimpleKey nextKey)
        nextValue ++ (furtherMembers m members ++ rest))) := startsToken_keyText m nextKey _
    have hfirst := leads_member hvalue (by simpa [furtherMembers] using h) hcolumn hpos hindent
      (endsAt_indentation le_rfl hstarts) (sparesTail_of_head? (head?_indentation hstarts m))
    rw [resume_indentation hstarts] at hfirst
    have hzero := hline (Quoting.isSimpleKey key) (read ++ keyText m key)
    have hmore := ih (fun member hmember => hvalues member (List.mem_cons_of_mem _ hmember)) hfirst
      (Scalar.columnOf_append_indentation (by simpa using hzero) m) le_rfl hspares hnext.1 hnext.2
    simpa [memberTokens, furtherMembers, openTokens_self, openOuter_self] using hmore

/-- A collection is closed before what follows it. -/
lemma Leads.closeBefore {inner : ℕ} (h : Leads s (resume read rest tokens inner (m :: outer)))
    (hends : EndsAt m rest) (hinner : m < inner) (hstart : Cursor.columnOf read = 0) :
    Leads s (resume read rest (.blockEnd :: tokens) m outer) := by
  obtain ⟨hnewlines, hcount, hafter⟩ := hends
  rename_i newlines after count
  have hbreaks : ∀ c ∈ newlines, isBreak c = true := fun c hc => by
    rw [hnewlines c hc]
    decide
  have hcolumn := Scalar.columnOf_append_indentation (Scalar.columnOf_append_breaks hstart hbreaks)
    count
  rw [resume_lines hnewlines count hafter, ← List.append_assoc] at h ⊢
  refine h.close ?_
  rw [hcolumn]
  omega

/-- Values that are printed as one plain word. -/
lemma readsValue_plain {value : Json} {text : List Char} (htext : Quoting.allowsPlain text = true)
    (hne : text ≠ [])
    (hprint : ∀ m onKeyLine, valueText m onKeyLine value = ' ' :: (text ++ ['\n']))
    (htokens : ∀ onKeyLine, valueTokens onKeyLine value = [.scalar .plain (String.ofList text)]) :
    ReadsValue value := by
  intro m onKeyLine read rest tokens outer hends _ hcolumn _
  rw [hprint, htokens]
  have hleads : Leads (between read _ tokens m outer none (!onKeyLine)) _ :=
    leads_plain htext hne hends hcolumn
  simpa using hleads

/-- Empty collections. -/
lemma readsValue_empty {value : Json} (mapping : Bool) (hprint : ∀ m onKeyLine,
      valueText m onKeyLine value = [' ', (opening mapping).1, (closing mapping).1, '\n'])
    (htokens : ∀ onKeyLine,
      valueTokens onKeyLine value = [(opening mapping).2, (closing mapping).2]) :
    ReadsValue value := by
  intro m onKeyLine read rest tokens outer hends _ hcolumn _
  rw [hprint, htokens]
  have hstarts : StartsToken ((opening mapping).1 :: (closing mapping).1 :: '\n' :: rest) :=
    startsToken_cons (by cases mapping <;> decide) _
  have hright : Cursor.columnOf (read ++ [' ']) = Cursor.columnOf read + 1 := columnOf_blank read
  have hblank : Leads (between read (' ' :: (opening mapping).1 :: (closing mapping).1 ::
      '\n' :: rest) tokens m outer none (!onKeyLine)) _ := leads_blank hstarts
  have hreads := reads_empty mapping (by omega) (by omega) hblank
  have hbreak : isBreak '\n' = true := by decide
  have hpast : IsPast (read ++ [' '] ++ [(opening mapping).1, (closing mapping).1] ++ ['\n'])
      (noted (read ++ [' ']) tokens m (!onKeyLine)) := by
    rw [List.append_assoc]
    exact isPast_noted (by simp [hbreak]) (by omega)
  have hleads : Leads _ _ := ⟨_, hreads, settles_line hends hpast⟩
  simpa using hleads

/-- A collection whose first token stands behind a blank on the line of its mark. -/
lemma leads_inline (hstarts : StartsToken rest) (hcolumn : Cursor.columnOf read = m + 1) :
    Leads (between read (' ' :: rest) tokens indent outer none true)
        (ready (read ++ [' ']) rest tokens indent outer) ∧
      Cursor.columnOf (read ++ [' ']) = m + 2 := by
  refine ⟨leads_blank hstarts, ?_⟩
  rw [columnOf_blank, hcolumn]

/-- A collection whose first token stands on a line of its own. -/
lemma leads_newLine (hstarts : StartsToken rest) (count : ℕ) :
    Leads (between read ('\n' :: (indentation count ++ rest)) tokens indent outer none false)
        (ready (read ++ '\n' :: indentation count) rest tokens indent outer) ∧
      Cursor.columnOf (read ++ '\n' :: indentation count) = count := by
  have hnone : ∀ c ∈ ([] : List Char), c = '\n' := by simp
  have hgap : ∀ c ∈ '\n' :: indentation count, isPrintedSpace c = true :=
    List.forall_mem_cons.2 ⟨by decide, isPrintedSpace_of_newlines hnone count⟩
  have hsettles : Settles (between read ('\n' :: indentation count ++ rest) tokens indent outer none
      false) _ := settles_gap hgap hstarts (isPast_none _)
  have hbreak : isBreak '\n' = true := by decide
  exact ⟨⟨_, .refl, by simpa [hbreak] using hsettles⟩, columnOf_line hnone read count⟩

lemma readsValue_sequence {item : Json} {items : List Json}
    (hvalues : ∀ item' ∈ item :: items, ReadsValue item')
    (hwhole : (Json.arr (item :: items)).IsWhole) : ReadsValue (.arr (item :: items)) := by
  intro m onKeyLine read rest tokens outer hends hspares hcolumn hexact
  have hitems (m : ℕ) : ∀ item' ∈ item :: items, ReadsValue item' ∧ ∀ read,
      Cursor.columnOf (read ++ valueText m false item') = 0 := by
    intro item' hitem
    cases hwhole with
    | arr hwhole =>
      exact ⟨hvalues item' hitem, (endsLine_valueText (hwhole item' hitem) m _).columnOf⟩
  have hend := (endsLine_valueText hwhole m onKeyLine).columnOf read
  have hdeeper : (m : ℤ) ≤ (m + 2 : ℕ) := by omega
  cases onKeyLine with
  | false =>
    obtain ⟨hstart, hright⟩ := leads_inline (startsToken_hyphen _) (hexact rfl)
    have hentries := leads_entries (hitems (m + 2)) hstart hright hdeeper
      (hends.mono (by omega)) hspares
    rw [openTokens_of_lt (by omega), openOuter_of_lt (by omega), List.append_assoc] at hentries
    have hclosed := Leads.closeBefore hentries hends (by omega) hend
    simpa [valueTokens, valueText] using hclosed
  | true =>
    obtain ⟨hstart, hright⟩ := leads_newLine (startsToken_hyphen _) m
    have hentries := leads_entries (hitems m) hstart hright le_rfl hends hspares
    simpa [valueTokens, valueText, openTokens_self, openOuter_self] using hentries

lemma readsValue_mapping {member : String × Json} {members : List (String × Json)}
    (hvalues : ∀ member' ∈ member :: members, ReadsValue member'.2)
    (hwhole : (Json.obj (member :: members)).IsWhole) : ReadsValue (.obj (member :: members)) := by
  intro m onKeyLine read rest tokens outer hends hspares hcolumn hexact
  obtain ⟨key, value⟩ := member
  have hmembers : ∀ member' ∈ (key, value) :: members, ReadsValue member'.2 ∧ ∀ onKeyLine read,
      Cursor.columnOf (read ++ valueText (m + 2) onKeyLine member'.2) = 0 := by
    intro member' hmember
    cases hwhole with
    | obj hwhole =>
      exact ⟨hvalues member' hmember,
        fun _ => (endsLine_valueText (hwhole member' hmember) (m + 2) _).columnOf⟩
  have hend := (endsLine_valueText hwhole m onKeyLine).columnOf read
  have hdeeper : (m : ℤ) ≤ (m + 2 : ℕ) := by omega
  have hstarts := startsToken_keyText (m + 2) key
    (valueText (m + 2) (Quoting.isSimpleKey key) value ++ (furtherMembers (m + 2) members ++ rest))
  cases onKeyLine with
  | false =>
    obtain ⟨hstart, hright⟩ := leads_inline hstarts (hexact rfl)
    have hentries := leads_members hmembers hstart hright (by omega) hdeeper
      (hends.mono (by omega)) hspares
    rw [openTokens_of_lt (by omega), openOuter_of_lt (by omega), List.append_assoc] at hentries
    have hclosed := Leads.closeBefore hentries hends (by omega) hend
    simpa [valueTokens, valueText] using hclosed
  | true =>
    obtain ⟨hstart, hright⟩ := leads_newLine hstarts (m + 2)
    have hentries := leads_members hmembers hstart hright (by omega) hdeeper
      (hends.mono (by omega)) hspares
    rw [openTokens_of_lt (by omega), openOuter_of_lt (by omega)] at hentries
    have hclosed := Leads.closeBefore hentries hends (by omega) (by simpa [valueText] using hend)
    simpa [valueTokens, valueText] using hclosed

/-- Every value is read from its text. -/
lemma leads_value {value : Json} (h : value.IsWhole) : ReadsValue value := by
  induction h with
  | null =>
    have hplain : Quoting.allowsPlain "null".toList = true := by decide
    exact readsValue_plain hplain (by decide) (fun _ _ => rfl) (fun _ => rfl)
  | bool b =>
    have hfalse : Quoting.allowsPlain "false".toList = true := by decide
    have htrue : Quoting.allowsPlain "true".toList = true := by decide
    cases b with
    | false => exact readsValue_plain hfalse (by decide) (fun _ _ => rfl) fun _ => rfl
    | true => exact readsValue_plain htrue (by decide) (fun _ _ => rfl) fun _ => rfl
  | num h =>
    rename_i n
    cases n with
    | float d => cases h
    | int n =>
      obtain ⟨c, text, htext, -⟩ := Json.Token.intText_eq_cons n
      exact readsValue_plain (allowsPlain_intText n) (by simp [htext])
        (fun _ _ => rfl) fun _ => rfl
  | str s =>
    intro m onKeyLine read rest tokens outer hends hspares hcolumn _
    exact leads_text hends (fun hhead => hspares hhead s rfl) hcolumn
  | arr h ih =>
    rename_i items
    cases items with
    | nil => exact readsValue_empty false (fun _ _ => rfl) fun _ => rfl
    | cons item items => exact readsValue_sequence ih (.arr h)
  | obj h ih =>
    rename_i members
    cases members with
    | nil => exact readsValue_empty true (fun _ _ => rfl) fun _ => rfl
    | cons member members => exact readsValue_mapping ih (.obj h)

/-! ## The whole text -/

/-- At the end of the text the one open collection is closed, and the reader stops. -/
lemma Leads.run_end {newlines : List Char} {fuel : ℕ}
    (h : Leads s (resume read newlines tokens 0 [-1])) (hnewlines : ∀ c ∈ newlines, c = '\n')
    (hcolumn : Cursor.columnOf read = 0) (hfuel : s.cursor.text.length < fuel) :
    (runFrom fuel s).map (·.tokens) = some (.streamEnd :: .blockEnd :: tokens) := by
  have hgap : ∀ c ∈ newlines, isPrintedSpace c = true ∧ isBreak c = true := fun c hc => by
    rw [hnewlines c hc]
    decide
  have hend : resume read (newlines ++ []) tokens 0 [-1] =
      ready (read ++ newlines) [] tokens 0 [-1] :=
    resume_append (fun c hc => (hgap c hc).1) startsToken_nil
  have hzero := Scalar.columnOf_append_breaks hcolumn fun c hc => (hgap c hc).2
  rw [List.append_nil] at hend
  rw [hend] at h
  obtain ⟨before, hreads, hsettles⟩ := h
  obtain ⟨fuel', hfuel', hrun⟩ := hreads.runFrom_eq hfuel
  obtain ⟨fuel', rfl⟩ := Nat.exists_eq_add_one_of_ne_zero (by omega : fuel' ≠ 0)
  have hlast : before.step? =
      some (ready (read ++ newlines) [] (.streamEnd :: .blockEnd :: tokens) (-1) []) := by
    rw [step?_eq_bind, hsettles.next, between_cursor, Cursor.between_column, hzero,
      unwind_between (by simp)]
    rfl
  rw [hrun, runFrom, hlast]
  rfl

end Lexer

/-- The tokens of a list of values printed as one sequence, with line feeds behind it. -/
lemma scan_sequenceText {item : Json} {items : List Json} {newlines : List Char}
    (hwhole : ∀ item' ∈ item :: items, item'.IsWhole) (hnewlines : ∀ c ∈ newlines, c = '\n')
    (hspares : Lexer.SparesTail (lastTextOfItems? (item :: items)) newlines) :
    Token.scan (sequenceText (item :: items) ++ newlines) =
      some (.blockSequenceStart :: (itemTokens (item :: items) ++ [.blockEnd, .streamEnd])) := by
  have hallowed : (sequenceText (item :: items) ++ newlines).all isAllowed = true := by
    have hitems := isPrinted_items
      (fun item' hitem m => isPrinted_valueText (hwhole item' hitem) m _) 0
    have hline : IsPrinted newlines := fun c hc => by
      rw [hnewlines c hc]
      decide
    have hprinted : IsPrinted ('-' :: (valueText 0 false item ++ furtherItems 0 items) ++
        newlines) := isPrinted_append.2 ⟨isPrinted_cons.2 ⟨by decide, hitems⟩, hline⟩
    exact List.all_eq_true.2 fun c hc => Quoting.isAllowed_of_isPrintable (hprinted c hc)
  have hends : Lexer.EndsAt 0 newlines := by
    have hnone : Lexer.EndsAt 0 (newlines ++ (Quoting.indentation 0 ++ [])) :=
      .intro hnewlines le_rfl Lexer.startsToken_nil
    rwa [List.append_nil, Quoting.indentation, List.replicate_zero, List.append_nil] at hnone
  have hstart : Lexer.Leads (Lexer.ready [] ('-' :: (valueText 0 false item ++
      (furtherItems 0 items ++ newlines))) [] (-1) []) _ :=
    ⟨_, .refl, Lexer.settles_self (Lexer.startsToken_hyphen _) (Lexer.isPast_none _)⟩
  have hvalues : ∀ item' ∈ item :: items, Lexer.ReadsValue item' ∧ ∀ read,
      Cursor.columnOf (read ++ valueText 0 false item') = 0 := fun item' hitem =>
    ⟨Lexer.leads_value (hwhole item' hitem), (endsLine_valueText (hwhole item' hitem) 0 _).columnOf⟩
  -- the sequence stands in the first column, one level right of where nothing has begun
  have hentries := Lexer.leads_entries hvalues hstart rfl (by decide) hends hspares
  have hline : EndsLine (lastTextOfItems? (item :: items))
      (valueText 0 false item ++ furtherItems 0 items) :=
    endsLine_items (fun item' hitem m => endsLine_valueText (hwhole item' hitem) m false) 0
  have hcolumn : Cursor.columnOf ([] ++ '-' :: (valueText 0 false item ++ furtherItems 0 items)) =
      0 := hline.columnOf ['-']
  have hrun := hentries.run_end hnewlines hcolumn (Nat.lt_succ_self _)
  have hsame : '-' :: (valueText 0 false item ++ (furtherItems 0 items ++ newlines)) =
      sequenceText (item :: items) ++ newlines := by
    simp [sequenceText]
  rw [hsame] at hrun
  rw [Token.scan, if_pos hallowed]
  have hreverse := congrArg (Option.map List.reverse) hrun
  rw [Option.map_map] at hreverse
  refine hreverse.trans ?_
  simp [Lexer.openTokens]

end Yaml

end SiblingQuery
