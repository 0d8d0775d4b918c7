import SiblingQuery.Proofs.WellFormed

/-!
# The shape of a JSON tree document

Which documents are read as nodes, and as which node.  A document is a `Json.Source`: objects are
lists of members in the order of the text, and a key may stand there more than once.

* `Source.IsNode` and what it rests on say which documents have the shape of a node.  Nothing in
  them speaks of reading.  They leave open what a line, column or offset looks like, which is
  `Source.IsWord` for the reader.
* `Source.DenotesNode` says which node a document of that shape denotes, again without reading it.

The reader takes exactly the documents of that shape, as long as they stay within the limits that it
has for any JSON value (`Source.IsWithinLimits`), and it makes of each the node that it denotes.

The reader cuts an object into entries and sorts these by what they say, while the shape looks the
values under a key up.  `forall₂_under` connects the two: the values under a key and the entries of
the matching kind correspond one to one, in order.
-/

namespace SiblingQuery

namespace Json.Source

/-- A document that can be read as some JSON value, at most `depth` arrays and objects deep: its
numbers are not beyond the doubles and its texts hold no unpaired surrogates. -/
def IsWithinLimits (depth : ℕ) (source : Source) : Prop := ∃ value, source.value? depth = some value

/-- The values of the members under a key, in order. -/
def under (key : String) (members : List (Quoted × Source)) : List Source :=
  (members.filter fun member => member.1.text? = some key).map Prod.snd

/-! ## Shapes -/

section Shape

variable (IsCount : Source → Prop)

/-- An offset, or null for none. -/
def IsOffset (source : Source) : Prop := source = .null ∨ IsCount source

/-- An object with one line, one column and at most one offset, or an array of the same. -/
inductive IsPoint : Source → Prop
  | object {members : List (Quoted × Source)} {line column : Source}
      (hline : under "line" members = [line]) (hcolumn : under "column" members = [column])
      (hlineCount : IsCount line) (hcolumnCount : IsCount column)
      (honce : (under "offset" members).length ≤ 1)
      (hoffset : ∀ offset ∈ under "offset" members, offset.IsOffset IsCount) :
      IsPoint (.object members)
  | pair {line column : Source} (hline : IsCount line) (hcolumn : IsCount column) :
      IsPoint (.array [line, column])
  | triple {line column offset : Source} (hline : IsCount line) (hcolumn : IsCount column)
      (hoffset : offset.IsOffset IsCount) : IsPoint (.array [line, column, offset])

/-- An object with one start and one end, or null for no position. -/
inductive IsPosition : Source → Prop
  | null : IsPosition .null
  | object {members : List (Quoted × Source)} {start stop : Source}
      (hstart : under "start" members = [start]) (hstop : under "end" members = [stop])
      (hstartPoint : start.IsPoint IsCount) (hstopPoint : stop.IsPoint IsCount) :
      IsPosition (.object members)

mutual

/-- An object with at most one type, which is a string, at most one children list and at most one
position.  Other members may be anything and may repeat. -/
inductive IsNode : Source → Prop
  | object {members : List (Quoted × Source)}
      (honce : ∀ key, Node.isReserved key = true → (under key members).length ≤ 1)
      (htype : ∀ source ∈ under "type" members, ∃ name, source = .string name)
      (hchildren : ∀ source ∈ under "children" members, IsChildren source)
      (hposition : ∀ source ∈ under "position" members, source.IsPosition IsCount) :
      IsNode (.object members)

/-- An array of nodes, or null for no children. -/
inductive IsChildren : Source → Prop
  | null : IsChildren .null
  | array {items : List Source} (h : ∀ item ∈ items, IsNode item) : IsChildren (.array items)

end

end Shape

/-! ## What a document of that shape denotes -/

/-- A word is written as digits and nothing else: there is no fraction and no exponent, and no sign
either, so `-0` is none. -/
def DenotesWord (source : Source) (n : ℕ) : Prop :=
  ∃ numeral : Numeral, source = .number numeral ∧ numeral.negative = false ∧
    numeral.isInteger = true ∧ Numeral.natOfDigits numeral.whole = n ∧ n ≤ maxWord

/-- A line, column or offset as the reader takes it. -/
def IsWord (source : Source) : Prop := ∃ n, source.DenotesWord n

/-- An integer in the range of words that is written without fraction and exponent.  Its sign does not
matter, so `-0` is one; the reader does not take lines of this kind for lines. -/
def IsPlainInteger (source : Source) : Prop :=
  ∃ numeral : Numeral, source = .number numeral ∧ numeral.isInteger = true ∧
    ∃ n : ℤ, n = (if numeral.negative then -1 else 1) * Numeral.natOfDigits numeral.whole ∧
      0 ≤ n ∧ n ≤ maxWord

/-- A known offset, or none. -/
inductive DenotesOffset : Source → Option ℕ → Prop
  | null : DenotesOffset .null none
  | word {source : Source} {n : ℕ} (h : source.DenotesWord n) : DenotesOffset source (some n)

/-- What the values under a key denote together: something fixed if there is none, and if there is
one, what this denotes.  If there are more they denote nothing. -/
inductive DenoteOnce {α : Type} (denotes : Source → α → Prop) (missing : α) :
    List Source → α → Prop
  | missing : DenoteOnce denotes missing [] missing
  | value {source : Source} {a : α} (h : denotes source a) : DenoteOnce denotes missing [source] a

/-- Lines and columns are words; a missing offset is none, and so is a null. -/
inductive DenotesPoint : Source → Point → Prop
  | object {members : List (Quoted × Source)} {line column : Source} {n m : ℕ} {answer : Option ℕ}
      (hline : under "line" members = [line]) (hcolumn : under "column" members = [column])
      (hlineWord : line.DenotesWord n) (hcolumnWord : column.DenotesWord m)
      (hoffset : DenoteOnce DenotesOffset none (under "offset" members) answer) :
      DenotesPoint (.object members) ⟨n, m, answer⟩
  | pair {line column : Source} {n m : ℕ} (hline : line.DenotesWord n)
      (hcolumn : column.DenotesWord m) : DenotesPoint (.array [line, column]) ⟨n, m, none⟩
  | triple {line column offset : Source} {n m : ℕ} {answer : Option ℕ} (hline : line.DenotesWord n)
      (hcolumn : column.DenotesWord m) (hoffset : offset.DenotesOffset answer) :
      DenotesPoint (.array [line, column, offset]) ⟨n, m, answer⟩

/-- The members with other keys are kept in the order in which the keys appear first, each key with
the value that stands under it last. -/
structure KeepsOthers (reserved : String → Bool) (members : List (Quoted × Source))
    (kept : List (String × Json)) : Prop where
  keys : Members.keys kept =
    ((members.filterMap fun member => member.1.text?).filter fun key => !reserved key).eraseDups
  values : ∀ member ∈ kept, ∃ source depth, (under member.1 members).getLast? = some source ∧
    source.value? depth = some member.2

/-- A span from its start to its end with the other members, or no position. -/
inductive DenotesPosition : Source → Option Span → Prop
  | null : DenotesPosition .null none
  | object {members : List (Quoted × Source)} {start stop : Source} {first last : Point}
      {extra : List (String × Json)} (hstart : under "start" members = [start])
      (hstop : under "end" members = [stop]) (hstartPoint : start.DenotesPoint first)
      (hstopPoint : stop.DenotesPoint last)
      (hextra : KeepsOthers Span.isReserved members extra) :
      DenotesPosition (.object members) (some ⟨first, last, extra⟩)

mutual

/-- A missing type is empty, missing children and a missing position are none, and the fields are
the other members. -/
inductive DenotesNode : Source → Node → Prop
  | object {members : List (Quoted × Source)} {kind : String} {fields : List (String × Json)}
      {children : Option (List Node)} {position : Option Span}
      (hkind : DenoteOnce (fun source name => ∃ q, source = .string q ∧ q.text? = some name) ""
        (under "type" members) kind)
      (hchildren : DenoteOnce DenotesChildren none (under "children" members) children)
      (hposition : DenoteOnce DenotesPosition none (under "position" members) position)
      (hfields : KeepsOthers Node.isReserved members fields) :
      DenotesNode (.object members) ⟨kind, fields, children, position⟩

/-- The nodes of the items in order, or no children. -/
inductive DenotesChildren : Source → Option (List Node) → Prop
  | null : DenotesChildren .null none
  | array {items : List Source} {nodes : List Node} (h : List.Forall₂ DenotesNode items nodes) :
      DenotesChildren (.array items) (some nodes)

end

/-! ## The values under a key and the entries -/

section Entries

variable {α E : Type} {members : List (Quoted × Source)} {entries : List E} {key : String}
  {read : Quoted × Source → Option E}

lemma mem_under_iff {source : Source} :
    source ∈ under key members ↔
      ∃ member ∈ members, member.1.text? = some key ∧ member.2 = source := by
  simp [under, and_assoc]

/-- What is known of the values of all members is known of those under a key. -/
lemma forall_mem_under {P : Source → Prop} (h : ∀ member ∈ members, P member.2) :
    ∀ source ∈ under key members, P source := by
  intro source hsource
  obtain ⟨member, hmember, -, rfl⟩ := mem_under_iff.1 hsource
  exact h member hmember

/-- A key that is not reserved is none of the reserved keys. -/
lemma text?_ne_of_isReserved {reserved : String → Bool} {quoted : Quoted} {name : String}
    (hname : quoted.text? = some name) (hfree : reserved name = false)
    (hreserved : reserved key = true) : quoted.text? ≠ some key := by
  rintro hkey
  obtain rfl := Option.some.inj (hname.symm.trans hkey)
  exact absurd hreserved (by simp [hfree])

/-- If a kind of entry comes from one key, the values under the key and the entries of that kind
correspond one to one. -/
lemma forall₂_under {pick : E → Option α} {P : Source → α → Prop}
    (hentries : List.Forall₂ (fun member entry => read member = some entry) members entries)
    (h : ∀ member ∈ members, ∀ entry, read member = some entry →
      (member.1.text? = some key ∧ ∃ a, pick entry = some a ∧ P member.2 a) ∨
        (member.1.text? ≠ some key ∧ pick entry = none)) :
    List.Forall₂ P (under key members) (entries.filterMap pick) := by
  have hunder : under key members = members.filterMap fun member =>
      if member.1.text? = some key then some member.2 else none := by
    rw [under, ← List.filterMap_eq_filter, List.map_filterMap]
    congr 1
    funext member
    by_cases hkey : member.1.text? = some key <;> simp [hkey]
  rw [hunder]
  refine forall₂_filterMap hentries fun member hmember entry hread => ?_
  rcases h member hmember entry hread with ⟨hkey, a, ha, hP⟩ | ⟨hkey, hnone⟩
  · exact .inl ⟨member.2, a, if_pos hkey, ha, hP⟩
  · exact .inr ⟨if_neg hkey, hnone⟩

/-- One answer out of several values that correspond to those under a key. -/
lemma denoteOnce_of_only? {P : Source → α → Prop} {sources : List Source} {values : List α}
    {answer : Option α} (h : List.Forall₂ P sources values)
    (honly : Members.only? values = some answer) (missing : α) :
    DenoteOnce P missing sources (answer.getD missing) := by
  cases answer with
  | none =>
    obtain rfl := Members.only?_eq_some_none.1 honly
    obtain rfl := List.forall₂_nil_right_iff.1 h
    exact .missing
  | some a =>
    obtain rfl := Members.only?_eq_some_some.1 honly
    obtain ⟨source, rest, hsource, hrest, rfl⟩ := List.forall₂_cons_right_iff.1 h
    obtain rfl := List.forall₂_nil_right_iff.1 hrest
    exact .value hsource

/-- The same where what is missing and what is said to be missing are one. -/
lemma denoteOnce_join_of_only? {P : Source → Option α → Prop} {sources : List Source}
    {values : List (Option α)} {answer : Option (Option α)} (h : List.Forall₂ P sources values)
    (honly : Members.only? values = some answer) : DenoteOnce P none sources answer.join := by
  cases answer <;> exact denoteOnce_of_only? h honly none

lemma exists_only?_of_forall₂ {P : Source → α → Prop} {sources : List Source} {values : List α}
    (h : List.Forall₂ P sources values) (honce : sources.length ≤ 1) :
    ∃ answer, Members.only? values = some answer := by
  rw [h.length_eq] at honce
  rcases values with _ | ⟨a, _ | ⟨b, values⟩⟩
  · exact ⟨none, rfl⟩
  · exact ⟨some a, rfl⟩
  · simp at honce

lemma exists_only?_of_forall₂_singleton {P : Source → α → Prop} {source : Source} {values : List α}
    (h : List.Forall₂ P [source] values) : ∃ a, Members.only? values = some (some a) := by
  obtain ⟨a, rest, -, hrest, rfl⟩ := List.forall₂_cons_left_iff.1 h
  obtain rfl := List.forall₂_nil_left_iff.1 hrest
  exact ⟨a, rfl⟩

/-- What a member leaves of itself where the reserved keys are taken out: nothing if its own key is
one of them, and otherwise its value under its key. -/
inductive Leaves (reserved : String → Bool) (d : ℕ) (member : Quoted × Source) :
    Option (String × Json) → Prop
  | nothing {name : String} (hname : member.1.text? = some name)
      (hreserved : reserved name = true) : Leaves reserved d member none
  | value {name : String} {value : Json} (hname : member.1.text? = some name)
      (hfree : reserved name = false) (hvalue : member.2.value? d = some value) :
      Leaves reserved d member (some (name, value))

section Others

variable {reserved : String → Bool} {other? : E → Option (String × Json)} {d : ℕ}
  (hentries : List.Forall₂ (fun member entry => read member = some entry) members entries)
  (h : ∀ member entry, read member = some entry → Leaves reserved d member (other? entry))

include hentries h

/-- The keys that are left are those that are not reserved. -/
lemma keys_of_leaves : Members.keys (entries.filterMap other?) =
    (members.filterMap fun member => member.1.text?).filter fun key => !reserved key := by
  induction hentries with
  | nil => rfl
  | @cons member entry members entries hentry _ ih =>
    generalize hother : other? entry = left
    cases hother ▸ h member entry hentry with
    | nothing hname hreserved => simp [hname, hreserved, hother, ih]
    | value hname hfree => simp [hname, hfree, hother, ih, Members.keys_cons]

/-- Some member is the origin of what is left, so its key is not reserved. -/
lemma isFree_of_leaves {member : String × Json}
    (hmember : member ∈ Members.settled (entries.filterMap other?)) :
    reserved member.1 = false := by
  obtain ⟨entry, hentry, hother⟩ := Members.exists_entry_of_settled hmember
  obtain ⟨origin, -, hread⟩ := exists_of_forall₂ hentries entry hentry
  cases hother ▸ h origin entry hread with
  | value _ hfree => exact hfree

/-- What is left under a key are the values of the members with that key. -/
lemma forall₂_under_of_leaves {name : String} (hname : reserved name = false) :
    List.Forall₂ (fun source value => source.value? d = some value) (under name members)
      (entries.filterMap fun entry => (other? entry).bind fun member =>
        if member.1 = name then some member.2 else none) := by
  refine forall₂_under hentries fun member _ entry hentry => ?_
  generalize hother : other? entry = left
  cases hother ▸ h member entry hentry with
  | nothing hkey hreserved =>
    refine .inr ⟨fun heq => ?_, rfl⟩
    obtain rfl := Option.some.inj (hkey.symm.trans heq)
    exact absurd hreserved (by simp [hname])
  | @value key value hkey _ hvalue =>
    by_cases heq : key = name
    · subst heq
      exact .inl ⟨hkey, value, by simp, hvalue⟩
    · exact .inr ⟨by simpa [hkey] using heq, by simp [heq]⟩

/-- Settling the entries of all other keys keeps the other members. -/
lemma keepsOthers_settled : KeepsOthers reserved members
    (Members.settled (entries.filterMap other?)) where
  keys := by rw [Members.keys_settled, keys_of_leaves hentries h]
  values := by
    intro member hmember
    have hunder := forall₂_under_of_leaves hentries h (isFree_of_leaves hentries h hmember)
    have hlast := Members.getLast?_of_mem_settled hmember
    rw [List.filterMap_filterMap] at hlast
    obtain ⟨source, hsource, hvalue⟩ := exists_getLast?_of_forall₂ hunder hlast
    exact ⟨source, d, hsource, hvalue⟩

end Others

end Entries

/-! ## Within the limits -/

lemma IsWithinLimits.of_array {items : List Source} {depth : ℕ}
    (h : (Source.array items).IsWithinLimits depth) :
    ∃ d, depth = d + 1 ∧ ∀ item ∈ items, item.IsWithinLimits d := by
  obtain ⟨value, hvalue⟩ := h
  obtain ⟨d, values, rfl, hvalues, -⟩ := value?_array_eq_some_iff.1 hvalue
  exact ⟨d, rfl, exists_forall₂_iff.1 ⟨values, hvalues⟩⟩

lemma IsWithinLimits.of_object {members : List (Quoted × Source)} {depth : ℕ}
    (h : (Source.object members).IsWithinLimits depth) :
    ∃ d, depth = d + 1 ∧ ∀ member ∈ members, (∃ key, member.1.text? = some key) ∧
      member.2.IsWithinLimits d := by
  obtain ⟨value, hvalue⟩ := h
  obtain ⟨d, done, rfl, hdone, -⟩ := value?_object_eq_some_iff.1 hvalue
  refine ⟨d, rfl, fun member hmember => ?_⟩
  obtain ⟨answer, hanswer⟩ := exists_forall₂_iff.1 ⟨done, hdone⟩ member hmember
  obtain ⟨hkey, hcontent⟩ := memberValue?_eq_some_iff.1 hanswer
  exact ⟨⟨answer.1, hkey⟩, answer.2, hcontent⟩

/-! ## Points -/

lemma denotesOffset_of_offset? {source : Source} {answer : Option ℕ}
    (h : source.offset? = some answer) : source.DenotesOffset answer := by
  rcases offset?_cases h with ⟨rfl, rfl⟩ | ⟨n, rfl, hn⟩
  · exact .null
  · exact .word (word?_eq_some_iff.1 hn)

lemma exists_offset?_of_isOffset {source : Source} (h : source.IsOffset IsWord) :
    ∃ answer, source.offset? = some answer := by
  rcases h with rfl | ⟨n, hn⟩
  · exact ⟨none, rfl⟩
  · obtain ⟨numeral, rfl, -⟩ := id hn
    exact ⟨some n, by simp [offset?, word?_eq_some_iff.2 hn]⟩

/-- The entries of a point, by the keys that they come from. -/
lemma forall₂_pointEntries {members : List (Quoted × Source)} {entries : List Point.Entry}
    (hentries : List.Forall₂ (fun member entry => Point.entryOfSource? member = some entry) members
      entries) :
    List.Forall₂ (fun source n => source.word? = some n) (under "line" members)
        (entries.filterMap Point.Entry.line?) ∧
      List.Forall₂ (fun source n => source.word? = some n) (under "column" members)
        (entries.filterMap Point.Entry.column?) ∧
      List.Forall₂ (fun source n => source.offset? = some n) (under "offset" members)
        (entries.filterMap Point.Entry.offset?) := by
  refine ⟨forall₂_under hentries fun member _ entry hentry => ?_,
    forall₂_under hentries fun member _ entry hentry => ?_,
    forall₂_under hentries fun member _ entry hentry => ?_⟩
  · cases Point.says_of_entryOfSource? hentry with
    | line hkey hn => exact .inl ⟨hkey, _, rfl, hn⟩
    | column hkey => simp [hkey, Point.Entry.line?]
    | offset hkey => simp [hkey, Point.Entry.line?]
    | other hkey hline => simp [hkey, hline, Point.Entry.line?]
  · cases Point.says_of_entryOfSource? hentry with
    | line hkey => simp [hkey, Point.Entry.column?]
    | column hkey hn => exact .inl ⟨hkey, _, rfl, hn⟩
    | offset hkey => simp [hkey, Point.Entry.column?]
    | other hkey _ hcolumn => simp [hkey, hcolumn, Point.Entry.column?]
  · cases Point.says_of_entryOfSource? hentry with
    | line hkey => simp [hkey, Point.Entry.offset?]
    | column hkey => simp [hkey, Point.Entry.offset?]
    | offset hkey hn => exact .inl ⟨hkey, _, rfl, hn⟩
    | other hkey _ _ hoffset => simp [hkey, hoffset, Point.Entry.offset?]

lemma denotesPoint_of_ofSource? {source : Source} {d : ℕ} {point : Point}
    (h : Point.ofSource? d source = some point) : source.DenotesPoint point := by
  cases Point.readFrom_of_ofSource? h with
  | object hentries hpoint =>
    obtain ⟨hlines, hcolumns, hoffsets⟩ := forall₂_pointEntries hentries
    obtain ⟨hn, hm, offset, hoffset, hjoin⟩ := Point.ofEntries?_eq_some_iff.1 hpoint
    obtain ⟨line, hline, hlineWord⟩ := Members.exists_singleton_of_only? hlines hn
    obtain ⟨column, hcolumn, hcolumnWord⟩ := Members.exists_singleton_of_only? hcolumns hm
    refine .object hline hcolumn (word?_eq_some_iff.1 hlineWord)
      (word?_eq_some_iff.1 hcolumnWord) ?_
    rw [← hjoin]
    exact denoteOnce_join_of_only? (hoffsets.imp fun _ _ => denotesOffset_of_offset?) hoffset
  | pair hline hcolumn =>
    exact .pair (word?_eq_some_iff.1 hline) (word?_eq_some_iff.1 hcolumn)
  | triple hline hcolumn hoffset =>
    exact .triple (word?_eq_some_iff.1 hline) (word?_eq_some_iff.1 hcolumn)
      (denotesOffset_of_offset? hoffset)

/-- A member of a point can be read if what stands under its key has the shape for the key. -/
lemma exists_pointEntry {member : Quoted × Source} {key : String}
    (hkey : member.1.text? = some key) (hline : key = "line" → member.2.IsWord)
    (hcolumn : key = "column" → member.2.IsWord)
    (hoffset : key = "offset" → member.2.IsOffset IsWord) :
    ∃ entry, Point.entryOfSource? member = some entry := by
  by_cases hl : key = "line"
  · obtain ⟨n, hn⟩ := hline hl
    exact ⟨_, (Point.Says.line (hl ▸ hkey) (word?_eq_some_iff.2 hn)).entryOfSource?_eq⟩
  by_cases hc : key = "column"
  · obtain ⟨n, hn⟩ := hcolumn hc
    exact ⟨_, (Point.Says.column (hc ▸ hkey) (word?_eq_some_iff.2 hn)).entryOfSource?_eq⟩
  by_cases ho : key = "offset"
  · obtain ⟨n, hn⟩ := exists_offset?_of_isOffset (hoffset ho)
    exact ⟨_, (Point.Says.offset (ho ▸ hkey) hn).entryOfSource?_eq⟩
  · exact ⟨_, (Point.Says.other hkey hl hc ho).entryOfSource?_eq⟩

lemma exists_ofSource?_of_isPoint {source : Source} {d : ℕ} (h : source.IsPoint IsWord)
    (hlimits : source.IsWithinLimits d) : ∃ point, Point.ofSource? d source = some point := by
  cases h with
  | @object members line column hline hcolumn hlineWord hcolumnWord honce hoffset =>
    obtain ⟨d, rfl, hmembers⟩ := hlimits.of_object
    have hentry : ∀ member ∈ members, ∃ entry, Point.entryOfSource? member = some entry := by
      intro member hmember
      obtain ⟨⟨key, hkey⟩, -⟩ := hmembers member hmember
      have hunder := mem_under_iff.2 ⟨member, hmember, hkey, rfl⟩
      refine exists_pointEntry hkey ?_ ?_ ?_ <;> rintro rfl
      · rw [hline, List.mem_singleton] at hunder
        exact hunder ▸ hlineWord
      · rw [hcolumn, List.mem_singleton] at hunder
        exact hunder ▸ hcolumnWord
      · exact hoffset _ hunder
    obtain ⟨entries, hentries⟩ := exists_forall₂_iff.2 hentry
    obtain ⟨hlines, hcolumns, hoffsets⟩ := forall₂_pointEntries hentries
    rw [hline] at hlines
    rw [hcolumn] at hcolumns
    obtain ⟨n, hn⟩ := exists_only?_of_forall₂_singleton hlines
    obtain ⟨m, hm⟩ := exists_only?_of_forall₂_singleton hcolumns
    obtain ⟨offset, hoffset⟩ := exists_only?_of_forall₂ hoffsets honce
    exact ⟨⟨n, m, offset.join⟩, by
      simp [Point.ofSource?, mapM_eq_some_iff.2 hentries, Point.ofEntries?, hn, hm, hoffset]⟩
  | pair hline hcolumn =>
    obtain ⟨d, rfl, -⟩ := hlimits.of_array
    obtain ⟨n, hn⟩ := hline
    obtain ⟨m, hm⟩ := hcolumn
    exact ⟨⟨n, m, none⟩, by
      simp [Point.ofSource?, word?_eq_some_iff.2 hn, word?_eq_some_iff.2 hm]⟩
  | triple hline hcolumn hoffset =>
    obtain ⟨d, rfl, -⟩ := hlimits.of_array
    obtain ⟨n, hn⟩ := hline
    obtain ⟨m, hm⟩ := hcolumn
    obtain ⟨offset, hoffset⟩ := exists_offset?_of_isOffset hoffset
    exact ⟨⟨n, m, offset⟩, by
      simp [Point.ofSource?, word?_eq_some_iff.2 hn, word?_eq_some_iff.2 hm, hoffset]⟩

/-! ## Positions -/

/-- The entries of a span, by the keys that they come from. -/
lemma forall₂_spanEntries {members : List (Quoted × Source)} {entries : List Span.Entry} {d : ℕ}
    (hentries : List.Forall₂ (fun member entry => Span.entryOfSource? d member = some entry) members
      entries) :
    List.Forall₂ (fun source point => Point.ofSource? d source = some point)
        (under "start" members) (entries.filterMap Span.Entry.start?) ∧
      List.Forall₂ (fun source point => Point.ofSource? d source = some point)
        (under "end" members) (entries.filterMap Span.Entry.stop?) ∧
      KeepsOthers Span.isReserved members
        (Members.settled (entries.filterMap Span.Entry.extra?)) := by
  refine ⟨forall₂_under hentries fun member _ entry hentry => ?_,
    forall₂_under hentries fun member _ entry hentry => ?_,
    keepsOthers_settled (d := d) hentries fun member entry hentry => ?_⟩
  · cases Span.says_of_entryOfSource? hentry with
    | start hkey hpoint => exact .inl ⟨hkey, _, rfl, hpoint⟩
    | stop hkey => simp [hkey, Span.Entry.start?]
    | extra hkey hfree => exact .inr ⟨text?_ne_of_isReserved hkey hfree rfl, rfl⟩
  · cases Span.says_of_entryOfSource? hentry with
    | start hkey => simp [hkey, Span.Entry.stop?]
    | stop hkey hpoint => exact .inl ⟨hkey, _, rfl, hpoint⟩
    | extra hkey hfree => exact .inr ⟨text?_ne_of_isReserved hkey hfree rfl, rfl⟩
  · cases Span.says_of_entryOfSource? hentry with
    | start hkey => exact .nothing hkey rfl
    | stop hkey => exact .nothing hkey rfl
    | extra hkey hfree hvalue => exact .value hkey hfree hvalue

lemma denotesPosition_of_ofSource? {source : Source} {d : ℕ} {answer : Option Span}
    (h : Span.ofSource? d source = some answer) : source.DenotesPosition answer := by
  rcases Span.ofSource?_cases h with
    ⟨rfl, rfl⟩ | ⟨members, e, entries, span, rfl, -, hentries, hspan, rfl⟩
  · exact .null
  · obtain ⟨hstarts, hstops, hextra⟩ := forall₂_spanEntries hentries
    obtain ⟨hfirst, hlast, hsettled⟩ := Span.ofEntries?_eq_some_iff.1 hspan
    obtain ⟨start, hstart, hstartPoint⟩ := Members.exists_singleton_of_only? hstarts hfirst
    obtain ⟨stop, hstop, hstopPoint⟩ := Members.exists_singleton_of_only? hstops hlast
    rw [hsettled] at hextra
    exact .object hstart hstop (denotesPoint_of_ofSource? hstartPoint)
      (denotesPoint_of_ofSource? hstopPoint) hextra

/-- A member of a span within the limits can be read if its two ends have the shape of points. -/
lemma exists_spanEntry {member : Quoted × Source} {key : String} {d : ℕ}
    (hkey : member.1.text? = some key) (hlimits : member.2.IsWithinLimits d)
    (hstart : key = "start" → member.2.IsPoint IsWord)
    (hstop : key = "end" → member.2.IsPoint IsWord) :
    ∃ entry, Span.entryOfSource? d member = some entry := by
  cases hfree : Span.isReserved key with
  | false =>
    obtain ⟨value, hvalue⟩ := hlimits
    exact ⟨_, (Span.Says.extra hkey hfree hvalue).entryOfSource?_eq⟩
  | true =>
    rcases Span.isReserved_eq_true_iff.1 hfree with rfl | rfl
    · obtain ⟨point, hpoint⟩ := exists_ofSource?_of_isPoint (hstart rfl) hlimits
      exact ⟨_, (Span.Says.start hkey hpoint).entryOfSource?_eq⟩
    · obtain ⟨point, hpoint⟩ := exists_ofSource?_of_isPoint (hstop rfl) hlimits
      exact ⟨_, (Span.Says.stop hkey hpoint).entryOfSource?_eq⟩

lemma exists_ofSource?_of_isPosition {source : Source} {d : ℕ} (h : source.IsPosition IsWord)
    (hlimits : source.IsWithinLimits d) : ∃ answer, Span.ofSource? d source = some answer := by
  cases h with
  | null => exact ⟨none, rfl⟩
  | @object members start stop hstart hstop hstartPoint hstopPoint =>
    obtain ⟨d, rfl, hmembers⟩ := hlimits.of_object
    have hentry : ∀ member ∈ members, ∃ entry, Span.entryOfSource? d member = some entry := by
      intro member hmember
      obtain ⟨⟨key, hkey⟩, hmemberLimits⟩ := hmembers member hmember
      have hunder := mem_under_iff.2 ⟨member, hmember, hkey, rfl⟩
      refine exists_spanEntry hkey hmemberLimits ?_ ?_ <;> rintro rfl
      · rw [hstart, List.mem_singleton] at hunder
        exact hunder ▸ hstartPoint
      · rw [hstop, List.mem_singleton] at hunder
        exact hunder ▸ hstopPoint
    obtain ⟨entries, hentries⟩ := exists_forall₂_iff.2 hentry
    obtain ⟨hstarts, hstops, -⟩ := forall₂_spanEntries hentries
    rw [hstart] at hstarts
    rw [hstop] at hstops
    obtain ⟨first, hfirst⟩ := exists_only?_of_forall₂_singleton hstarts
    obtain ⟨last, hlast⟩ := exists_only?_of_forall₂_singleton hstops
    simp [Span.ofSource?, mapM_eq_some_iff.2 hentries, Span.ofEntries?, hfirst, hlast]

/-! ## Nodes -/

/-- The entries of a node, by the keys that they come from. -/
lemma forall₂_nodeEntries {members : List (Quoted × Source)} {entries : List Node.Entry} {d : ℕ}
    (hentries : List.Forall₂ (fun member entry => Node.entryOfSource? d member = some entry) members
      entries) :
    List.Forall₂ (fun source name => ∃ q, source = .string q ∧ q.text? = some name)
        (under "type" members) (entries.filterMap Node.Entry.kind?) ∧
      List.Forall₂ (fun source nodes => Node.childrenOfSource? d source = some nodes)
        (under "children" members) (entries.filterMap Node.Entry.children?) ∧
      List.Forall₂ (fun source span => Span.ofSource? d source = some span)
        (under "position" members) (entries.filterMap Node.Entry.position?) ∧
      KeepsOthers Node.isReserved members
        (Members.settled (entries.filterMap Node.Entry.field?)) := by
  refine ⟨forall₂_under hentries fun member _ entry hentry => ?_,
    forall₂_under hentries fun member _ entry hentry => ?_,
    forall₂_under hentries fun member _ entry hentry => ?_,
    keepsOthers_settled (d := d) hentries fun member entry hentry => ?_⟩
  · cases Node.says_of_entryOfSource? hentry with
    | kind hkey hstring hname => exact .inl ⟨hkey, _, rfl, _, hstring, hname⟩
    | children hkey => simp [hkey, Node.Entry.kind?]
    | position hkey => simp [hkey, Node.Entry.kind?]
    | field hkey hfree => exact .inr ⟨text?_ne_of_isReserved hkey hfree rfl, rfl⟩
  · cases Node.says_of_entryOfSource? hentry with
    | kind hkey => simp [hkey, Node.Entry.children?]
    | children hkey hnodes => exact .inl ⟨hkey, _, rfl, hnodes⟩
    | position hkey => simp [hkey, Node.Entry.children?]
    | field hkey hfree => exact .inr ⟨text?_ne_of_isReserved hkey hfree rfl, rfl⟩
  · cases Node.says_of_entryOfSource? hentry with
    | kind hkey => simp [hkey, Node.Entry.position?]
    | children hkey => simp [hkey, Node.Entry.position?]
    | position hkey hspan => exact .inl ⟨hkey, _, rfl, hspan⟩
    | field hkey hfree => exact .inr ⟨text?_ne_of_isReserved hkey hfree rfl, rfl⟩
  · cases Node.says_of_entryOfSource? hentry with
    | kind hkey => exact .nothing hkey rfl
    | children hkey => exact .nothing hkey rfl
    | position hkey => exact .nothing hkey rfl
    | field hkey hfree hvalue => exact .value hkey hfree hvalue

/-- The reader makes of a document the node, or the children, that it denotes. -/
lemma denotes_of_source (source : Source) :
    (∀ {d : ℕ} {node : Node}, Node.ofSource? d source = some node → source.DenotesNode node) ∧
      ∀ {d : ℕ} {answer : Option (List Node)}, Node.childrenOfSource? d source = some answer →
        source.DenotesChildren answer := by
  -- An object can only be a node and an array only a list, so each case leaves one half.
  induction source with
  | null =>
    refine ⟨nofun, fun h => ?_⟩
    obtain rfl := Option.some.inj h
    exact .null
  | bool b => exact ⟨nofun, nofun⟩
  | number n => exact ⟨nofun, nofun⟩
  | string q => exact ⟨nofun, nofun⟩
  | array items ih =>
    refine ⟨nofun, fun {d answer} h => ?_⟩
    obtain ⟨d, nodes, rfl, hnodes, rfl⟩ := Node.childrenOfSource?_array_eq_some_iff.1 h
    refine .array (forall₂_imp_of_mem hnodes ?_)
    intro item hitem node hnode
    exact (ih item hitem).1 hnode
  | object members ih =>
    refine ⟨fun {d node} h => ?_, nofun⟩
    obtain ⟨d, entries, rfl, hentries, hnode⟩ := Node.ofSource?_object_eq_some_iff.1 h
    obtain ⟨hkinds, hlists, hspans, hfields⟩ := forall₂_nodeEntries hentries
    obtain ⟨kind, children, position, hkind, hchildren, hposition, rfl⟩ :=
      Node.ofEntries?_eq_some_iff.1 hnode
    have hunder : ∀ source ∈ under "children" members, ∀ nodes,
        Node.childrenOfSource? d source = some nodes → source.DenotesChildren nodes :=
      forall_mem_under fun member hmember nodes => (ih member hmember).2
    have hdenotes : List.Forall₂ DenotesChildren (under "children" members)
        (entries.filterMap Node.Entry.children?) := forall₂_imp_of_mem hlists hunder
    exact .object (denoteOnce_of_only? hkinds hkind "")
      (denoteOnce_join_of_only? hdenotes hchildren)
      (denoteOnce_join_of_only? (hspans.imp fun _ _ => denotesPosition_of_ofSource?) hposition)
      hfields

/-! ### A denoting document has the shape -/

section Shape

variable {α : Type} {denotes : Source → α → Prop} {missing : α} {sources : List Source} {a : α}

lemma DenoteOnce.length_le (h : DenoteOnce denotes missing sources a) : sources.length ≤ 1 := by
  cases h <;> simp

lemma DenoteOnce.exists_of_mem (h : DenoteOnce denotes missing sources a) :
    ∀ source ∈ sources, ∃ b, denotes source b := by
  cases h with
  | missing => simp
  | value h => exact List.forall_mem_singleton.2 ⟨_, h⟩

lemma DenotesOffset.isOffset {source : Source} {answer : Option ℕ}
    (h : source.DenotesOffset answer) : source.IsOffset IsWord := by
  cases h with
  | null => exact .inl rfl
  | word h => exact .inr ⟨_, h⟩

lemma DenotesPoint.isPoint {source : Source} {point : Point} (h : source.DenotesPoint point) :
    source.IsPoint IsWord := by
  cases h with
  | object hline hcolumn hlineWord hcolumnWord hoffset =>
    refine .object hline hcolumn ⟨_, hlineWord⟩ ⟨_, hcolumnWord⟩ hoffset.length_le ?_
    intro offset hmem
    obtain ⟨answer, hanswer⟩ := hoffset.exists_of_mem offset hmem
    exact hanswer.isOffset
  | pair hline hcolumn => exact .pair ⟨_, hline⟩ ⟨_, hcolumn⟩
  | triple hline hcolumn hoffset => exact .triple ⟨_, hline⟩ ⟨_, hcolumn⟩ hoffset.isOffset

lemma DenotesPosition.isPosition {source : Source} {answer : Option Span}
    (h : source.DenotesPosition answer) : source.IsPosition IsWord := by
  cases h with
  | null => exact .null
  | object hstart hstop hstartPoint hstopPoint _ =>
    exact .object hstart hstop hstartPoint.isPoint hstopPoint.isPoint

lemma shape_of_denotes (source : Source) :
    (∀ {node : Node}, source.DenotesNode node → source.IsNode IsWord) ∧
      ∀ {answer : Option (List Node)}, source.DenotesChildren answer →
        source.IsChildren IsWord := by
  induction source with
  | null => exact ⟨nofun, fun _ => .null⟩
  | bool b => exact ⟨nofun, nofun⟩
  | number n => exact ⟨nofun, nofun⟩
  | string q => exact ⟨nofun, nofun⟩
  | array items ih =>
    refine ⟨nofun, fun h => ?_⟩
    cases h with
    | array hitems =>
      refine .array fun item hitem => ?_
      obtain ⟨node, hnode⟩ := exists_forall₂_iff.1 ⟨_, hitems⟩ item hitem
      exact (ih item hitem).1 hnode
  | object members ih =>
    refine ⟨fun h => ?_, nofun⟩
    cases h with
    | object hkind hchildren hposition hfields =>
      refine .object ?_ ?_ ?_ ?_
      -- no reserved key stands twice, or it could not denote one thing
      · intro key hkey
        rcases Node.isReserved_eq_true_iff.1 hkey with rfl | rfl | rfl
        · exact hkind.length_le
        · exact hchildren.length_le
        · exact hposition.length_le
      · intro source hsource
        obtain ⟨name, q, hq, -⟩ := hkind.exists_of_mem source hsource
        exact ⟨q, hq⟩
      · have hunder : ∀ source ∈ under "children" members, ∀ answer,
            source.DenotesChildren answer → source.IsChildren IsWord :=
          forall_mem_under fun member hmember answer => (ih member hmember).2
        intro source hsource
        obtain ⟨answer, hanswer⟩ := hchildren.exists_of_mem source hsource
        exact hunder source hsource answer hanswer
      · intro source hsource
        obtain ⟨answer, hanswer⟩ := hposition.exists_of_mem source hsource
        exact hanswer.isPosition

end Shape

/-! ### A document denotes at most one node -/

section Unique

variable {α : Type} {denotes : Source → α → Prop} {missing : α} {sources : List Source} {a b : α}

lemma DenoteOnce.unique (ha : DenoteOnce denotes missing sources a)
    (hb : DenoteOnce denotes missing sources b)
    (h : ∀ source ∈ sources, ∀ x y, denotes source x → denotes source y → x = y) : a = b := by
  cases ha with
  | missing =>
    cases hb
    rfl
  | @value source a ha =>
    cases hb with
    | value hb => exact h source (by simp) a b ha hb

lemma DenotesWord.unique {source : Source} {n m : ℕ} (hn : source.DenotesWord n)
    (hm : source.DenotesWord m) : n = m :=
  Option.some.inj ((word?_eq_some_iff.2 hn).symm.trans (word?_eq_some_iff.2 hm))

lemma DenotesOffset.unique {source : Source} {n m : Option ℕ} (hn : source.DenotesOffset n)
    (hm : source.DenotesOffset m) : n = m := by
  cases hn with
  | null =>
    cases hm with
    | null => rfl
    | word hm =>
      obtain ⟨numeral, hnumeral, -⟩ := hm
      cases hnumeral
  | word hn =>
    cases hm with
    | null =>
      obtain ⟨numeral, hnumeral, -⟩ := hn
      cases hnumeral
    | word hm => rw [hn.unique hm]

lemma DenotesPoint.unique {source : Source} {point other : Point} (h : source.DenotesPoint point)
    (hother : source.DenotesPoint other) : point = other := by
  cases h with
  | object hline hcolumn hlineWord hcolumnWord hoffset =>
    cases hother with
    | object hline' hcolumn' hlineWord' hcolumnWord' hoffset' =>
      obtain rfl := List.singleton_inj.1 (hline.symm.trans hline')
      obtain rfl := List.singleton_inj.1 (hcolumn.symm.trans hcolumn')
      rw [hlineWord.unique hlineWord', hcolumnWord.unique hcolumnWord',
        hoffset.unique hoffset' fun _ _ _ _ => DenotesOffset.unique]
  | pair hline hcolumn =>
    cases hother with
    | pair hline' hcolumn' => rw [hline.unique hline', hcolumn.unique hcolumn']
  | triple hline hcolumn hoffset =>
    cases hother with
    | triple hline' hcolumn' hoffset' =>
      rw [hline.unique hline', hcolumn.unique hcolumn', hoffset.unique hoffset']

lemma KeepsOthers.unique {reserved : String → Bool} {members : List (Quoted × Source)}
    {kept others : List (String × Json)} (h : KeepsOthers reserved members kept)
    (hother : KeepsOthers reserved members others) : kept = others := by
  have hself (list : List (String × Json)) :
      List.Forall₂ (fun key member => member.1 = key ∧ member ∈ list) (Members.keys list) list := by
    rw [Members.keys, List.forall₂_map_left_iff]
    exact List.forall₂_same.2 fun member hmember => ⟨rfl, hmember⟩
  have hothers := hself others
  rw [hother.keys, ← h.keys] at hothers
  refine eq_of_forall₂ (hself kept) hothers ?_
  rintro _ - ⟨key, value⟩ ⟨_, same⟩ ⟨rfl, hvalue⟩ ⟨rfl, hsame⟩
  obtain ⟨source, d, hsource, hvalue⟩ := h.values _ hvalue
  obtain ⟨other, e, hother, hsame⟩ := hother.values _ hsame
  obtain rfl := Option.some.inj (hsource.symm.trans hother)
  exact congrArg _ (value?_unique hvalue hsame)

lemma DenotesPosition.unique {source : Source} {answer other : Option Span}
    (h : source.DenotesPosition answer) (hother : source.DenotesPosition other) :
    answer = other := by
  cases h with
  | null =>
    cases hother
    rfl
  | object hstart hstop hstartPoint hstopPoint hextra =>
    cases hother with
    | object hstart' hstop' hstartPoint' hstopPoint' hextra' =>
      obtain rfl := List.singleton_inj.1 (hstart.symm.trans hstart')
      obtain rfl := List.singleton_inj.1 (hstop.symm.trans hstop')
      rw [hstartPoint.unique hstartPoint', hstopPoint.unique hstopPoint', hextra.unique hextra']

lemma denotes_unique (source : Source) :
    (∀ node other, source.DenotesNode node → source.DenotesNode other → node = other) ∧
      ∀ answer other, source.DenotesChildren answer → source.DenotesChildren other →
        answer = other := by
  induction source with
  | null =>
    refine ⟨nofun, fun answer other h hother => ?_⟩
    cases h
    cases hother
    rfl
  | bool b => exact ⟨nofun, nofun⟩
  | number n => exact ⟨nofun, nofun⟩
  | string q => exact ⟨nofun, nofun⟩
  | array items ih =>
    refine ⟨nofun, fun answer other h hother => ?_⟩
    cases h with
    | array hitems =>
      cases hother with
      | array hothers => rw [eq_of_forall₂ hitems hothers fun item hitem => (ih item hitem).1]
  | object members ih =>
    refine ⟨fun node other h hother => ?_, nofun⟩
    cases h with
    | object hkind hchildren hposition hfields =>
      cases hother with
      | object hkind' hchildren' hposition' hfields' =>
        have hlists : ∀ source ∈ under "children" members, ∀ answer other,
            source.DenotesChildren answer → source.DenotesChildren other → answer = other :=
          forall_mem_under fun member hmember => (ih member hmember).2
        rw [hchildren.unique hchildren' hlists,
          hposition.unique hposition' fun _ _ _ _ => DenotesPosition.unique,
          hfields.unique hfields', hkind.unique hkind']
        rintro _ - name other ⟨q, rfl, hname⟩ ⟨_, ⟨⟩, hother⟩
        exact Option.some.inj (hname.symm.trans hother)

end Unique

/-! ### A document of the shape is read -/

/-- A member of a node within the limits can be read if what stands under its key has the shape for
the key. -/
lemma exists_nodeEntry {member : Quoted × Source} {key : String} {d : ℕ}
    (hkey : member.1.text? = some key) (hlimits : member.2.IsWithinLimits d)
    (htype : key = "type" → ∃ name, member.2 = .string name)
    (hchildren : key = "children" → ∃ answer, Node.childrenOfSource? d member.2 = some answer)
    (hposition : key = "position" → member.2.IsPosition IsWord) :
    ∃ entry, Node.entryOfSource? d member = some entry := by
  cases hfree : Node.isReserved key with
  | false =>
    obtain ⟨value, hvalue⟩ := hlimits
    exact ⟨_, (Node.Says.field hkey hfree hvalue).entryOfSource?_eq⟩
  | true =>
    rcases Node.isReserved_eq_true_iff.1 hfree with rfl | rfl | rfl
    · obtain ⟨q, hq⟩ := htype rfl
      obtain ⟨value, hvalue⟩ := hlimits
      rw [hq] at hvalue
      obtain ⟨name, hname, -⟩ := Option.map_eq_some_iff.1 hvalue
      exact ⟨_, (Node.Says.kind hkey hq hname).entryOfSource?_eq⟩
    · obtain ⟨answer, hanswer⟩ := hchildren rfl
      exact ⟨_, (Node.Says.children hkey hanswer).entryOfSource?_eq⟩
    · obtain ⟨span, hspan⟩ := exists_ofSource?_of_isPosition (hposition rfl) hlimits
      exact ⟨_, (Node.Says.position hkey hspan).entryOfSource?_eq⟩

/-- A document that has the shape of a node, or of a children list, is read as one, as long as it is
within the limits. -/
lemma exists_of_shape (source : Source) {d : ℕ} (hlimits : source.IsWithinLimits d) :
    (source.IsNode IsWord → ∃ node, Node.ofSource? d source = some node) ∧
      (source.IsChildren IsWord → ∃ answer, Node.childrenOfSource? d source = some answer) := by
  -- the limit goes down with every object and every array, along with the induction
  induction source generalizing d with
  | null => exact ⟨nofun, fun _ => ⟨none, rfl⟩⟩
  | bool b => exact ⟨nofun, nofun⟩
  | number n => exact ⟨nofun, nofun⟩
  | string q => exact ⟨nofun, nofun⟩
  | array items ih =>
    refine ⟨nofun, fun h => ?_⟩
    cases h with
    | array hitems =>
      obtain ⟨d, rfl, hitemLimits⟩ := hlimits.of_array
      have hitem : ∀ item ∈ items, ∃ node, Node.ofSource? d item = some node :=
        fun item hitem => (ih item hitem (hitemLimits item hitem)).1 (hitems item hitem)
      obtain ⟨nodes, hnodes⟩ := exists_forall₂_iff.2 hitem
      exact ⟨some nodes, Node.childrenOfSource?_array_eq_some_iff.2 ⟨d, nodes, rfl, hnodes, rfl⟩⟩
  | object members ih =>
    refine ⟨fun h => ?_, nofun⟩
    cases h with
    | object honce htype hchildren hposition =>
      obtain ⟨d, rfl, hmembers⟩ := hlimits.of_object
      have hentry : ∀ member ∈ members, ∃ entry, Node.entryOfSource? d member = some entry := by
        intro member hmember
        obtain ⟨⟨key, hkey⟩, hmemberLimits⟩ := hmembers member hmember
        have hunder := mem_under_iff.2 ⟨member, hmember, hkey, rfl⟩
        refine exists_nodeEntry hkey hmemberLimits ?_ ?_ ?_ <;> rintro rfl
        · exact htype _ hunder
        · exact (ih member hmember hmemberLimits).2 (hchildren _ hunder)
        · exact hposition _ hunder
      obtain ⟨entries, hentries⟩ := exists_forall₂_iff.2 hentry
      obtain ⟨hkinds, hlists, hspans, -⟩ := forall₂_nodeEntries hentries
      obtain ⟨kind, hkind⟩ := exists_only?_of_forall₂ hkinds (honce "type" rfl)
      obtain ⟨nodes, hnodes⟩ := exists_only?_of_forall₂ hlists (honce "children" rfl)
      obtain ⟨span, hspan⟩ := exists_only?_of_forall₂ hspans (honce "position" rfl)
      have hnode := Node.ofEntries?_eq_some_iff.2
        ⟨kind, nodes, span, hkind, hnodes, hspan, rfl⟩
      exact ⟨_, Node.ofSource?_object_eq_some_iff.2 ⟨d, entries, rfl, hentries, hnode⟩⟩

end Json.Source

/-! ## Texts -/

namespace Node

open Json

/-- A JSON text within the limits of any value is read as a node exactly if its document has the
shape of one, where lines, columns and offsets are words; and then the node is the one that the
document denotes: its type, children and position are those that the document gives it, or missing
as they are there, and its fields are the other members by their first appearance and last value. -/
theorem parseJson?_shape {text : String} {source : Source}
    (hread : Source.read text.toList = some source)
    (hlimits : source.IsWithinLimits Source.maxDepth) :
    ((∃ node, parseJson? text = some node) ↔ source.IsNode Source.IsWord) ∧
      ∀ node, parseJson? text = some node ↔ source.DenotesNode node := by
  have hparse : parseJson? text = ofSource? Source.maxDepth source := by
    rw [parseJson?, hread]
    rfl
  have hdenotes : ∀ node, parseJson? text = some node → source.DenotesNode node := by
    intro node hnode
    exact (Source.denotes_of_source source).1 (hparse.symm.trans hnode)
  have hshape : (∃ node, parseJson? text = some node) ↔ source.IsNode Source.IsWord := by
    constructor
    · rintro ⟨node, hnode⟩
      exact (Source.shape_of_denotes source).1 (hdenotes node hnode)
    · intro hnode
      rw [hparse]
      exact (Source.exists_of_shape source hlimits).1 hnode
  refine ⟨hshape, fun node => ⟨hdenotes node, fun hnode => ?_⟩⟩
  obtain ⟨other, hother⟩ := hshape.2 ((Source.shape_of_denotes source).1 hnode)
  rw [(Source.denotes_unique source).1 node other hnode (hdenotes other hother)]
  exact hother

/-- A field that repeats, a null for the children, a start that is an array, and an end with an unknown
key that repeats. -/
theorem parseJson?_shape_repeated :
    let count (digit : Char) : Source := .number ⟨false, [digit], none, none⟩
    let stop : Source := .object [(Quoted.ofText "x", .null), (Quoted.ofText "line", count '1'),
      (Quoted.ofText "x", .bool true), (Quoted.ofText "column", count '3')]
    let source : Source := .object [(Quoted.ofText "b", count '1'),
      (Quoted.ofText "type", .string (Quoted.ofText "t")), (Quoted.ofText "b", .array []),
      (Quoted.ofText "children", .null), (Quoted.ofText "position", .object
        [(Quoted.ofText "start", .array [count '1', count '2']), (Quoted.ofText "end", stop)])]
    let text := "\x7b\"b\":1,\"type\":\"t\",\"b\":[],\"children\":null,\"position\":" ++
      "\x7b\"start\":[1,2],\"end\":\x7b\"x\":null,\"line\":1,\"x\":true,\"column\":3\x7d\x7d\x7d"
    Source.read text.toList = some source ∧ source.IsWithinLimits Source.maxDepth ∧
      source.IsNode Source.IsWord ∧ ∃ node, parseJson? text = some node ∧ source.DenotesNode node := by
  intro count stop source text
  have hread : Source.read text.toList = some source := Source.read_of_scan (by decide +kernel)
  have hlimits : source.IsWithinLimits Source.maxDepth :=
    Option.isSome_iff_exists.1 (by decide +kernel)
  obtain ⟨node, hnode⟩ : ∃ node, parseJson? text = some node :=
    Option.isSome_iff_exists.1 (by decide +kernel)
  obtain ⟨hshape, hdenotes⟩ := parseJson?_shape hread hlimits
  exact ⟨hread, hlimits, hshape.1 ⟨node, hnode⟩, node, hnode, (hdenotes node).1 hnode⟩

/-- It is not enough that lines, columns and offsets are integers in the range of words, written
without fraction and exponent: `-0` is such an integer, and the reader refuses it. -/
theorem parseJson?_not_shape_signed :
    ¬ ∀ (text : String) (source : Source), Source.read text.toList = some source →
      source.IsWithinLimits Source.maxDepth →
      ((∃ node, parseJson? text = some node) ↔ source.IsNode Source.IsPlainInteger) := by
  intro h
  let count (negative : Bool) (digit : Char) : Source := .number ⟨negative, [digit], none, none⟩
  let start : Source :=
    .object [(Quoted.ofText "line", count true '0'), (Quoted.ofText "column", count false '1')]
  let stop : Source :=
    .object [(Quoted.ofText "line", count false '1'), (Quoted.ofText "column", count false '2')]
  let source : Source := .object [(Quoted.ofText "position",
    .object [(Quoted.ofText "start", start), (Quoted.ofText "end", stop)])]
  let text := "\x7b\"position\":\x7b\"start\":\x7b\"line\":-0,\"column\":1\x7d," ++
    "\"end\":\x7b\"line\":1,\"column\":2\x7d\x7d\x7d"
  have hread : Source.read text.toList = some source := Source.read_of_scan (by decide +kernel)
  have hlimits : source.IsWithinLimits Source.maxDepth :=
    Option.isSome_iff_exists.1 (by decide +kernel)
  have hrefused : ¬ ∃ node, parseJson? text = some node := by
    have hnone : (parseJson? text).isSome = false := by decide +kernel
    rintro ⟨node, hnode⟩
    rw [hnode] at hnone
    cases hnone
  have hzero : (count true '0').IsPlainInteger :=
    ⟨_, rfl, rfl, 0, by decide, by decide, by decide⟩
  have hone : (count false '1').IsPlainInteger :=
    ⟨_, rfl, rfl, 1, by decide, by decide, by decide⟩
  have htwo : (count false '2').IsPlainInteger :=
    ⟨_, rfl, rfl, 2, by decide, by decide, by decide⟩
  have hstart : start.IsPoint Source.IsPlainInteger :=
    .object (by simp [Source.under]) (by simp [Source.under]) hzero hone
      (by simp [Source.under]) (by simp [Source.under])
  have hstop : stop.IsPoint Source.IsPlainInteger :=
    .object (by simp [Source.under]) (by simp [Source.under]) hone htwo
      (by simp [Source.under]) (by simp [Source.under])
  refine hrefused ((h text source hread hlimits).2 (.object ?_ (by simp [Source.under])
    (by simp [Source.under]) ?_))
  · intro key _
    rw [Source.under, List.length_map]
    exact List.length_filter_le _ _
  · intro position hposition
    obtain rfl : position = .object [(Quoted.ofText "start", start),
        (Quoted.ofText "end", stop)] := by simpa [Source.under] using hposition
    exact .object (by simp [Source.under]) (by simp [Source.under]) hstart hstop

end Node

end SiblingQuery
