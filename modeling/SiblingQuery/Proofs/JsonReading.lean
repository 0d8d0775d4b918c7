import SiblingQuery.Proofs.Passes
import SiblingQuery.Tree.FromJson

/-!
# Reading JSON trees item by item

The readers of `Json.Source` recurse through lists of items and members.  Here each of these
recursions is written as a pass of the reader of one item over the list.  `Json.Source.recAux` is the
matching induction: in the case of an array or object the statement is known of every item or
member.

With both, a statement about a reader needs one case for each kind of tree and no recursion of its
own.  What a reader can make of an array or an object is said once (`value?_array_eq_some_iff`,
`Point.readFrom_of_ofSource?`, `Node.ofSource?_object_eq_some_iff` and their like), and no later
proof opens a reader again.
-/

namespace SiblingQuery

/-! ## Trees -/

namespace Json.Source

/-- Structural induction on trees: of an array or object, the statement is known of all items or
members. -/
@[elab_as_elim, induction_eliminator]
theorem recAux {motive : Source → Prop} (null : motive .null) (bool : ∀ b, motive (.bool b))
    (number : ∀ n, motive (.number n)) (string : ∀ q, motive (.string q))
    (array : ∀ items, (∀ item ∈ items, motive item) → motive (.array items))
    (object : ∀ members, (∀ member ∈ members, motive member.2) → motive (.object members)) :
    ∀ source, motive source
  | .null => null
  | .bool b => bool b
  | .number n => number n
  | .string q => string q
  | .array items => array items fun item _ => recAux null bool number string array object item
  | .object members => object members fun member hmember =>
      have : sizeOf member.2 < sizeOf members :=
        Nat.lt_trans (by cases member; simp +arith) (List.sizeOf_lt_of_mem hmember)
      recAux null bool number string array object member.2

lemma values?_eq_mapM (d : ℕ) (items : List Source) : values? d items = items.mapM (value? d) := by
  induction items with
  | nil => rfl
  | cons item items ih =>
    rw [List.mapM_cons, ← ih, values?]
    cases item.value? d <;> cases values? d items <;> rfl

/-- The value of one member, with its key. -/
def memberValue? (d : ℕ) (member : Quoted × Source) : Option (String × Json) :=
  member.1.text?.bind fun key => (member.2.value? d).map fun value => (key, value)

lemma memberValue?_eq_some_iff {d : ℕ} {member : Quoted × Source} {answer : String × Json} :
    memberValue? d member = some answer ↔
      member.1.text? = some answer.1 ∧ member.2.value? d = some answer.2 := by
  obtain ⟨key, value⟩ := answer
  rw [memberValue?, Option.bind_eq_some_iff]
  constructor
  · rintro ⟨name, hname, hvalue⟩
    obtain ⟨content, hcontent, heq⟩ := Option.map_eq_some_iff.1 hvalue
    obtain ⟨rfl, rfl⟩ := Prod.mk.inj heq
    exact ⟨hname, hcontent⟩
  · rintro ⟨hkey, hvalue⟩
    exact ⟨key, hkey, Option.map_eq_some_iff.2 ⟨value, hvalue, rfl⟩⟩

lemma memberValues?_eq_mapM (d : ℕ) (members : List (Quoted × Source)) :
    memberValues? d members = members.mapM (memberValue? d) := by
  induction members with
  | nil => rfl
  | cons member members ih =>
    obtain ⟨key, source⟩ := member
    rw [List.mapM_cons, ← ih, memberValues?, memberValue?]
    cases key.text? <;> cases source.value? d <;> cases memberValues? d members <;> rfl

/-- An array has the values of its items, which may be one level less deep. -/
lemma value?_array_eq_some_iff {items : List Source} {d : ℕ} {value : Json} :
    (array items).value? d = some value ↔ ∃ e values, d = e + 1 ∧
      List.Forall₂ (fun item answer => item.value? e = some answer) items values ∧
        value = .arr values := by
  cases d with
  | zero => exact ⟨nofun, nofun⟩
  | succ d =>
    rw [value?, Option.map_eq_some_iff, values?_eq_mapM]
    constructor
    · rintro ⟨values, hvalues, rfl⟩
      exact ⟨d, values, rfl, mapM_eq_some_iff.1 hvalues, rfl⟩
    · rintro ⟨_, values, ⟨⟩, hvalues, rfl⟩
      exact ⟨values, mapM_eq_some_iff.2 hvalues, rfl⟩

/-- An object has the values of its members, sorted by their keys. -/
lemma value?_object_eq_some_iff {members : List (Quoted × Source)} {d : ℕ} {value : Json} :
    (object members).value? d = some value ↔ ∃ e done, d = e + 1 ∧
      List.Forall₂ (fun member answer => memberValue? e member = some answer) members done ∧
        value = .obj (Members.sorted done) := by
  cases d with
  | zero => exact ⟨nofun, nofun⟩
  | succ d =>
    rw [value?, Option.map_eq_some_iff, memberValues?_eq_mapM]
    constructor
    · rintro ⟨done, hdone, rfl⟩
      exact ⟨d, done, rfl, mapM_eq_some_iff.1 hdone, rfl⟩
    · rintro ⟨_, done, ⟨⟩, hdone, rfl⟩
      exact ⟨done, mapM_eq_some_iff.2 hdone, rfl⟩

/-- How deep a value may be decides whether there is one, but not which. -/
lemma value?_unique {source : Source} {d e : ℕ} {value other : Json}
    (hvalue : source.value? d = some value) (hother : source.value? e = some other) :
    value = other := by
  induction source generalizing d e value other with
  | null => exact Option.some.inj (hvalue.symm.trans hother)
  | bool b => exact Option.some.inj (hvalue.symm.trans hother)
  | number n => exact Option.some.inj (hvalue.symm.trans hother)
  | string q => exact Option.some.inj (hvalue.symm.trans hother)
  | array items ih =>
    obtain ⟨d, values, rfl, hvalues, rfl⟩ := value?_array_eq_some_iff.1 hvalue
    obtain ⟨e, others, rfl, hothers, rfl⟩ := value?_array_eq_some_iff.1 hother
    rw [eq_of_forall₂ hvalues hothers fun item hitem _ _ => ih item hitem]
  | object members ih =>
    obtain ⟨d, done, rfl, hdone, rfl⟩ := value?_object_eq_some_iff.1 hvalue
    obtain ⟨e, others, rfl, hothers, rfl⟩ := value?_object_eq_some_iff.1 hother
    rw [eq_of_forall₂ hdone hothers]
    intro member hmember first second hfirst hsecond
    obtain ⟨hkey, hcontent⟩ := memberValue?_eq_some_iff.1 hfirst
    obtain ⟨hsame, hcontents⟩ := memberValue?_eq_some_iff.1 hsecond
    exact Prod.ext (Option.some.inj (hkey.symm.trans hsame)) (ih member hmember hcontent hcontents)

/-- A value that is not too deep stays the same when it may be deeper. -/
lemma value?_mono {source : Source} {d e : ℕ} {value : Json} (h : source.value? d = some value)
    (hle : d ≤ e) : source.value? e = some value := by
  induction source generalizing d e value with
  | null => exact h
  | bool b => exact h
  | number n => exact h
  | string q => exact h
  | array items ih =>
    obtain ⟨d, values, rfl, hvalues, rfl⟩ := value?_array_eq_some_iff.1 h
    obtain ⟨e, rfl⟩ : ∃ inner, e = inner + 1 := Nat.exists_eq_succ_of_ne_zero (by omega)
    refine value?_array_eq_some_iff.2 ⟨e, values, rfl, forall₂_imp_of_mem hvalues ?_, rfl⟩
    intro item hitem content hcontent
    exact ih item hitem hcontent (by omega)
  | object members ih =>
    obtain ⟨d, done, rfl, hdone, rfl⟩ := value?_object_eq_some_iff.1 h
    obtain ⟨e, rfl⟩ : ∃ inner, e = inner + 1 := Nat.exists_eq_succ_of_ne_zero (by omega)
    refine value?_object_eq_some_iff.2 ⟨e, done, rfl, forall₂_imp_of_mem hdone ?_, rfl⟩
    intro member hmember answer hanswer
    rw [memberValue?_eq_some_iff] at hanswer ⊢
    exact ⟨hanswer.1, ih member hmember hanswer.2 (by omega)⟩

/-- A word is written as digits alone, and in range. -/
lemma word?_eq_some_iff {source : Source} {n : ℕ} :
    source.word? = some n ↔
      ∃ numeral : Numeral, source = .number numeral ∧ numeral.negative = false ∧
        numeral.isInteger = true ∧ Numeral.natOfDigits numeral.whole = n ∧ n ≤ maxWord := by
  constructor
  · intro h
    unfold word? at h
    split at h
    · rename_i numeral
      simp only at h
      split_ifs at h with hword
      obtain rfl := Option.some.inj h
      simp only [Bool.and_eq_true, Bool.not_eq_true', decide_eq_true_eq] at hword
      exact ⟨numeral, rfl, hword.1.2, hword.1.1, rfl, hword.2⟩
    · cases h
  · rintro ⟨numeral, rfl, hsign, hinteger, rfl, hle⟩
    simp [word?, hsign, hinteger, hle]

/-- An offset is null, or a word. -/
lemma offset?_cases {source : Source} {answer : Option ℕ} (h : source.offset? = some answer) :
    (source = .null ∧ answer = none) ∨ ∃ n, answer = some n ∧ source.word? = some n := by
  unfold offset? at h
  split at h
  · exact .inl ⟨rfl, (Option.some.inj h).symm⟩
  · obtain ⟨n, hn, rfl⟩ := Option.map_eq_some_iff.1 h
    exact .inr ⟨n, rfl, hn⟩

end Json.Source

/-! ## Entries

What a member of an object says depends on its key.  `Point.Says`, `Span.Says` and `Node.Says` have
one rule for each key, so that no proof about the readers has to go through their tests of the
key. -/

/-- What a member says about a point. -/
inductive Point.Says (member : Quoted × Json.Source) : Entry → Prop
  | line {n : ℕ} (hkey : member.1.text? = some "line") (h : member.2.word? = some n) :
      Says member (.line n)
  | column {n : ℕ} (hkey : member.1.text? = some "column") (h : member.2.word? = some n) :
      Says member (.column n)
  | offset {answer : Option ℕ} (hkey : member.1.text? = some "offset")
      (h : member.2.offset? = some answer) : Says member (.offset answer)
  | other {key : String} (hkey : member.1.text? = some key) (hline : key ≠ "line")
      (hcolumn : key ≠ "column") (hoffset : key ≠ "offset") : Says member .other

lemma Point.says_of_entryOfSource? {member : Quoted × Json.Source} {entry : Entry}
    (h : entryOfSource? member = some entry) : Says member entry := by
  unfold entryOfSource? at h
  split at h
  · cases h
  rename_i key hkey
  split_ifs at h with hline hcolumn hoffset
  · obtain ⟨n, hn, rfl⟩ := Option.map_eq_some_iff.1 h
    exact .line (hline ▸ hkey) hn
  · obtain ⟨n, hn, rfl⟩ := Option.map_eq_some_iff.1 h
    exact .column (hcolumn ▸ hkey) hn
  · obtain ⟨answer, hanswer, rfl⟩ := Option.map_eq_some_iff.1 h
    exact .offset (hoffset ▸ hkey) hanswer
  · obtain rfl := Option.some.inj h
    exact .other hkey hline hcolumn hoffset

lemma Point.Says.entryOfSource?_eq {member : Quoted × Json.Source} {entry : Entry}
    (h : Says member entry) : entryOfSource? member = some entry := by
  cases h with
  | line hkey hword => simp [entryOfSource?, hkey, hword]
  | column hkey hword => simp [entryOfSource?, hkey, hword]
  | offset hkey hoffset => simp [entryOfSource?, hkey, hoffset]
  | other hkey hline hcolumn hoffset => simp [entryOfSource?, hkey, hline, hcolumn, hoffset]

/-- How a document is read as a point: member by member, or as an array of numbers. -/
inductive Point.ReadFrom : Json.Source → Point → Prop
  | object {members : List (Quoted × Json.Source)} {entries : List Entry} {point : Point}
      (hentries : List.Forall₂ (fun member entry => entryOfSource? member = some entry) members
        entries)
      (hpoint : ofEntries? entries = some point) : ReadFrom (.object members) point
  | pair {line column : Json.Source} {n m : ℕ} (hline : line.word? = some n)
      (hcolumn : column.word? = some m) : ReadFrom (.array [line, column]) ⟨n, m, none⟩
  | triple {line column offset : Json.Source} {n m : ℕ} {answer : Option ℕ}
      (hline : line.word? = some n) (hcolumn : column.word? = some m)
      (hoffset : offset.offset? = some answer) :
      ReadFrom (.array [line, column, offset]) ⟨n, m, answer⟩

lemma Point.readFrom_of_ofSource? {source : Json.Source} {d : ℕ} {point : Point}
    (h : ofSource? d source = some point) : ReadFrom source point := by
  unfold ofSource? at h
  split at h
  · split_ifs at h
    obtain ⟨entries, hentries, hpoint⟩ := Option.bind_eq_some_iff.1 h
    exact .object (mapM_eq_some_iff.1 hentries) hpoint
  · split_ifs at h
    split at h
    case h_2 => cases h
    case h_1 line column hline hcolumn =>
      obtain rfl := Option.some.inj h
      exact .pair hline hcolumn
  · split_ifs at h
    split at h
    case h_2 => cases h
    case h_1 line column offset hline hcolumn hoffset =>
      obtain rfl := Option.some.inj h
      exact .triple hline hcolumn hoffset
  · cases h

/-- The keys of a span that are never extra. -/
def Span.isReserved (key : String) : Bool := key = "start" || key = "end"

lemma Span.isReserved_eq_false_iff {key : String} :
    isReserved key = false ↔ key ≠ "start" ∧ key ≠ "end" := by
  simp [isReserved]

lemma Span.isReserved_eq_true_iff {key : String} :
    isReserved key = true ↔ key = "start" ∨ key = "end" := by
  simp [isReserved]

/-- What a member says about a span. -/
inductive Span.Says (d : ℕ) (member : Quoted × Json.Source) : Entry → Prop
  | start {point : Point} (hkey : member.1.text? = some "start")
      (h : Point.ofSource? d member.2 = some point) : Says d member (.start point)
  | stop {point : Point} (hkey : member.1.text? = some "end")
      (h : Point.ofSource? d member.2 = some point) : Says d member (.stop point)
  | extra {key : String} {value : Json} (hkey : member.1.text? = some key)
      (hfree : isReserved key = false) (h : member.2.value? d = some value) :
      Says d member (.extra key value)

lemma Span.says_of_entryOfSource? {member : Quoted × Json.Source} {d : ℕ} {entry : Entry}
    (h : entryOfSource? d member = some entry) : Says d member entry := by
  unfold entryOfSource? at h
  split at h
  · cases h
  rename_i key hkey
  split_ifs at h with hstart hend
  · obtain ⟨point, hpoint, rfl⟩ := Option.map_eq_some_iff.1 h
    exact .start (hstart ▸ hkey) hpoint
  · obtain ⟨point, hpoint, rfl⟩ := Option.map_eq_some_iff.1 h
    exact .stop (hend ▸ hkey) hpoint
  · obtain ⟨value, hvalue, rfl⟩ := Option.map_eq_some_iff.1 h
    exact .extra hkey (isReserved_eq_false_iff.2 ⟨hstart, hend⟩) hvalue

lemma Span.Says.entryOfSource?_eq {member : Quoted × Json.Source} {d : ℕ} {entry : Entry}
    (h : Says d member entry) : entryOfSource? d member = some entry := by
  cases h with
  | start hkey hpoint => simp [entryOfSource?, hkey, hpoint]
  | stop hkey hpoint => simp [entryOfSource?, hkey, hpoint]
  | extra hkey hfree hvalue =>
    obtain ⟨hstart, hend⟩ := isReserved_eq_false_iff.1 hfree
    simp [entryOfSource?, hkey, hstart, hend, hvalue]

/-- A position is null, or an object that is read member by member. -/
lemma Span.ofSource?_cases {source : Json.Source} {d : ℕ} {answer : Option Span}
    (h : ofSource? d source = some answer) : (source = .null ∧ answer = none) ∨
      ∃ members e entries span, source = .object members ∧ d = e + 1 ∧
        List.Forall₂ (fun member entry => entryOfSource? e member = some entry) members entries ∧
          ofEntries? entries = some span ∧ answer = some span := by
  unfold ofSource? at h
  split at h
  · exact .inl ⟨rfl, (Option.some.inj h).symm⟩
  · rename_i members
    split at h
    · cases h
    · rename_i e
      obtain ⟨span, hspan, rfl⟩ := Option.map_eq_some_iff.1 h
      obtain ⟨entries, hentries, hspan⟩ := Option.bind_eq_some_iff.1 hspan
      exact .inr ⟨members, e, entries, span, rfl, rfl, mapM_eq_some_iff.1 hentries, hspan, rfl⟩
  · cases h

/-! ## Nodes -/

namespace Node

lemma isReserved_eq_false_iff {key : String} :
    isReserved key = false ↔ key ≠ "type" ∧ key ≠ "children" ∧ key ≠ "position" := by
  simp [isReserved, and_assoc]

lemma isReserved_eq_true_iff {key : String} :
    isReserved key = true ↔ key = "type" ∨ key = "children" ∨ key = "position" := by
  simp [isReserved, or_assoc]

/-- What one member of an object says about a node. -/
def entryOfSource? (d : ℕ) (member : Quoted × Json.Source) : Option Entry :=
  match member.1.text? with
  | none => none
  | some key =>
    if key = "type" then
      match member.2 with
      | .string name => name.text?.map .kind
      | _ => none
    else if key = "children" then (childrenOfSource? d member.2).map .children
    else if key = "position" then (Span.ofSource? d member.2).map .position
    else (member.2.value? d).map (.field key)

/-- What a member says about a node. -/
inductive Says (d : ℕ) (member : Quoted × Json.Source) : Entry → Prop
  | kind {q : Quoted} {name : String} (hkey : member.1.text? = some "type")
      (hstring : member.2 = .string q) (h : q.text? = some name) : Says d member (.kind name)
  | children {answer : Option (List Node)} (hkey : member.1.text? = some "children")
      (h : childrenOfSource? d member.2 = some answer) : Says d member (.children answer)
  | position {answer : Option Span} (hkey : member.1.text? = some "position")
      (h : Span.ofSource? d member.2 = some answer) : Says d member (.position answer)
  | field {key : String} {value : Json} (hkey : member.1.text? = some key)
      (hfree : isReserved key = false) (h : member.2.value? d = some value) :
      Says d member (.field key value)

lemma says_of_entryOfSource? {member : Quoted × Json.Source} {d : ℕ} {entry : Entry}
    (h : entryOfSource? d member = some entry) : Says d member entry := by
  unfold entryOfSource? at h
  split at h
  · cases h
  rename_i key hkey
  split_ifs at h with htype hchildren hposition
  · split at h
    · rename_i q hq
      obtain ⟨name, hname, rfl⟩ := Option.map_eq_some_iff.1 h
      exact .kind (htype ▸ hkey) hq hname
    · cases h
  · obtain ⟨answer, hanswer, rfl⟩ := Option.map_eq_some_iff.1 h
    exact .children (hchildren ▸ hkey) hanswer
  · obtain ⟨answer, hanswer, rfl⟩ := Option.map_eq_some_iff.1 h
    exact .position (hposition ▸ hkey) hanswer
  · obtain ⟨value, hvalue, rfl⟩ := Option.map_eq_some_iff.1 h
    exact .field hkey (isReserved_eq_false_iff.2 ⟨htype, hchildren, hposition⟩) hvalue

lemma Says.entryOfSource?_eq {member : Quoted × Json.Source} {d : ℕ} {entry : Entry}
    (h : Says d member entry) : entryOfSource? d member = some entry := by
  cases h with
  | kind hkey hstring hname => simp [entryOfSource?, hkey, hstring, hname]
  | children hkey hanswer => simp [entryOfSource?, hkey, hanswer]
  | position hkey hspan => simp [entryOfSource?, hkey, hspan]
  | field hkey hfree hvalue =>
    obtain ⟨htype, hchildren, hposition⟩ := isReserved_eq_false_iff.1 hfree
    simp [entryOfSource?, hkey, htype, hchildren, hposition, hvalue]

lemma entriesOfSource?_eq_mapM (d : ℕ) (members : List (Quoted × Json.Source)) :
    entriesOfSource? d members = members.mapM (entryOfSource? d) := by
  induction members with
  | nil => rfl
  | cons member members ih =>
    obtain ⟨key, source⟩ := member
    rw [List.mapM_cons, ← ih, entriesOfSource?.eq_def]
    dsimp only
    split
    · rename_i entry entries hentry hentries
      have hentry : entryOfSource? d (key, source) = some entry := hentry
      rw [hentry, hentries]
      rfl
    · rename_i hnone
      have hnone : ∀ entry entries, entryOfSource? d (key, source) = some entry →
          entriesOfSource? d members = some entries → False := hnone
      cases hentry : entryOfSource? d (key, source) with
      | none => rfl
      | some entry =>
        cases hentries : entriesOfSource? d members with
        | none => rfl
        | some entries => exact (hnone entry entries hentry hentries).elim

lemma listOfSource?_eq_mapM (d : ℕ) (sources : List Json.Source) :
    listOfSource? d sources = sources.mapM (ofSource? d) := by
  induction sources with
  | nil => rfl
  | cons source sources ih =>
    rw [List.mapM_cons, ← ih, listOfSource?]
    cases ofSource? d source <;> cases listOfSource? d sources <;> rfl

/-- A node is read from an object, member by member. -/
lemma ofSource?_object_eq_some_iff {members : List (Quoted × Json.Source)} {d : ℕ} {node : Node} :
    ofSource? d (.object members) = some node ↔ ∃ e entries, d = e + 1 ∧
      List.Forall₂ (fun member entry => entryOfSource? e member = some entry) members entries ∧
        ofEntries? entries = some node := by
  cases d with
  | zero => exact ⟨nofun, nofun⟩
  | succ d =>
    rw [ofSource?, Option.bind_eq_some_iff, entriesOfSource?_eq_mapM]
    constructor
    · rintro ⟨entries, hentries, hnode⟩
      exact ⟨d, entries, rfl, mapM_eq_some_iff.1 hentries, hnode⟩
    · rintro ⟨_, entries, ⟨⟩, hentries, hnode⟩
      exact ⟨entries, mapM_eq_some_iff.2 hentries, hnode⟩

/-- A children list is read from an array, item by item. -/
lemma childrenOfSource?_array_eq_some_iff {items : List Json.Source} {d : ℕ}
    {answer : Option (List Node)} :
    childrenOfSource? d (.array items) = some answer ↔ ∃ e nodes, d = e + 1 ∧
      List.Forall₂ (fun item node => ofSource? e item = some node) items nodes ∧
        answer = some nodes := by
  cases d with
  | zero => exact ⟨nofun, nofun⟩
  | succ d =>
    rw [childrenOfSource?, Option.map_eq_some_iff, listOfSource?_eq_mapM]
    constructor
    · rintro ⟨nodes, hnodes, rfl⟩
      exact ⟨d, nodes, rfl, mapM_eq_some_iff.1 hnodes, rfl⟩
    · rintro ⟨_, nodes, ⟨⟩, hnodes, rfl⟩
      exact ⟨nodes, mapM_eq_some_iff.2 hnodes, rfl⟩

end Node

end SiblingQuery
