import SiblingQuery.Proofs.JsonDocument
import SiblingQuery.Proofs.JsonReading

/-!
# Well-formed nodes

`Node` is a plain record: nothing in its type keeps a reserved key out of the fields, or two fields
from having one key.  The builders and the readers do.  `Node.WellFormed` is the invariant that the
readers establish, at every depth:

* each key stands once, and no reserved key is among the fields of a node or the extra keys of a
  span;
* every value is normal, so that equal values are equal trees;
* lines, columns and offsets are words.

The builders keep all of it but one thing: a span is attached to a node as it is, and its extra keys
may be those that its own ends are printed under.  So the invariant is stated with a condition `P` on
spans left open (`Node.WellFormedWith`), and `Node.HasFreeSpans` is what may be missing
(`Node.wellFormed_iff`).

A reader first cuts a mapping into entries, so the invariant is stated for entries too, and that
well-formed entries amount to a well-formed node is proved once for all formats
(`Node.wellFormed_of_ofEntries?`).  What is left for a format is its entries; those of JSON text are
dealt with here.
-/

namespace SiblingQuery

/-! ## The invariant -/

/-- Line, column and offset are words. -/
structure Point.InRange (point : Point) : Prop where
  line : point.line ≤ maxWord
  column : point.column ≤ maxWord
  offset : ∀ offset ∈ point.offset, offset ≤ maxWord

/-- Both points are in range, and the extra members have distinct keys and normal values.  Every
span that can be attached to a node is so. -/
structure Span.IsNormal (span : Span) : Prop where
  start : span.start.InRange
  stop : span.stop.InRange
  nodup : (Members.keys span.extra).Nodup
  normal : ∀ member ∈ span.extra, member.2.IsNormal

/-- No extra key is one that the ends are printed under. -/
def Span.HasFreeKeys (span : Span) : Prop :=
  ∀ member ∈ span.extra, Span.isReserved member.1 = false

instance (span : Span) : Decidable span.HasFreeKeys :=
  inferInstanceAs (Decidable (∀ member ∈ span.extra, Span.isReserved member.1 = false))

/-- Beyond what every span is, the extra members have keys of their own. -/
structure Span.WellFormed (span : Span) : Prop extends span.IsNormal where
  free : span.HasFreeKeys

/-- The fields have distinct keys of their own and normal values, and the same holds of the children.
Every position satisfies `P`. -/
inductive Node.WellFormedWith (P : Span → Prop) : Node → Prop
  | mk {kind : String} {fields : List (String × Json)} {children : Option (List Node)}
      {position : Option Span} (hnodup : (Members.keys fields).Nodup)
      (hfree : ∀ member ∈ fields, Node.isReserved member.1 = false)
      (hnormal : ∀ member ∈ fields, member.2.IsNormal)
      (hchildren : ∀ nodes ∈ children, ∀ node ∈ nodes, Node.WellFormedWith P node)
      (hposition : ∀ span ∈ position, P span) :
      Node.WellFormedWith P ⟨kind, fields, children, position⟩

/-- The fields have distinct keys of their own and normal values, and the children and the position
are well-formed. -/
abbrev Node.WellFormed (node : Node) : Prop := node.WellFormedWith Span.WellFormed

/-- No position, of the node or of a node below it, has an extra key that its ends are printed
under. -/
inductive Node.HasFreeSpans : Node → Prop
  | mk {kind : String} {fields : List (String × Json)} {children : Option (List Node)}
      {position : Option Span} (hchildren : ∀ nodes ∈ children, ∀ node ∈ nodes, HasFreeSpans node)
      (hposition : ∀ span ∈ position, span.HasFreeKeys) :
      HasFreeSpans ⟨kind, fields, children, position⟩

/-! ## Entries -/

namespace Members

variable {α β : Type} {entries : List β} {f : β → Option α}

@[simp]
lemma only?_eq_some_none {values : List α} : only? values = some none ↔ values = [] := by
  rcases values with _ | ⟨a, _ | ⟨b, values⟩⟩ <;> simp [only?]

@[simp]
lemma only?_eq_some_some {values : List α} {value : α} :
    only? values = some (some value) ↔ values = [value] := by
  rcases values with _ | ⟨a, _ | ⟨b, values⟩⟩ <;> simp [only?]

/-- The one answer of several that correspond to items is the answer to the only item. -/
lemma exists_singleton_of_only? {P : β → α → Prop} {answers : List α} {answer : α}
    (h : List.Forall₂ P entries answers) (honly : only? answers = some (some answer)) :
    ∃ entry, entries = [entry] ∧ P entry answer := by
  obtain rfl := only?_eq_some_some.1 honly
  obtain ⟨entry, rest, hentry, hrest, rfl⟩ := List.forall₂_cons_right_iff.1 h
  obtain rfl := List.forall₂_nil_right_iff.1 hrest
  exact ⟨entry, rfl, hentry⟩

/-- The one answer of all entries is the answer of one of them. -/
lemma exists_entry_of_only? {answer : Option α} {value : α}
    (h : only? (entries.filterMap f) = some answer) (hvalue : answer = some value) :
    ∃ entry ∈ entries, f entry = some value := by
  subst hvalue
  rw [only?_eq_some_some] at h
  exact List.mem_filterMap.1 (h ▸ List.mem_singleton_self value)

/-- A settled member is the answer of an entry. -/
lemma exists_entry_of_settled {f : β → Option (String × α)} {member : String × α}
    (h : member ∈ settled (entries.filterMap f)) : ∃ entry ∈ entries, f entry = some member :=
  List.mem_filterMap.1 (mem_of_mem_settled h)

end Members

namespace Point

variable {entries : List Entry}

lemma Entry.line?_eq_some_iff {entry : Entry} {n : ℕ} :
    entry.line? = some n ↔ entry = .line n := by
  cases entry <;> simp [Entry.line?]

lemma Entry.column?_eq_some_iff {entry : Entry} {n : ℕ} :
    entry.column? = some n ↔ entry = .column n := by
  cases entry <;> simp [Entry.column?]

lemma Entry.offset?_eq_some_iff {entry : Entry} {answer : Option ℕ} :
    entry.offset? = some answer ↔ entry = .offset answer := by
  cases entry <;> simp [Entry.offset?]

/-- Entries describe a point if one gives the line, one the column and at most one the offset. -/
lemma ofEntries?_eq_some_iff {point : Point} : ofEntries? entries = some point ↔
    Members.only? (entries.filterMap Entry.line?) = some (some point.line) ∧
      Members.only? (entries.filterMap Entry.column?) = some (some point.column) ∧
        ∃ offset, Members.only? (entries.filterMap Entry.offset?) = some offset ∧
          offset.join = point.offset := by
  unfold ofEntries?
  constructor
  · intro h
    split at h
    case h_2 => cases h
    case h_1 line column offset hline hcolumn hoffset =>
      obtain rfl := Option.some.inj h
      exact ⟨hline, hcolumn, offset, hoffset, rfl⟩
  · rintro ⟨hline, hcolumn, offset, hoffset, hjoin⟩
    rw [hline, hcolumn, hoffset]
    simp only [hjoin]

/-- What is said about a point is in range. -/
def Entry.InRange : Entry → Prop
  | .line n => n ≤ maxWord
  | .column n => n ≤ maxWord
  | .offset n => ∀ offset ∈ n, offset ≤ maxWord
  | .other => True

lemma inRange_of_ofEntries? {point : Point} (hentries : ∀ entry ∈ entries, entry.InRange)
    (h : ofEntries? entries = some point) : point.InRange := by
  obtain ⟨hline, hcolumn, offset, hoffset, hjoin⟩ := ofEntries?_eq_some_iff.1 h
  refine ⟨?_, ?_, fun n hn => ?_⟩
  · obtain ⟨entry, hmem, heq⟩ := Members.exists_entry_of_only? hline rfl
    obtain rfl := Entry.line?_eq_some_iff.1 heq
    exact hentries _ hmem
  · obtain ⟨entry, hmem, heq⟩ := Members.exists_entry_of_only? hcolumn rfl
    obtain rfl := Entry.column?_eq_some_iff.1 heq
    exact hentries _ hmem
  · obtain ⟨entry, hmem, heq⟩ :=
      Members.exists_entry_of_only? hoffset (Option.join_eq_some_iff.1 (hjoin.trans hn))
    obtain rfl := Entry.offset?_eq_some_iff.1 heq
    exact hentries _ hmem n rfl

end Point

namespace Span

variable {entries : List Entry}

lemma Entry.start?_eq_some_iff {entry : Entry} {point : Point} :
    entry.start? = some point ↔ entry = .start point := by
  cases entry <;> simp [Entry.start?]

lemma Entry.stop?_eq_some_iff {entry : Entry} {point : Point} :
    entry.stop? = some point ↔ entry = .stop point := by
  cases entry <;> simp [Entry.stop?]

lemma Entry.extra?_eq_some_iff {entry : Entry} {member : String × Json} :
    entry.extra? = some member ↔ entry = .extra member.1 member.2 := by
  obtain ⟨key, value⟩ := member
  cases entry <;> simp [Entry.extra?]

/-- Entries describe a span if one gives the start and one the end; all others are kept. -/
lemma ofEntries?_eq_some_iff {span : Span} : ofEntries? entries = some span ↔
    Members.only? (entries.filterMap Entry.start?) = some (some span.start) ∧
      Members.only? (entries.filterMap Entry.stop?) = some (some span.stop) ∧
        Members.settled (entries.filterMap Entry.extra?) = span.extra := by
  unfold ofEntries?
  constructor
  · intro h
    split at h
    case h_2 => cases h
    case h_1 start stop hstart hstop =>
      obtain rfl := Option.some.inj h
      exact ⟨hstart, hstop, rfl⟩
  · rintro ⟨hstart, hstop, hextra⟩
    rw [hstart, hstop, hextra]

/-- What is said about a span is well-formed. -/
def Entry.WellFormed : Entry → Prop
  | .start point => point.InRange
  | .stop point => point.InRange
  | .extra key value => isReserved key = false ∧ value.IsNormal

lemma wellFormed_of_ofEntries? {span : Span} (hentries : ∀ entry ∈ entries, entry.WellFormed)
    (h : ofEntries? entries = some span) : span.WellFormed := by
  obtain ⟨hstart, hstop, hsettled⟩ := ofEntries?_eq_some_iff.1 h
  have hextra : ∀ member ∈ span.extra, isReserved member.1 = false ∧ member.2.IsNormal := by
    intro member hmember
    rw [← hsettled] at hmember
    obtain ⟨entry, hmem, heq⟩ := Members.exists_entry_of_settled hmember
    obtain rfl := Entry.extra?_eq_some_iff.1 heq
    exact hentries _ hmem
  refine ⟨⟨?_, ?_, hsettled ▸ Members.nodup_keys_settled _, fun member hmember =>
    (hextra member hmember).2⟩, fun member hmember => (hextra member hmember).1⟩
  · obtain ⟨entry, hmem, heq⟩ := Members.exists_entry_of_only? hstart rfl
    obtain rfl := Entry.start?_eq_some_iff.1 heq
    exact hentries _ hmem
  · obtain ⟨entry, hmem, heq⟩ := Members.exists_entry_of_only? hstop rfl
    obtain rfl := Entry.stop?_eq_some_iff.1 heq
    exact hentries _ hmem

end Span

namespace Node

variable {entries : List Entry}

lemma Entry.children?_eq_some_iff {entry : Entry} {answer : Option (List Node)} :
    entry.children? = some answer ↔ entry = .children answer := by
  cases entry <;> simp [Entry.children?]

lemma Entry.position?_eq_some_iff {entry : Entry} {answer : Option Span} :
    entry.position? = some answer ↔ entry = .position answer := by
  cases entry <;> simp [Entry.position?]

lemma Entry.field?_eq_some_iff {entry : Entry} {member : String × Json} :
    entry.field? = some member ↔ entry = .field member.1 member.2 := by
  obtain ⟨key, value⟩ := member
  cases entry <;> simp [Entry.field?]

/-- Entries describe a node if at most one gives the type, at most one the children and at most one
the position; all others are its fields. -/
lemma ofEntries?_eq_some_iff {node : Node} : ofEntries? entries = some node ↔
    ∃ kind children position,
      Members.only? (entries.filterMap Entry.kind?) = some kind ∧
      Members.only? (entries.filterMap Entry.children?) = some children ∧
      Members.only? (entries.filterMap Entry.position?) = some position ∧
      node = ⟨kind.getD "", Members.settled (entries.filterMap Entry.field?), children.join,
        position.join⟩ := by
  unfold ofEntries?
  constructor
  · intro h
    split at h
    case h_2 => cases h
    case h_1 kind children position hkind hchildren hposition =>
      obtain rfl := Option.some.inj h
      exact ⟨kind, children, position, hkind, hchildren, hposition, rfl⟩
  · rintro ⟨kind, children, position, hkind, hchildren, hposition, rfl⟩
    rw [hkind, hchildren, hposition]

/-- What is said about a node is well-formed. -/
def Entry.WellFormed : Entry → Prop
  | .kind _ => True
  | .children nodes => ∀ list ∈ nodes, ∀ node ∈ list, node.WellFormed
  | .position span => ∀ s ∈ span, s.WellFormed
  | .field key value => isReserved key = false ∧ value.IsNormal

/-- Well-formed entries amount to a well-formed node. -/
lemma wellFormed_of_ofEntries? {node : Node} (hentries : ∀ entry ∈ entries, entry.WellFormed)
    (h : ofEntries? entries = some node) : node.WellFormed := by
  obtain ⟨kind, children, position, -, hchildren, hposition, rfl⟩ := ofEntries?_eq_some_iff.1 h
  have hfields : ∀ member ∈ Members.settled (entries.filterMap Entry.field?),
      isReserved member.1 = false ∧ member.2.IsNormal := by
    intro member hmember
    obtain ⟨entry, hmem, heq⟩ := Members.exists_entry_of_settled hmember
    obtain rfl := Entry.field?_eq_some_iff.1 heq
    exact hentries _ hmem
  refine .mk (Members.nodup_keys_settled _) (fun member hmember => (hfields member hmember).1)
    (fun member hmember => (hfields member hmember).2) (fun list hlist => ?_) fun span hspan => ?_
  · obtain ⟨entry, hmem, heq⟩ :=
      Members.exists_entry_of_only? hchildren (Option.join_eq_some_iff.1 hlist)
    obtain rfl := Entry.children?_eq_some_iff.1 heq
    exact hentries _ hmem list rfl
  · obtain ⟨entry, hmem, heq⟩ :=
      Members.exists_entry_of_only? hposition (Option.join_eq_some_iff.1 hspan)
    obtain rfl := Entry.position?_eq_some_iff.1 heq
    exact hentries _ hmem span rfl

end Node

/-! ## Builders -/

namespace Node

variable {P : Span → Prop} {node : Node}

lemma wellFormed_leaf (kind : String) : (leaf kind).WellFormedWith P :=
  .mk .nil (by simp) (by simp) (by simp) (by simp)

lemma wellFormed_parent (kind : String) {children : List Node}
    (h : ∀ child ∈ children, child.WellFormedWith P) : (parent kind children).WellFormedWith P :=
  .mk .nil (by simp) (by simp) (by simpa using h) (by simp)

namespace WellFormedWith

lemma withField (h : node.WellFormedWith P) (key : String) {value : Json}
    (hvalue : value.IsNormal) : (node.withField key value).WellFormedWith P := by
  unfold Node.withField
  split_ifs with hkey
  · exact h
  · obtain ⟨hnodup, hfree, hnormal, hchildren, hposition⟩ := h
    refine .mk (Members.nodup_keys_set hnodup) ?_ ?_ hchildren hposition
    · intro member hmember
      rcases Members.mem_set hmember with rfl | hmember
      · simpa using hkey
      · exact hfree member hmember
    · intro member hmember
      rcases Members.mem_set hmember with rfl | hmember
      · exact hvalue
      · exact hnormal member hmember

lemma withPosition (h : node.WellFormedWith P) {span : Span} (hspan : P span) :
    (node.withPosition span).WellFormedWith P := by
  obtain ⟨hnodup, hfree, hnormal, hchildren, -⟩ := h
  exact .mk hnodup hfree hnormal hchildren (by simpa using hspan)

lemma withChildren (h : node.WellFormedWith P) {children : Option (List Node)}
    (hchildren : ∀ nodes ∈ children, ∀ child ∈ nodes, child.WellFormedWith P) :
    (node.withChildren children).WellFormedWith P := by
  obtain ⟨hnodup, hfree, hnormal, -, hposition⟩ := h
  exact .mk hnodup hfree hnormal hchildren hposition

lemma child (h : node.WellFormedWith P) {nodes : List Node} (hnodes : node.children = some nodes)
    {child : Node} (hchild : child ∈ nodes) : child.WellFormedWith P := by
  obtain ⟨-, -, -, hchildren, -⟩ := h
  exact hchildren nodes hnodes child hchild

lemma span (h : node.WellFormedWith P) {span : Span} (hspan : node.position = some span) :
    P span := by
  obtain ⟨-, -, -, -, hposition⟩ := h
  exact hposition span hspan

end WellFormedWith

/-- A node that the builders have made is well-formed as long as the spans in it have keys of their
own. -/
lemma wellFormed_iff :
    node.WellFormed ↔ node.WellFormedWith Span.IsNormal ∧ node.HasFreeSpans := by
  constructor
  · intro h
    induction h with
    | mk hnodup hfree hnormal _ hposition ih =>
      exact ⟨.mk hnodup hfree hnormal (fun nodes hnodes child hchild =>
          (ih nodes hnodes child hchild).1) fun span hspan => (hposition span hspan).toIsNormal,
        .mk (fun nodes hnodes child hchild => (ih nodes hnodes child hchild).2)
          fun span hspan => (hposition span hspan).free⟩
  · rintro ⟨h, hspans⟩
    induction h with
    | mk hnodup hfree hnormal _ hposition ih =>
      obtain ⟨hchildren, hkeys⟩ := hspans
      exact .mk hnodup hfree hnormal (fun nodes hnodes child hchild =>
        ih nodes hnodes child hchild (hchildren nodes hnodes child hchild))
          fun span hspan => ⟨hposition span hspan, hkeys span hspan⟩

end Node

/-! ## Nodes from JSON text -/

namespace Json.Source

/-- Whatever a tree is read as is normal. -/
lemma isNormal_of_value? {source : Source} {d : ℕ} {value : Json}
    (h : source.value? d = some value) : value.IsNormal := by
  induction source generalizing d value with
  | null =>
    obtain rfl := Option.some.inj h
    exact .null
  | bool b =>
    obtain rfl := Option.some.inj h
    exact .bool b
  | number n =>
    obtain ⟨number, -, rfl⟩ := Option.map_eq_some_iff.1 h
    exact .num number
  | string q =>
    obtain ⟨text, -, rfl⟩ := Option.map_eq_some_iff.1 h
    exact .str text
  | array items ih =>
    obtain ⟨d, values, rfl, hvalues, rfl⟩ := value?_array_eq_some_iff.1 h
    refine .arr fun value hvalue => ?_
    obtain ⟨item, hitem, hread⟩ := exists_of_forall₂ hvalues value hvalue
    exact ih item hitem hread
  | object members ih =>
    obtain ⟨d, done, rfl, hdone, rfl⟩ := value?_object_eq_some_iff.1 h
    refine .obj (Members.pairwise_keys_sorted done) fun answer hanswer => ?_
    obtain ⟨member, hmember, hread⟩ :=
      exists_of_forall₂ hdone answer (Members.mem_of_mem_sorted hanswer)
    exact ih member hmember (memberValue?_eq_some_iff.1 hread).2

lemma le_of_word? {source : Source} {n : ℕ} (h : source.word? = some n) : n ≤ maxWord := by
  obtain ⟨-, -, -, -, -, hle⟩ := word?_eq_some_iff.1 h
  exact hle

lemma le_of_offset? {source : Source} {answer : Option ℕ} (h : source.offset? = some answer) :
    ∀ n ∈ answer, n ≤ maxWord := by
  rcases offset?_cases h with ⟨-, rfl⟩ | ⟨n, rfl, hn⟩
  · simp
  · simpa using le_of_word? hn

end Json.Source

lemma Point.inRange_of_entryOfSource? {member : Quoted × Json.Source} {entry : Entry}
    (h : entryOfSource? member = some entry) : entry.InRange := by
  cases says_of_entryOfSource? h with
  | line _ hn => exact Json.Source.le_of_word? hn
  | column _ hn => exact Json.Source.le_of_word? hn
  | offset _ hn => exact Json.Source.le_of_offset? hn
  | other => trivial

lemma Point.inRange_of_ofSource? {source : Json.Source} {d : ℕ} {point : Point}
    (h : ofSource? d source = some point) : point.InRange := by
  cases readFrom_of_ofSource? h with
  | object hentries hpoint =>
    refine inRange_of_ofEntries? (fun entry hentry => ?_) hpoint
    obtain ⟨member, -, hmember⟩ := exists_of_forall₂ hentries entry hentry
    exact inRange_of_entryOfSource? hmember
  | pair hline hcolumn =>
    exact ⟨Json.Source.le_of_word? hline, Json.Source.le_of_word? hcolumn, by simp⟩
  | triple hline hcolumn hoffset =>
    exact ⟨Json.Source.le_of_word? hline, Json.Source.le_of_word? hcolumn,
      Json.Source.le_of_offset? hoffset⟩

lemma Span.wellFormed_of_entryOfSource? {member : Quoted × Json.Source} {d : ℕ}
    {entry : Entry} (h : entryOfSource? d member = some entry) : entry.WellFormed := by
  cases says_of_entryOfSource? h with
  | start _ hpoint => exact Point.inRange_of_ofSource? hpoint
  | stop _ hpoint => exact Point.inRange_of_ofSource? hpoint
  | extra _ hfree hvalue => exact ⟨hfree, Json.Source.isNormal_of_value? hvalue⟩

lemma Span.wellFormed_of_ofSource? {source : Json.Source} {d : ℕ} {answer : Option Span}
    (h : ofSource? d source = some answer) : ∀ span ∈ answer, span.WellFormed := by
  rcases ofSource?_cases h with ⟨-, rfl⟩ | ⟨members, e, entries, span, -, -, hentries, hspan, rfl⟩
  · simp
  · have hwell : span.WellFormed := by
      refine wellFormed_of_ofEntries? (fun entry hentry => ?_) hspan
      obtain ⟨member, -, hmember⟩ := exists_of_forall₂ hentries entry hentry
      exact wellFormed_of_entryOfSource? hmember
    simpa using hwell

namespace Node

/-- A well-formed node, or a list of them, is all that a tree is read as. -/
lemma wellFormed_of_source (source : Json.Source) :
    (∀ {d : ℕ} {node : Node}, ofSource? d source = some node → node.WellFormed) ∧
      ∀ {d : ℕ} {answer : Option (List Node)}, childrenOfSource? d source = some answer →
        ∀ nodes ∈ answer, ∀ node ∈ nodes, node.WellFormed := by
  -- Nodes stand in lists and lists in nodes, so both halves go through one induction.
  induction source with
  | null =>
    refine ⟨nofun, fun h => ?_⟩
    obtain rfl := Option.some.inj h
    simp
  | bool b => exact ⟨nofun, nofun⟩
  | number n => exact ⟨nofun, nofun⟩
  | string q => exact ⟨nofun, nofun⟩
  | array items ih =>
    refine ⟨nofun, fun {d answer} h => ?_⟩
    obtain ⟨d, nodes, rfl, hnodes, rfl⟩ := childrenOfSource?_array_eq_some_iff.1 h
    have hwell : ∀ node ∈ nodes, node.WellFormed := by
      intro node hnode
      obtain ⟨item, hitem, hread⟩ := exists_of_forall₂ hnodes node hnode
      exact (ih item hitem).1 hread
    simpa using hwell
  | object members ih =>
    refine ⟨fun {d node} h => ?_, nofun⟩
    obtain ⟨d, entries, rfl, hentries, hnode⟩ := ofSource?_object_eq_some_iff.1 h
    refine wellFormed_of_ofEntries? (fun entry hentry => ?_) hnode
    obtain ⟨member, hmember, hread⟩ := exists_of_forall₂ hentries entry hentry
    cases says_of_entryOfSource? hread with
    | kind => trivial
    | children _ hnodes => exact (ih member hmember).2 hnodes
    | position _ hspan => exact Span.wellFormed_of_ofSource? hspan
    | field _ hfree hvalue => exact ⟨hfree, Json.Source.isNormal_of_value? hvalue⟩

/-- JSON text is read as well-formed nodes. -/
lemma wellFormed_of_parseJson? {text : String} {node : Node} (h : parseJson? text = some node) :
    node.WellFormed := by
  obtain ⟨source, -, h⟩ := Option.bind_eq_some_iff.1 h
  exact (wellFormed_of_source source).1 h

end Node

end SiblingQuery
