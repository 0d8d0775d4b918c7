import SiblingQuery.Proofs.YamlReading
import SiblingQuery.Tree.Rendering

/-!
# Printed nodes read back

`Node.Obtainable` is every node that there can be: read from a text, part of another node, or put
together by the builders.  All of them are well-formed, but for the extra keys of spans: a builder
attaches any span.  A well-formed node is the same after it has been printed and read, and whatever
is read is well-formed, so the others are not (`parseJsonList?_render`).

The proof goes through the entries of a printed node, `Node.entries`.  Reading the tree of a printed
node gives exactly these entries, and they amount to the node again because no reserved key is
among its fields and none stands twice.  Points and spans are dealt with in the same way.
-/

namespace SiblingQuery

open Json

/-! ## Nodes that there can be -/

namespace Node

/-- The nodes that can be read from a text, found in another node, or built. -/
inductive Obtainable : Node → Prop
  | json {text : String} {node : Node} (h : parseJson? text = some node) : Obtainable node
  | yaml {text : String} {node : Node} (h : parseYaml? text = some node) : Obtainable node
  | child {node child : Node} {nodes : List Node} (h : Obtainable node)
      (hnodes : node.children = some nodes) (hchild : child ∈ nodes) : Obtainable child
  | leaf (kind : String) : Obtainable (leaf kind)
  | parent (kind : String) {children : List Node} (h : ∀ child ∈ children, Obtainable child) :
      Obtainable (parent kind children)
  | literal (kind value : String) : Obtainable (literal kind value)
  | withField {node : Node} (h : Obtainable node) (key : String) {value : Json}
      (hvalue : value.IsNormal) : Obtainable (node.withField key value)
  | withPosition {node : Node} (h : Obtainable node) {span : Span} (hspan : span.IsNormal) :
      Obtainable (node.withPosition span)
  | withChildren {node : Node} (h : Obtainable node) {children : Option (List Node)}
      (hchildren : ∀ nodes ∈ children, ∀ child ∈ nodes, Obtainable child) :
      Obtainable (node.withChildren children)

/-- The readers make well-formed nodes, and the builders keep nodes well-formed, whatever spans they
are given. -/
theorem Obtainable.wellFormedWith {node : Node} (h : Obtainable node) :
    node.WellFormedWith Span.IsNormal := by
  induction h with
  | json h => exact (wellFormed_iff.1 (wellFormed_of_parseJson? h)).1
  | yaml h => exact (wellFormed_iff.1 (wellFormed_of_parseYaml? h)).1
  | child _ hnodes hchild ih => exact ih.child hnodes hchild
  | leaf kind => exact wellFormed_leaf kind
  | parent kind _ ih => exact wellFormed_parent kind ih
  | literal kind value => exact (wellFormed_leaf kind).withField "value" (.str value)
  | withField _ key hvalue ih => exact ih.withField key hvalue
  | withPosition _ hspan ih => exact ih.withPosition hspan
  | withChildren _ _ ih ihchildren => exact ih.withChildren ihchildren

lemma Obtainable.wellFormed {node : Node} (h : Obtainable node) (hfree : node.HasFreeSpans) :
    node.WellFormed :=
  wellFormed_iff.2 ⟨h.wellFormedWith, hfree⟩

/-- Every number in the fields and in the extra keys of the position is an integer of at most 64
bits, and the same holds of the children. -/
inductive IsWhole : Node → Prop
  | mk {kind : String} {fields : List (String × Json)} {children : Option (List Node)}
      {position : Option Span} (hfields : ∀ member ∈ fields, member.2.IsWhole)
      (hchildren : ∀ nodes ∈ children, ∀ node ∈ nodes, IsWhole node)
      (hposition : ∀ span ∈ position, ∀ member ∈ span.extra, member.2.IsWhole) :
      IsWhole ⟨kind, fields, children, position⟩

lemma isWhole_leaf (kind : String) : (leaf kind).IsWhole := .mk nofun nofun nofun

lemma isWhole_parent (kind : String) {nodes : List Node} (h : ∀ node ∈ nodes, node.IsWhole) :
    (parent kind nodes).IsWhole :=
  .mk nofun (fun _ hnodes => Option.some.inj hnodes ▸ h) nofun

end Node

/-! ## Printed objects -/

namespace Json

/-- The members of a printed object are read one by one. -/
lemma mapM_sourcesOfMembers_iff {β : Type} {f : Quoted × Source → Option β}
    {members : List (String × Json)} {answers : List β} :
    (sourcesOfMembers members).mapM f = some answers ↔
      List.Forall₂ (fun member answer => f (Quoted.ofText member.1, member.2.source) = some answer)
        members answers := by
  rw [sourcesOfMembers_eq_map, mapM_eq_some_iff, List.forall₂_map_left_iff]

lemma isWhole_ofNat {n : ℕ} (h : n ≤ maxWord) : (ofNat n).IsWhole :=
  .num ⟨by omega, by omega⟩

lemma Source.word?_source_ofNat {n : ℕ} (h : n ≤ maxWord) : (ofNat n).source.word? = some n := by
  have hdigits : Numeral.natOfDigits (Nat.toDigits 10 n) = n := Nat.ofDigitChars_ten_toDigits
  simp [ofNat, source, word?, Number.numeral, Numeral.ofInt, Numeral.isInteger, hdigits, h]

lemma Source.offset?_source_ofNat {n : ℕ} (h : n ≤ maxWord) :
    (ofNat n).source.offset? = some (some n) := by
  change (ofNat n).source.word?.map some = some (some n)
  rw [word?_source_ofNat h]
  rfl

end Json

lemma Members.forall_mem_optional {key : String} {value : Option Json}
    {P : String × Json → Prop} :
    (∀ member ∈ optional key value, P member) ↔ ∀ v ∈ value, P (key, v) := by
  cases value <;> simp [optional]

/-! ## Points -/

namespace Point

variable {point : Point}

/-- What a printed point says. -/
def entries (point : Point) : List Entry :=
  .line point.line :: .column point.column :: point.offset.toList.map fun n => .offset (some n)

lemma ofEntries?_entries (point : Point) : ofEntries? point.entries = some point := by
  obtain ⟨line, column, offset⟩ := point
  cases offset <;> rfl

/-- A printed point holds no other numbers than words. -/
lemma InRange.isWhole_toJson (h : point.InRange) : point.toJson.IsWhole := by
  refine .obj (List.forall_mem_cons.2 ⟨isWhole_ofNat h.line,
    List.forall_mem_cons.2 ⟨isWhole_ofNat h.column, Members.forall_mem_optional.2 ?_⟩⟩)
  intro value hvalue
  obtain ⟨n, hn, rfl⟩ := Option.map_eq_some_iff.1 hvalue
  exact isWhole_ofNat (h.offset n hn)

/-- A printed point is read as the point. -/
lemma InRange.ofSource?_source (h : point.InRange) {d : ℕ} (hd : point.toJson.depth ≤ d) :
    Point.ofSource? d point.toJson.source = some point := by
  obtain ⟨d, rfl, -⟩ := exists_depth_of_obj hd
  have hline := Source.word?_source_ofNat h.line
  have hcolumn := Source.word?_source_ofNat h.column
  have hentries : (sourcesOfMembers (("line", ofNat point.line) ::
      ("column", ofNat point.column) ::
        Members.optional "offset" (point.offset.map ofNat))).mapM entryOfSource? =
      some point.entries := by
    refine mapM_sourcesOfMembers_iff.2 (.cons ?_ (.cons ?_ ?_))
    · simp [entryOfSource?, hline]
    · simp [entryOfSource?, hcolumn]
    · cases hoffset : point.offset with
      | none => exact .nil
      | some n =>
        refine .cons ?_ .nil
        simp [entryOfSource?, Source.offset?_source_ofNat (h.offset n hoffset)]
  simp only [toJson, source, ofSource?]
  rw [if_neg (Nat.succ_ne_zero d), hentries]
  exact ofEntries?_entries point

end Point

/-! ## Spans -/

namespace Span

variable {span : Span}

/-- What a printed span says. -/
def entries (span : Span) : List Entry :=
  .start span.start :: .stop span.stop :: span.extra.map fun member => .extra member.1 member.2

lemma WellFormed.ofEntries?_entries (h : span.WellFormed) :
    ofEntries? span.entries = some span := by
  have hstart : span.entries.filterMap Entry.start? = [span.start] := by
    simp [entries, List.filterMap_cons, List.filterMap_map, Function.comp_def, Entry.start?]
  have hstop : span.entries.filterMap Entry.stop? = [span.stop] := by
    simp [entries, List.filterMap_cons, List.filterMap_map, Function.comp_def, Entry.stop?]
  have hextra : span.entries.filterMap Entry.extra? = span.extra := by
    simp [entries, List.filterMap_cons, List.filterMap_map, Function.comp_def, Entry.extra?]
  rw [ofEntries?, hstart, hstop, hextra, Members.settled_eq_self h.nodup]
  rfl

lemma IsNormal.isWhole_toJson (h : span.IsNormal)
    (hwhole : ∀ member ∈ span.extra, member.2.IsWhole) : span.toJson.IsWhole :=
  .obj (List.forall_mem_cons.2 ⟨h.start.isWhole_toJson,
    List.forall_mem_cons.2 ⟨h.stop.isWhole_toJson, hwhole⟩⟩)

/-- A printed span is read as the span. -/
lemma WellFormed.ofSource?_source (h : span.WellFormed)
    (hwhole : ∀ member ∈ span.extra, member.2.IsWhole) {d : ℕ} (hd : span.toJson.depth ≤ d) :
    Span.ofSource? d span.toJson.source = some (some span) := by
  obtain ⟨d, rfl, hdepth⟩ := exists_depth_of_obj hd
  simp only [List.forall_mem_cons] at hdepth
  obtain ⟨hstart, hstop, hextra⟩ := hdepth
  -- the four parts of a node are printed one behind the other, and read so
  have hentries : (sourcesOfMembers (("start", span.start.toJson) :: ("end", span.stop.toJson) ::
      span.extra)).mapM (entryOfSource? d) = some span.entries := by
    refine mapM_sourcesOfMembers_iff.2 (.cons ?_ (.cons ?_ ?_))
    · simp [entryOfSource?, h.start.ofSource?_source hstart]
    · simp [entryOfSource?, h.stop.ofSource?_source hstop]
    · refine List.forall₂_map_right_iff.2 (List.forall₂_same.2 fun member hmember => ?_)
      have hfree := isReserved_eq_false_iff.1 (h.free member hmember)
      have hvalue := Source.value?_source (h.normal member hmember) (hwhole member hmember)
        (hextra member hmember)
      simp [entryOfSource?, hfree, hvalue]
  simp only [toJson, source, ofSource?]
  rw [hentries, Option.bind_some, h.ofEntries?_entries]
  rfl

end Span

/-! ## Nodes -/

namespace Node

variable {node : Node}

/-- What a printed node says. -/
def entries (node : Node) : List Entry :=
  .kind node.kind :: ((node.fields.map fun member => .field member.1 member.2) ++
    ((node.children.toList.map fun nodes => .children (some nodes)) ++
      node.position.toList.map fun span => .position (some span)))

/-- The members of a printed node. -/
def members (node : Node) : List (String × Json) :=
  ("type", .str node.kind) :: (node.fields ++
    (Members.optional "children" (node.children.map fun nodes => .arr (listToJson nodes)) ++
      Members.optional "position" (node.position.map Span.toJson)))

lemma toJson_eq (node : Node) : node.toJson = .obj node.members := by
  obtain ⟨kind, fields, children, position⟩ := node
  cases children <;> rfl

lemma listToJson_eq_map (nodes : List Node) : listToJson nodes = nodes.map toJson := by
  induction nodes with
  | nil => rfl
  | cons node nodes ih => simp [listToJson, ih]

/-- Picking from the entries of a node is picking from each of its parts. -/
lemma filterMap_entries {α : Type} (node : Node) (pick : Entry → Option α) :
    node.entries.filterMap pick =
      (pick (.kind node.kind)).toList ++
        ((node.fields.filterMap fun member => pick (.field member.1 member.2)) ++
          ((node.children.bind fun nodes => pick (.children (some nodes))).toList ++
            (node.position.bind fun span => pick (.position (some span))).toList)) := by
  obtain ⟨kind, fields, children, position⟩ := node
  have hkind (entries : List Entry) :
      (.kind kind :: entries).filterMap pick = (pick (.kind kind)).toList ++ entries.filterMap pick := by
    cases h : pick (.kind kind) <;> simp [h]
  have hlast {β : Type} (part : Option β) (say : β → Entry) :
      (part.toList.map say).filterMap pick = (part.bind fun b => pick (say b)).toList := by
    cases part with
    | none => rfl
    | some b => cases h : pick (say b) <;> simp [h]
  rw [entries, hkind, List.filterMap_append, List.filterMap_append, hlast, hlast,
    List.filterMap_map]
  rfl

lemma WellFormedWith.ofEntries?_entries {P : Span → Prop} (h : node.WellFormedWith P) :
    ofEntries? node.entries = some node := by
  obtain ⟨hnodup, -, -, -, -⟩ := h
  rename_i kind fields children position
  have hsettled := Members.settled_eq_self hnodup
  cases children <;> cases position <;>
    simp [ofEntries?, filterMap_entries, Entry.kind?, Entry.children?, Entry.position?,
      Entry.field?, Members.only?, hsettled]

/-- A printed node holds no other numbers than its values and its points do. -/
lemma WellFormedWith.isWhole_toJson (h : node.WellFormedWith Span.IsNormal)
    (hwhole : node.IsWhole) : node.toJson.IsWhole := by
  induction h with
  | @mk kind fields children position _ _ _ _ hposition ih =>
    obtain ⟨hfields, hchildrenWhole, hpositionWhole⟩ := hwhole
    rw [toJson_eq]
    refine .obj (List.forall_mem_cons.2 ⟨.str kind, List.forall_mem_append.2 ⟨hfields,
      List.forall_mem_append.2 ⟨Members.forall_mem_optional.2 ?_,
        Members.forall_mem_optional.2 ?_⟩⟩⟩)
    · intro value hvalue
      obtain ⟨nodes, hnodes, rfl⟩ := Option.map_eq_some_iff.1 hvalue
      refine .arr ?_
      simp only [listToJson_eq_map, List.forall_mem_map]
      exact fun child hchild =>
        ih nodes hnodes child hchild (hchildrenWhole nodes hnodes child hchild)
    · intro value hvalue
      obtain ⟨span, hspan, rfl⟩ := Option.map_eq_some_iff.1 hvalue
      exact (hposition span hspan).isWhole_toJson (hpositionWhole span hspan)

/-- If every printed node of a list is read back, then so is the list. -/
lemma listOfSource?_sources {nodes : List Node} {d : ℕ}
    (h : ∀ node ∈ nodes, ofSource? d node.toJson.source = some node) :
    listOfSource? d (sourcesOfItems (listToJson nodes)) = some nodes := by
  rw [listOfSource?_eq_mapM, sourcesOfItems_eq_map, listToJson_eq_map, mapM_eq_some_iff,
    List.forall₂_map_left_iff, List.forall₂_map_left_iff]
  exact List.forall₂_same.2 h

/-- A printed node is read as the node, given as many levels as it is deep. -/
lemma WellFormed.ofSource?_source (h : node.WellFormed) (hwhole : node.IsWhole) {d : ℕ}
    (hd : node.toJson.depth ≤ d) : ofSource? d node.toJson.source = some node := by
  have hself := h.ofEntries?_entries
  induction h generalizing d with
  | @mk kind fields children position _ hfree hnormal hchildren hposition ih =>
    obtain ⟨hfields, hchildrenWhole, hpositionWhole⟩ := hwhole
    rw [toJson_eq] at hd ⊢
    obtain ⟨d, rfl, hdepth⟩ := exists_depth_of_obj hd
    simp only [members, List.forall_mem_cons, List.forall_mem_append,
      Members.forall_mem_optional] at hdepth
    obtain ⟨-, hdepthFields, hdepthChildren, hdepthPosition⟩ := hdepth
    have hentries : (sourcesOfMembers (Node.mk kind fields children position).members).mapM
        (entryOfSource? d) = some (Node.mk kind fields children position).entries := by
      refine mapM_sourcesOfMembers_iff.2
        (.cons ?_ (List.rel_append ?_ (List.rel_append ?_ ?_)))
      · simp [entryOfSource?, source]
      · refine List.forall₂_map_right_iff.2 (List.forall₂_same.2 fun member hmember => ?_)
        have hkey := isReserved_eq_false_iff.1 (hfree member hmember)
        have hvalue := Source.value?_source (hnormal member hmember) (hfields member hmember)
          (hdepthFields member hmember)
        simp [entryOfSource?, hkey, hvalue]
      · cases children with
        | none => exact .nil
        | some nodes =>
          obtain ⟨inner, rfl, hitems⟩ := exists_depth_of_arr (hdepthChildren _ rfl)
          simp only [listToJson_eq_map, List.forall_mem_map] at hitems
          have hnodes : listOfSource? inner (sourcesOfItems (listToJson nodes)) = some nodes :=
            listOfSource?_sources fun child hchild => ih nodes rfl child hchild
              (hchildrenWhole nodes rfl child hchild) (hitems child hchild)
              (hchildren nodes rfl child hchild).ofEntries?_entries
          refine .cons ?_ .nil
          simp [entryOfSource?, source, childrenOfSource?, hnodes]
      · cases position with
        | none => exact .nil
        | some span =>
          have hspan := (hposition span rfl).ofSource?_source (hpositionWhole span rfl)
            (hdepthPosition _ rfl)
          refine .cons ?_ .nil
          simp [entryOfSource?, hspan]
    simp only [source, ofSource?]
    rw [entriesOfSource?_eq_mapM, hentries]
    exact hself

/-! ## Lists of nodes as text -/

/-- A text that spells a tree is read as the tree, also with a line feed at its end. -/
lemma read_endLine {text : List Char} {source : Source}
    (h : Token.Spell text source.tokens) : Source.read (endLine text) = some source := by
  obtain ⟨hbare, hline⟩ := read_of_spell h
  unfold endLine
  split_ifs
  · exact hbare
  · exact hline

lemma endLine_of_newline_not_mem {text : List Char} (h : '\n' ∉ text) :
    endLine text = text ++ ['\n'] := by
  unfold endLine
  rw [if_neg]
  exact fun hlast => h (List.mem_of_getLast? hlast)

/-- In either layout the text of nodes has the tree of their document. -/
lemma read_render (nodes : List Node) (pretty : Bool) :
    Source.read (render nodes .json pretty).toList =
      some (.array (sourcesOfItems (listToJson nodes))) := by
  rw [render, String.toList_ofList]
  cases pretty
  · exact read_endLine (spell_compact _)
  · exact read_endLine (spell_pretty _ 0)

/-- Well-formed nodes whose numbers are integers, and whose text is not nested too deep, are read
back from their text in either layout. -/
lemma parseJsonList?_render_of_wellFormed {nodes : List Node}
    (hwell : ∀ node ∈ nodes, node.WellFormed) (hwhole : ∀ node ∈ nodes, node.IsWhole)
    (hdepth : (Json.arr (listToJson nodes)).depth ≤ Source.maxDepth) (pretty : Bool) :
    parseJsonList? (render nodes .json pretty) = some nodes := by
  obtain ⟨inner, hinner, hitems⟩ := exists_depth_of_arr hdepth
  simp only [listToJson_eq_map, List.forall_mem_map] at hitems
  have hnodes : listOfSource? (Source.maxDepth - 1) (sourcesOfItems (listToJson nodes)) =
      some nodes :=
    listOfSource?_sources fun node hnode =>
      (hwell node hnode).ofSource?_source (hwhole node hnode) (by
        rw [hinner]
        exact hitems node hnode)
  rw [parseJsonList?, read_render]
  exact hnodes

/-- A single node is read back from its document on one line. -/
lemma WellFormed.parseJson?_compact (h : node.WellFormed) (hwhole : node.IsWhole)
    (hdepth : node.toJson.depth ≤ Source.maxDepth) :
    parseJson? (String.ofList node.toJson.compact) = some node := by
  have hread := (read_of_spell (spell_compact node.toJson)).1
  rw [parseJson?, String.toList_ofList, hread]
  exact h.ofSource?_source hwhole hdepth

/-- Whatever is read as a list of nodes is well-formed. -/
lemma wellFormed_of_parseJsonList? {text : String} {nodes : List Node}
    (h : parseJsonList? text = some nodes) : ∀ node ∈ nodes, node.WellFormed := by
  unfold parseJsonList? at h
  split at h
  · next items hread =>
    rw [listOfSource?_eq_mapM, mapM_eq_some_iff] at h
    intro node hnode
    obtain ⟨item, -, hitem⟩ := exists_of_forall₂ h node hnode
    exact (wellFormed_of_source item).1 hitem
  · cases h

/-- Whatever nodes are printed as JSON, with integers for numbers and no deeper than a reader goes,
the text reads back as the same nodes in the same order, in either layout, exactly if no span in
them has an extra key under which one of its ends is printed.  On one line the only line feed is the
last character. -/
theorem parseJsonList?_render {nodes : List Node} (hobtainable : ∀ node ∈ nodes, node.Obtainable)
    (hwhole : ∀ node ∈ nodes, node.IsWhole)
    (hdepth : (Json.arr (listToJson nodes)).depth ≤ Source.maxDepth) :
    (∀ pretty, parseJsonList? (render nodes .json pretty) = some nodes ↔
      ∀ node ∈ nodes, node.HasFreeSpans) ∧
      ∃ line, (render nodes .json false).toList = line ++ ['\n'] ∧ '\n' ∉ line := by
  have hline := newline_not_mem_compact (Json.arr (listToJson nodes))
  refine ⟨fun pretty => ⟨fun hread node hnode => ?_, fun hfree => ?_⟩,
    (Json.arr (listToJson nodes)).compact, ?_, hline⟩
  · exact (wellFormed_iff.1 (wellFormed_of_parseJsonList? hread node hnode)).2
  · refine parseJsonList?_render_of_wellFormed (fun node hnode => ?_) hwhole hdepth pretty
    exact (hobtainable node hnode).wellFormed (hfree node hnode)
  · rw [render, String.toList_ofList]
    exact endLine_of_newline_not_mem hline

/-- A root that has a position with an extra key, a text with a quotation mark and a line feed, and
a parent without children. -/
theorem parseJsonList?_render_nested :
    let data : Json := .obj [("a", .num (.int (-3))), ("b", .arr [.null, .str "\\"])]
    let text := (literal "text" "\"hi\"\n").withField "data" data
    let span : Span := ⟨⟨1, 1, some 0⟩, ⟨2, 4, none⟩, [("indent", .arr [.num (.int 1)])]⟩
    let nodes := [(parent "root" [text, parent "list" []]).withPosition span]
    (∀ node ∈ nodes, node.Obtainable) ∧ (∀ node ∈ nodes, node.IsWhole) ∧
      (Json.arr (listToJson nodes)).depth ≤ Source.maxDepth ∧
      (∀ pretty, parseJsonList? (render nodes .json pretty) = some nodes) ∧
      ∃ line, (render nodes .json false).toList = line ++ ['\n'] ∧ '\n' ∉ line := by
  intro data text span nodes
  have hdata : data.IsNormal := by
    refine .obj (by decide) (List.forall_mem_cons.2 ⟨.num _, List.forall_mem_singleton.2 ?_⟩)
    exact .arr (List.forall_mem_cons.2 ⟨.null, List.forall_mem_singleton.2 (.str _)⟩)
  have hdataWhole : data.IsWhole := by
    refine .obj (List.forall_mem_cons.2 ⟨.num (by decide), List.forall_mem_singleton.2 ?_⟩)
    exact .arr (List.forall_mem_cons.2 ⟨.null, List.forall_mem_singleton.2 (.str _)⟩)
  have hspan : span.WellFormed :=
    { start := ⟨by decide, by decide, by decide⟩
      stop := ⟨by decide, by decide, by decide⟩
      nodup := by decide
      normal := List.forall_mem_singleton.2 (.arr (List.forall_mem_singleton.2 (.num _)))
      free := by decide }
  have htext : text.Obtainable := .withField (.literal "text" _) "data" hdata
  have hlist : (parent "list" []).Obtainable := .parent "list" (by simp)
  have hobtainable : ∀ node ∈ nodes, node.Obtainable :=
    List.forall_mem_singleton.2 (.withPosition (.parent "root"
      (List.forall_mem_cons.2 ⟨htext, List.forall_mem_singleton.2 hlist⟩)) hspan.toIsNormal)
  have hfree : ∀ node ∈ nodes, node.HasFreeSpans := by
    refine List.forall_mem_singleton.2 (.mk ?_ ?_)
    · rintro _ ⟨⟩
      exact List.forall_mem_cons.2 ⟨.mk nofun nofun, List.forall_mem_singleton.2 (.mk nofun nofun)⟩
    · rintro _ ⟨⟩
      exact hspan.free
  have htextWhole : text.IsWhole :=
    .mk (List.forall_mem_cons.2 ⟨.str _, List.forall_mem_singleton.2 hdataWhole⟩)
      (by rintro _ ⟨⟩) (by rintro _ ⟨⟩)
  have hlistWhole : (parent "list" []).IsWhole := isWhole_parent "list" nofun
  have hwhole : ∀ node ∈ nodes, node.IsWhole := by
    refine List.forall_mem_singleton.2 (.mk (by simp [parent]) ?_ ?_)
    · rintro _ ⟨⟩
      exact List.forall_mem_cons.2 ⟨htextWhole, List.forall_mem_singleton.2 hlistWhole⟩
    · rintro _ ⟨⟩
      exact List.forall_mem_singleton.2
        (.arr (List.forall_mem_singleton.2 (.num (by decide))))
  have hdepth : (Json.arr (listToJson nodes)).depth ≤ Source.maxDepth := by decide
  obtain ⟨hread, hline⟩ := parseJsonList?_render hobtainable hwhole hdepth
  exact ⟨hobtainable, hwhole, hdepth, fun pretty => (hread pretty).2 hfree, hline⟩

/-- A span with an extra key `start` is printed with two members of that name, and so not read. -/
theorem not_parseJsonList?_render_start :
    let span : Span := ⟨⟨1, 1, none⟩, ⟨1, 2, none⟩, [("start", .num (.int 7))]⟩
    let nodes := [(leaf "a").withPosition span]
    (∀ node ∈ nodes, node.Obtainable) ∧ (∀ node ∈ nodes, node.IsWhole) ∧
      (Json.arr (listToJson nodes)).depth ≤ Source.maxDepth ∧
      ∀ pretty, parseJsonList? (render nodes .json pretty) = none := by
  intro span nodes
  have hspan : span.IsNormal :=
    { start := ⟨by decide, by decide, by decide⟩
      stop := ⟨by decide, by decide, by decide⟩
      nodup := by decide
      normal := List.forall_mem_singleton.2 (.num _) }
  have hwhole : ∀ node ∈ nodes, node.IsWhole := by
    refine List.forall_mem_singleton.2 (.mk nofun nofun ?_)
    rintro _ ⟨⟩
    exact List.forall_mem_singleton.2 (.num (by decide))
  refine ⟨List.forall_mem_singleton.2 (.withPosition (.leaf "a") hspan), hwhole, by decide, ?_⟩
  intro pretty
  have hnone : listOfSource? (Source.maxDepth - 1) (sourcesOfItems (listToJson nodes)) = none := by
    decide +kernel
  rw [parseJsonList?, read_render]
  exact hnone

end Node

end SiblingQuery
