import SiblingQuery.Proofs.YamlResolving

/-!
# Printed YAML nodes read back

The tree of a printed list of nodes is read entry by entry, as a printed JSON document is: reading
the members of a printed node gives `Node.entries`, and these amount to the node again.  What is new
here is that a reading may look up aliases, of which a printed text has none, so every reading is
told by the answer that it gives at no cost.

The outcome for a whole text, `parseYamlList?_render`, has one exception.  Behind a text that ends
with another line end than a line feed, one is put that belongs to no value; but a literal block may
be printed so that it keeps all line ends at its tail, and then it keeps this one too
(`Quoting.IsTorn`).
-/

namespace SiblingQuery

open Yaml

namespace Yaml

variable {document : Document}

@[simp]
lemma Reading.ofOption_some {α : Type} (a : α) : Reading.ofOption (some a) = pure a := rfl

namespace Tree

/-! ## Typed places -/

/-- A word is read from its digits. -/
lemma word_valueTree {n : ℕ} (h : n ≤ maxWord) :
    Tree.word document (valueTree (Json.ofNat n)) = pure n := by
  have hword := Scalar.word?_toDigits h
  have htree : (valueTree (Json.ofNat n) : Tree ℕ) =
      .scalar none none .plain (String.ofList (Nat.toDigits 10 n)) := rfl
  rw [Tree.word, Reading.target_valueTree, pure_bind, htree]
  simp [hword]

/-- What stands in a place is read, if it does not look as if nothing stood there. -/
lemma optional_valueTree {α : Type} {read : Tree ℕ → Reading α} {value : Json} {answer : α}
    (hpresent : isPresent (valueTree value) = some true)
    (h : read (valueTree value) = pure answer) :
    Tree.optional document read (valueTree value) = pure (some answer) := by
  rw [Tree.optional, Reading.target_valueTree, pure_bind, hpresent]
  simp [h]

lemma isPresent_ofNat (n : ℕ) : isPresent (valueTree (Json.ofNat n)) = some true := by
  have hword : String.ofList (intText n) ∉ Scalar.typedWords := Scalar.intText_not_mem_typedWords n
  obtain ⟨hempty, hnull, -⟩ := Scalar.typed_of_not_mem hword
  change some (decide (String.ofList (intText n) ≠ "") &&
    !Scalar.isNull (String.ofList (intText n))) = some true
  simp [hempty, hnull]

end Tree

end Yaml

/-! ## Points -/

namespace Point

variable {document : Document} {point : Point}

/-- A printed point is read as the point. -/
lemma InRange.ofTree_valueTree (h : point.InRange) {d : ℕ} (hd : point.toJson.depth ≤ d) :
    Point.ofTree document d (valueTree point.toJson) = pure point := by
  obtain ⟨d, rfl, -⟩ := Json.exists_depth_of_obj hd
  have hline : Tree.word document _ = pure _ := Tree.word_valueTree h.line
  have hcolumn : Tree.word document _ = pure _ := Tree.word_valueTree h.column
  have hentries : (memberTrees (("line", Json.ofNat point.line) ::
      ("column", Json.ofNat point.column) ::
        Members.optional "offset" (point.offset.map Json.ofNat))).mapM (entryOfTree document) =
      pure point.entries := by
    refine Tree.mapM_memberTrees (.cons ?_ (.cons ?_ ?_))
    · simp [entryOfTree, hline]
    · simp [entryOfTree, hcolumn]
    · cases hoffset : point.offset with
      | none => exact .nil
      | some n =>
        have hn : Tree.word document _ = pure _ := Tree.word_valueTree (h.offset n hoffset)
        refine .cons ?_ .nil
        simp [entryOfTree, Tree.optional_valueTree (Tree.isPresent_ofNat n) hn]
  rw [Point.ofTree, Reading.target_valueTree, pure_bind, if_neg (by simp)]
  change ((memberTrees _).mapM (entryOfTree document) >>= fun entries =>
    Reading.ofOption (ofEntries? entries)) = _
  rw [hentries, pure_bind, ofEntries?_entries]
  rfl

end Point

/-! ## Spans -/

namespace Span

variable {document : Document} {span : Span}

/-- A printed span is read as the span. -/
lemma WellFormed.ofTree_valueTree (h : span.WellFormed)
    (hwhole : ∀ member ∈ span.extra, member.2.IsWhole) {d : ℕ} (hd : span.toJson.depth ≤ d) :
    Span.ofTree document d (valueTree span.toJson) = pure span := by
  obtain ⟨d, rfl, hdepth⟩ := Json.exists_depth_of_obj hd
  simp only [List.forall_mem_cons] at hdepth
  obtain ⟨hstart, hstop, hextra⟩ := hdepth
  have hfirst : Point.ofTree document d _ = pure _ := h.start.ofTree_valueTree hstart
  have hlast : Point.ofTree document d _ = pure _ := h.stop.ofTree_valueTree hstop
  -- as for JSON, the parts are printed one behind the other, and read so
  have hentries : (memberTrees (("start", span.start.toJson) :: ("end", span.stop.toJson) ::
      span.extra)).mapM (entryOfTree document d) = pure span.entries := by
    refine Tree.mapM_memberTrees (.cons ?_ (.cons ?_ ?_))
    · simp [entryOfTree, hfirst]
    · simp [entryOfTree, hlast]
    · refine List.forall₂_map_right_iff.2 (List.forall₂_same.2 fun member hmember => ?_)
      have hfree := isReserved_eq_false_iff.1 (h.free member hmember)
      have hvalue : Tree.value document d _ = pure _ := Tree.value_valueTree
        (h.normal member hmember) (hwhole member hmember) (hextra member hmember)
      simp [entryOfTree, hfree, hvalue]
  rw [Span.ofTree, Reading.target_valueTree, pure_bind, if_neg (by simp)]
  change ((memberTrees _).mapM (entryOfTree document d) >>= fun entries =>
    Reading.ofOption (ofEntries? entries)) = _
  rw [hentries, pure_bind, h.ofEntries?_entries]
  rfl

end Span

/-! ## Nodes -/

namespace Node

variable {document : Document} {node : Node}

/-- If every printed node of a list is read back, then so is the list. -/
lemma listOfTree_valueTree {nodes : List Node} {d : ℕ}
    (h : ∀ node ∈ nodes, ofTree document d (valueTree node.toJson) = pure node) :
    listOfTree document (d + 1) (valueTree (.arr (listToJson nodes))) = pure nodes := by
  have hitems : (itemTrees (listToJson nodes)).mapM (ofTree document d) = pure nodes := by
    rw [Tree.itemTrees_eq_map, listToJson_eq_map]
    exact Reading.mapM_eq_pure (List.forall₂_map_left_iff.2 (List.forall₂_map_left_iff.2
      (List.forall₂_same.2 h)))
  exact hitems

/-- A printed node is read as the node, given as many levels as it is deep. -/
lemma WellFormed.ofTree_valueTree (h : node.WellFormed) (hwhole : node.IsWhole) {d : ℕ}
    (hd : node.toJson.depth ≤ d) : ofTree document d (valueTree node.toJson) = pure node := by
  have hself := h.ofEntries?_entries
  induction h generalizing d with
  | @mk kind fields children position _ hfree hnormal hchildren hposition ih =>
    obtain ⟨hfields, hchildrenWhole, hpositionWhole⟩ := hwhole
    rw [toJson_eq] at hd ⊢
    obtain ⟨d, rfl, hdepth⟩ := Json.exists_depth_of_obj hd
    simp only [members, List.forall_mem_cons, List.forall_mem_append,
      Members.forall_mem_optional] at hdepth
    obtain ⟨-, hdepthFields, hdepthChildren, hdepthPosition⟩ := hdepth
    have hentries : (memberTrees (Node.mk kind fields children position).members).mapM
        (entryOfTree document d) = pure (Node.mk kind fields children position).entries := by
      refine Tree.mapM_memberTrees (.cons ?_ (List.rel_append ?_ (List.rel_append ?_ ?_)))
      · simp [entryOfTree, valueTree]
      · refine List.forall₂_map_right_iff.2 (List.forall₂_same.2 fun member hmember => ?_)
        have hkey := isReserved_eq_false_iff.1 (hfree member hmember)
        have hvalue : Tree.value document d _ = pure _ := Tree.value_valueTree
          (hnormal member hmember) (hfields member hmember) (hdepthFields member hmember)
        simp [entryOfTree, hkey, hvalue]
      · cases children with
        | none => exact .nil
        | some nodes =>
          obtain ⟨inner, rfl, hitems⟩ := Json.exists_depth_of_arr (hdepthChildren _ rfl)
          simp only [listToJson_eq_map, List.forall_mem_map] at hitems
          have hnodes : listOfTree document (inner + 1) _ = pure nodes :=
            listOfTree_valueTree fun child hchild => ih nodes rfl child hchild
              (hchildrenWhole nodes rfl child hchild) (hitems child hchild)
              (hchildren nodes rfl child hchild).ofEntries?_entries
          refine .cons ?_ .nil
          simp [entryOfTree, Tree.optional_valueTree rfl hnodes]
      · cases position with
        | none => exact .nil
        | some span =>
          have hspan : Span.ofTree document d _ = pure span := (hposition span rfl).ofTree_valueTree
            (hpositionWhole span rfl) (hdepthPosition _ rfl)
          refine .cons ?_ .nil
          simp [entryOfTree, Tree.optional_valueTree rfl hspan]
    rw [ofTree_succ, Reading.target_valueTree, pure_bind]
    change ((memberTrees _).mapM (entryOfTree document d) >>= fun entries =>
      Reading.ofOption (ofEntries? entries)) = _
    rw [hentries, pure_bind, hself]
    rfl

/-! ## Lists of nodes as text -/

/-- Well-formed nodes whose numbers are integers, and whose text is not nested too deep, are read
back from their text, unless the line feed at its end becomes a part of what is printed last. -/
lemma parseYamlList?_render_of_wellFormed {nodes : List Node}
    (hwell : ∀ node ∈ nodes, node.WellFormed) (hwhole : ∀ node ∈ nodes, node.IsWhole)
    (hdepth : (Json.arr (listToJson nodes)).depth ≤ Yaml.maxDepth)
    (hlast : ∀ text ∈ lastText? (.arr (listToJson nodes)), ¬ Quoting.IsTorn text) (pretty : Bool) :
    parseYamlList? (render nodes .yaml pretty) = some nodes := by
  have hitems : ∀ item ∈ listToJson nodes, item.IsWhole := by
    simp only [listToJson_eq_map, List.forall_mem_map]
    exact fun node hnode =>
      (wellFormed_iff.1 (hwell node hnode)).1.isWhole_toJson (hwhole node hnode)
  have htext : (render nodes .yaml pretty).toList = endLine (sequenceText (listToJson nodes)) := by
    rw [render, String.toList_ofList]
    rfl
  have hscan := bind_scan_endLine hitems hlast
  obtain ⟨inner, hinner, hdepths⟩ := Json.exists_depth_of_arr hdepth
  simp only [listToJson_eq_map, List.forall_mem_map] at hdepths
  have hnodes (document : Document) : listOfTree document (inner + 1)
      (valueTree (.arr (listToJson nodes))) = pure nodes :=
    listOfTree_valueTree fun node hnode =>
      (hwell node hnode).ofTree_valueTree (hwhole node hnode) (hdepths node hnode)
  -- nothing in a printed document is named, so the numbering of names goes through
  have hnumber : Document.ofNamed? (valueTree (.arr (listToJson nodes))) =
      some ⟨valueTree (.arr (listToJson nodes))⟩ := by
    rw [Document.ofNamed?, Tree.numberFrom?_valueTree [] (.arr hitems)]
    rfl
  have hlevels : Yaml.maxDepth - 1 = inner := by omega
  rw [parseYamlList?, readDocument?, htext, hscan]
  simp only [hnumber, hlevels]
  change ((listOfTree _ (inner + 1) (valueTree (.arr (listToJson nodes)))).run _).map Prod.fst = _
  rw [hnodes]
  rfl

/-- Whatever nodes are printed as YAML, with integers for numbers and no deeper than a reader goes, and
unless the line feed at the end of the text becomes a part of what is printed last: the text reads
back as the same nodes in the same order exactly if no span in them has an extra key under which one
of its ends is printed. -/
theorem parseYamlList?_render {nodes : List Node}
    (hobtainable : ∀ node ∈ nodes, node.Obtainable) (hwhole : ∀ node ∈ nodes, node.IsWhole)
    (hdepth : (Json.arr (listToJson nodes)).depth ≤ Yaml.maxDepth)
    (hlast : ∀ text ∈ lastText? (.arr (listToJson nodes)), ¬ Quoting.IsTorn text) (pretty : Bool) :
    parseYamlList? (render nodes .yaml pretty) = some nodes ↔
      ∀ node ∈ nodes, node.HasFreeSpans := by
  constructor
  · intro hread node hnode
    exact (wellFormed_iff.1 (wellFormed_of_parseYamlList? hread node hnode)).2
  · intro hfree
    refine parseYamlList?_render_of_wellFormed (fun node hnode => ?_) hwhole hdepth hlast pretty
    exact (hobtainable node hnode).wellFormed (hfree node hnode)

/-- A root with a position that has an extra key, over a text of two lines, a text that looks like a
number under a key that looks like a truth value, and a parent without children. -/
theorem parseYamlList?_render_nested :
    let data : Json := .obj [("a: b", .num (.int (-3))), ("c", .arr [.null, .str "it's", .arr []])]
    let text := (literal "text" "1.5\n# no comment\n\n").withField "true" data
    let span : Span := ⟨⟨1, 1, some 0⟩, ⟨2, 4, none⟩, [("indent", .arr [.str "- "])]⟩
    let nodes := [(parent "root" [text, parent "0x1f" []]).withPosition span, leaf ""]
    (∀ node ∈ nodes, node.Obtainable) ∧ (∀ node ∈ nodes, node.IsWhole) ∧
      (Json.arr (listToJson nodes)).depth ≤ Yaml.maxDepth ∧
      (∀ text ∈ lastText? (.arr (listToJson nodes)), ¬ Quoting.IsTorn text) ∧
      parseYamlList? (render nodes .yaml true) = some nodes := by
  intro data text span nodes
  have hdata : data.IsNormal := by
    refine .obj (by decide) (List.forall_mem_cons.2 ⟨.num _, List.forall_mem_singleton.2 ?_⟩)
    exact .arr (List.forall_mem_cons.2 ⟨.null, List.forall_mem_cons.2 ⟨.str _,
      List.forall_mem_singleton.2 (.arr (by simp))⟩⟩)
  have hdataWhole : data.IsWhole := by
    refine .obj (List.forall_mem_cons.2 ⟨.num (by decide), List.forall_mem_singleton.2 ?_⟩)
    exact .arr (List.forall_mem_cons.2 ⟨.null, List.forall_mem_cons.2 ⟨.str _,
      List.forall_mem_singleton.2 (.arr (by simp))⟩⟩)
  have hspan : span.WellFormed :=
    { start := ⟨by decide, by decide, by decide⟩
      stop := ⟨by decide, by decide, by decide⟩
      nodup := by decide
      normal := List.forall_mem_singleton.2 (.arr (List.forall_mem_singleton.2 (.str _)))
      free := by decide }
  have htext : text.Obtainable := .withField (.literal "text" _) "true" hdata
  have hlist : (parent "0x1f" []).Obtainable := .parent "0x1f" (by simp)
  have hobtainable : ∀ node ∈ nodes, node.Obtainable :=
    List.forall_mem_cons.2 ⟨.withPosition (.parent "root" (List.forall_mem_cons.2
      ⟨htext, List.forall_mem_singleton.2 hlist⟩)) hspan.toIsNormal,
        List.forall_mem_singleton.2 (.leaf "")⟩
  have hfree : ∀ node ∈ nodes, node.HasFreeSpans := by
    refine List.forall_mem_cons.2 ⟨.mk ?_ ?_, List.forall_mem_singleton.2 (.mk nofun nofun)⟩
    · rintro _ ⟨⟩
      refine List.forall_mem_cons.2 ⟨.mk nofun nofun, List.forall_mem_singleton.2 (.mk ?_ nofun)⟩
      rintro _ ⟨⟩
      exact List.forall_mem_nil _
    · rintro _ ⟨⟩
      exact hspan.free
  have htextWhole : text.IsWhole :=
    .mk (List.forall_mem_cons.2 ⟨.str _, List.forall_mem_singleton.2 hdataWhole⟩)
      (by rintro _ ⟨⟩) (by rintro _ ⟨⟩)
  have hlistWhole : (parent "0x1f" []).IsWhole := .mk (by simp) (by simp) (by simp)
  have hwhole : ∀ node ∈ nodes, node.IsWhole := by
    refine List.forall_mem_cons.2 ⟨.mk (by simp [parent]) ?_ ?_,
      List.forall_mem_singleton.2 (.mk (by simp) (by simp) (by simp))⟩
    · rintro _ ⟨⟩
      exact List.forall_mem_cons.2 ⟨htextWhole, List.forall_mem_singleton.2 hlistWhole⟩
    · rintro _ ⟨⟩
      exact List.forall_mem_singleton.2 (.arr (List.forall_mem_singleton.2 (.str _)))
  have hdepth : (Json.arr (listToJson nodes)).depth ≤ Yaml.maxDepth := by decide
  have hlast : ∀ text ∈ lastText? (.arr (listToJson nodes)), ¬ Quoting.IsTorn text := by decide
  exact ⟨hobtainable, hwhole, hdepth, hlast,
    (parseYamlList?_render hobtainable hwhole hdepth hlast true).2 hfree⟩

/-- The type of a leaf that ends with a line feed and a line separator does not come back: the line
feed behind the text has become a part of it. -/
theorem not_parseYamlList?_render_torn :
    let nodes := [leaf "a\n\u2028"]
    (∀ node ∈ nodes, node.Obtainable) ∧ (∀ node ∈ nodes, node.IsWhole) ∧
      (Json.arr (listToJson nodes)).depth ≤ Yaml.maxDepth ∧
      parseYamlList? (render nodes .yaml true) ≠ some nodes := by
  intro nodes
  refine ⟨List.forall_mem_singleton.2 (.leaf _), List.forall_mem_singleton.2
    (.mk (by simp) (by simp) (by simp)), by decide, fun h => ?_⟩
  have hkinds := congrArg (Option.map (List.map Node.kind)) h
  have hread : (parseYamlList? (render nodes .yaml true)).map (List.map Node.kind) =
      some ["a\n\u2028\n"] := by decide +kernel
  rw [hread] at hkinds
  revert hkinds
  decide

end Node

end SiblingQuery
