import SiblingQuery.Files.Loading
import SiblingQuery.Proofs.FlowTrees
import SiblingQuery.Proofs.ShortNumerals
import SiblingQuery.Proofs.YamlMeaning

/-!
# One tree from either reader

A text can be read as JSON and as YAML, and which reader it gets depends on how it is loaded: JSON
comes first where the text has no name, and a file name decides for one of them.  Where both readers
accept the text they give the same tree, provided that its numbers and strings read alike, as every
short number does (`Numeral.readsAlike_of_short`).

The YAML document is the JSON text in YAML (`Yaml.standsFor_of_scan`), so both readers follow one
structure, and what is left is a comparison reader by reader: of values, of points, of spans and of
nodes.  `Reading.Yields` takes the YAML reader along; that it may refuse what JSON accepts, such as
a point in an array, does not matter.
-/

namespace SiblingQuery

open Json (Source)
open Yaml Yaml.Reading

/-! ## Passes -/

/-- Two passes, one over some items and the other over their counterparts, have the same answers if
they have them item by item. -/
lemma eq_of_forall₂_of_forall₂ {α β γ : Type} {R : α → β → Prop} {P : α → γ → Prop}
    {Q : β → γ → Prop} {items : List α} {parts : List β} {answers others : List γ}
    (hparts : List.Forall₂ R items parts) (hanswers : List.Forall₂ P items answers)
    (hothers : List.Forall₂ Q parts others)
    (h : ∀ item ∈ items, ∀ part answer other, R item part → P item answer → Q part other →
      other = answer) : others = answers := by
  induction hparts generalizing answers others with
  | nil =>
    rw [List.forall₂_nil_left_iff.1 hanswers, List.forall₂_nil_left_iff.1 hothers]
  | @cons item part items parts hpart _ ih =>
    obtain ⟨answer, answers, hanswer, hlater, rfl⟩ := List.forall₂_cons_left_iff.1 hanswers
    obtain ⟨other, others, hother, hrest, rfl⟩ := List.forall₂_cons_left_iff.1 hothers
    rw [h item List.mem_cons_self part answer other hpart hanswer hother,
      ih hlater hrest fun later hlater => h later (List.mem_cons_of_mem _ hlater)]

namespace Yaml

variable {document : Document} {source : Source} {tree : Tree ℕ} {key : Quoted} {name : String}

/-- What is made of the one answer that a reader may give. -/
lemma Reading.Yields.bind_pure {α β : Type} {reading : Reading α} {answer : α}
    (h : Yields reading (· = answer)) (make : α → β) :
    Yields (reading >>= fun found => pure (make found)) (· = make answer) :=
  h.bind fun found hfound => yields_pure (by rw [hfound])

lemma Reading.Yields.bind_ofOption {α β : Type} {reading : Reading α} {answer : α} {made : β}
    (h : Yields reading (· = answer)) {make? : α → Option β} (hmade : make? answer = some made) :
    Yields (reading >>= fun found => ofOption (make? found)) (· = made) := by
  refine h.bind fun found hfound => yields_ofOption fun other hother => ?_
  rw [hfound, hmade] at hother
  exact (Option.some.inj hother).symm

/-- A pass of a reader over the counterparts of some items. -/
lemma Reading.yields_mapM_eq {α β γ : Type} {R : α → β → Prop} {read? : α → Option γ}
    {read : β → Reading γ} {items : List α} {parts : List β} {answers : List γ}
    (hparts : List.Forall₂ R items parts)
    (hanswers : List.Forall₂ (fun item answer => read? item = some answer) items answers)
    (h : ∀ item ∈ items, ∀ part answer, R item part → read? item = some answer →
      Yields (read part) (· = answer)) : Yields (parts.mapM read) (· = answers) := by
  induction hparts generalizing answers with
  | nil =>
    rw [List.forall₂_nil_left_iff.1 hanswers]
    exact yields_pure rfl
  | @cons item part items parts hpart _ ih =>
    obtain ⟨answer, answers, hanswer, hlater, rfl⟩ := List.forall₂_cons_left_iff.1 hanswers
    rw [List.mapM_cons]
    refine (h item List.mem_cons_self part answer hpart hanswer).bind fun first hfirst => ?_
    refine (ih hlater fun later hlater => h later (List.mem_cons_of_mem _ hlater)).bind
      fun rest hrest => yields_pure ?_
    rw [hfirst, hrest]

/-! ## Values -/

lemma Tree.value?_scalar (d : ℕ) (style : Style) (text : String) :
    Tree.value? document d (.scalar none none style text) = Scalar.ofStyle? style text := by
  unfold Tree.value?
  rfl

lemma Tree.exists_of_value?_sequence {trees : List (Tree ℕ)} {d : ℕ} {value : Json}
    (h : Tree.value? document d (.sequence none none trees) = some value) :
    ∃ e values, trees.mapM (Tree.value? document e) = some values ∧ value = .arr values := by
  unfold Tree.value? at h
  cases d with
  | zero => cases h
  | succ d =>
    obtain ⟨values, hvalues, rfl⟩ := Option.map_eq_some_iff.1 h
    exact ⟨d, values, hvalues, rfl⟩

lemma Tree.exists_of_value?_mapping {entries : List (Tree ℕ × Tree ℕ)} {d : ℕ} {value : Json}
    (h : Tree.value? document d (.mapping none none entries) = some value) :
    ∃ e members, entries.mapM (Tree.memberOf? (Tree.value? document e)) = some members ∧
      value = .obj (Members.sorted members) := by
  unfold Tree.value? at h
  cases d with
  | zero => cases h
  | succ d =>
    obtain ⟨members, hmembers, rfl⟩ := Option.map_eq_some_iff.1 h
    exact ⟨d, members, hmembers, rfl⟩

/-- A value is the same, however deep either reader may go. -/
lemma StandsFor.value_eq (h : StandsFor source tree) (halike : source.ReadsAlike) {d e : ℕ}
    {value other : Json} (hvalue : source.value? d = some value)
    (hother : tree.value? document e = some other) : other = value := by
  -- The two depths are independent: each is only what is left to its own reader.
  induction source generalizing tree d e value other with
  | null =>
    cases h
    rw [Tree.value?_scalar] at hother
    exact Option.some.inj (hother.symm.trans hvalue)
  | bool b =>
    cases h
    rw [Tree.value?_scalar] at hother
    cases b <;> exact Option.some.inj (hother.symm.trans hvalue)
  | number n =>
    cases h with
    | number hword =>
      cases halike with
      | number halike =>
        obtain ⟨number, hnumber, rfl⟩ := Option.map_eq_some_iff.1 hvalue
        rw [Tree.value?_scalar] at hother
        exact Scalar.ofPlain?_of_spells hword halike hnumber hother
  | string quoted =>
    cases h with
    | string htext =>
      rw [Tree.value?_scalar] at hother
      rw [Source.value?, htext] at hvalue
      exact Option.some.inj (hother.symm.trans hvalue)
  | array items ih =>
    cases h with
    | array hitems =>
      cases halike with
      | array halike =>
        obtain ⟨d, values, rfl, hvalues, rfl⟩ := Source.value?_array_eq_some_iff.1 hvalue
        obtain ⟨e, others, hothers, rfl⟩ := Tree.exists_of_value?_sequence hother
        rw [mapM_eq_some_iff] at hothers
        rw [eq_of_forall₂_of_forall₂ hitems hvalues hothers]
        intro item hitem part answer other hpart hanswer hfound
        exact ih item hitem hpart (halike item hitem) hanswer hfound
  | object members ih =>
    cases h with
    | object hentries =>
      cases halike with
      | object _ halike =>
        obtain ⟨d, done, rfl, hdone, rfl⟩ := Source.value?_object_eq_some_iff.1 hvalue
        obtain ⟨e, others, hothers, rfl⟩ := Tree.exists_of_value?_mapping hother
        rw [mapM_eq_some_iff] at hothers
        rw [eq_of_forall₂_of_forall₂ hentries hdone hothers]
        intro member hmember entry answer other hentry hanswer hfound
        cases hentry with
        | mk hkey hentry =>
          rw [Source.memberValue?_eq_some_iff] at hanswer
          rw [Tree.memberOf?_eq_some_iff, Tree.value?_scalar] at hfound
          have hname := Option.some.inj (hkey.symm.trans hanswer.1)
          have hname' := Json.str.inj (Option.some.inj hfound.1)
          exact Prod.ext (hname'.symm.trans hname)
            (ih _ hmember hentry (halike _ hmember) hanswer.2 hfound.2)

/-! ## Words and places that may be empty -/

/-- Nothing that stands for a JSON tree is an alias. -/
lemma StandsFor.target (h : StandsFor source tree) :
    Reading.target document tree = pure tree := by
  cases h <;> rfl

lemma StandsFor.yields_word (h : StandsFor source tree) {n : ℕ} (hword : source.word? = some n) :
    Yields (tree.word document) (· = n) := by
  obtain ⟨numeral, rfl, -⟩ := Source.word?_eq_some_iff.1 hword
  cases h with
  | number hspells =>
    refine yields_ofOption fun found hfound => ?_
    rw [Scalar.word?_of_spells hspells, hword] at hfound
    exact (Option.some.inj hfound).symm

lemma Tree.optional_null {α : Type} (read : Tree ℕ → Reading α) :
    Tree.optional document read (.scalar none none .plain "null") = pure none := rfl

lemma StandsFor.yields_optional {α : Type} {read : Tree ℕ → Reading α} {answer : α}
    (h : StandsFor source tree) (hpresent : tree.isPresent = some true)
    (hread : Yields (read tree) (· = answer)) :
    Yields (Tree.optional document read tree) (· = some answer) := by
  rw [Tree.optional, h.target, pure_bind, hpresent]
  exact hread.bind_pure some

lemma StandsFor.yields_offset (h : StandsFor source tree) {answer : Option ℕ}
    (hoffset : source.offset? = some answer) :
    Yields (Tree.optional document (Tree.word document) tree) (· = answer) := by
  rcases Source.offset?_cases hoffset with ⟨rfl, rfl⟩ | ⟨n, rfl, hword⟩
  · cases h
    rw [Tree.optional_null]
    exact yields_pure rfl
  · refine h.yields_optional ?_ (h.yields_word hword)
    obtain ⟨numeral, rfl, -⟩ := Source.word?_eq_some_iff.1 hword
    cases h with
    | number hspells =>
      obtain ⟨hempty, hnull, -⟩ := Scalar.typed_of_spells hspells
      simp [Tree.isPresent, hempty, hnull]

end Yaml

variable {document : Document}

/-! ## Points and spans -/

lemma Point.yields_entryOfTree_eq {member : Quoted × Source} {entry : Yaml.Tree ℕ × Yaml.Tree ℕ}
    (hstands : MemberStandsFor member entry) {answer : Point.Entry}
    (h : entryOfSource? member = some answer) :
    Yields (entryOfTree document entry) (· = answer) := by
  cases hstands with
  | mk hkey hvalue =>
    simp only [entryOfTree, Tree.text_scalar, pure_bind]
    cases says_of_entryOfSource? h with
    | line hname hword =>
      obtain rfl := Option.some.inj (hkey.symm.trans hname)
      rw [if_pos rfl]
      exact (hvalue.yields_word hword).bind_pure _
    | column hname hword =>
      obtain rfl := Option.some.inj (hkey.symm.trans hname)
      rw [if_neg (by decide), if_pos rfl]
      exact (hvalue.yields_word hword).bind_pure _
    | offset hname hoffset =>
      obtain rfl := Option.some.inj (hkey.symm.trans hname)
      rw [if_neg (by decide), if_neg (by decide), if_pos rfl]
      exact (hvalue.yields_offset hoffset).bind_pure _
    | other hname hline hcolumn hoffset =>
      obtain rfl := Option.some.inj (hkey.symm.trans hname)
      rw [if_neg hline, if_neg hcolumn, if_neg hoffset]
      exact yields_pure rfl

/-- A point is the same where YAML reads one; from an array of numbers it reads none. -/
lemma Point.yields_ofTree_eq {source : Source} {tree : Yaml.Tree ℕ}
    (hstands : StandsFor source tree) {d : ℕ} (e : ℕ) {point : Point}
    (h : ofSource? d source = some point) :
    Yields (ofTree document e tree) (· = point) := by
  rw [ofTree, hstands.target, pure_bind]
  split_ifs
  · exact yields_refuse
  cases hstands with
  | array => exact (yields_refuse (P := fun _ => False)).bind fun _ hnever => hnever.elim
  | @object members entries hentries =>
    cases readFrom_of_ofSource? h with
    | @object _ answers _ hanswers hpoint =>
      have hread : Yields (entries.mapM (entryOfTree document)) (· = answers) :=
        yields_mapM_eq hentries hanswers fun member _ entry answer hstands hanswer =>
          yields_entryOfTree_eq hstands hanswer
      exact hread.bind_ofOption hpoint
  | _ => cases readFrom_of_ofSource? h

lemma Span.yields_entryOfTree_eq {member : Quoted × Source} {entry : Yaml.Tree ℕ × Yaml.Tree ℕ}
    (hstands : MemberStandsFor member entry) (halike : member.2.ReadsAlike) {d : ℕ} (e : ℕ)
    {answer : Span.Entry} (h : entryOfSource? d member = some answer) :
    Yields (entryOfTree document e entry) (· = answer) := by
  cases hstands with
  | mk hkey hvalue =>
    simp only [entryOfTree, Tree.text_scalar, pure_bind]
    cases says_of_entryOfSource? h with
    | start hname hpoint =>
      obtain rfl := Option.some.inj (hkey.symm.trans hname)
      rw [if_pos rfl]
      exact (Point.yields_ofTree_eq hvalue e hpoint).bind_pure _
    | stop hname hpoint =>
      obtain rfl := Option.some.inj (hkey.symm.trans hname)
      rw [if_neg (by decide), if_pos rfl]
      exact (Point.yields_ofTree_eq hvalue e hpoint).bind_pure _
    | extra hname hfree hcontent =>
      obtain rfl := Option.some.inj (hkey.symm.trans hname)
      obtain ⟨hstart, hstop⟩ := isReserved_eq_false_iff.1 hfree
      rw [if_neg hstart, if_neg hstop]
      refine (Tree.yields_value? e _).bind fun found hfound => yields_pure ?_
      rw [hvalue.value_eq halike hcontent hfound]

lemma Span.yields_ofTree_eq {source : Source} {tree : Yaml.Tree ℕ} (hstands : StandsFor source tree)
    (halike : source.ReadsAlike) {d : ℕ} (e : ℕ) {span : Span}
    (h : ofSource? d source = some (some span)) : Yields (ofTree document e tree) (· = span) := by
  rw [ofTree, hstands.target, pure_bind]
  split_ifs
  · exact yields_refuse
  cases hstands with
  | @object members entries hentries =>
    cases halike with
    | object _ halike =>
      rcases ofSource?_cases h with ⟨hnull, -⟩ | ⟨_, d, answers, found, ⟨⟩, -, hanswers, hspan, heq⟩
      · cases hnull
      obtain rfl := Option.some.inj heq
      have hread : Yields (entries.mapM (entryOfTree document (e - 1))) (· = answers) :=
        yields_mapM_eq hentries hanswers fun member hmember entry answer hstands hanswer =>
          yields_entryOfTree_eq hstands (halike member hmember) (e - 1) hanswer
      exact hread.bind_ofOption hspan
  | _ => cases h

/-- A position is the same, and so is a place for one that is left empty. -/
lemma Span.yields_optional_eq {source : Source} {tree : Yaml.Tree ℕ}
    (hstands : StandsFor source tree) (halike : source.ReadsAlike) {d : ℕ} (e : ℕ)
    {answer : Option Span} (h : ofSource? d source = some answer) :
    Yields (Tree.optional document (ofTree document e) tree) (· = answer) := by
  rcases ofSource?_cases h with ⟨rfl, rfl⟩ | ⟨members, _, _, span, rfl, -, -, -, rfl⟩
  · cases hstands
    rw [Tree.optional_null]
    exact yields_pure rfl
  · have hread : Yields (ofTree document e tree) (· = span) :=
      Span.yields_ofTree_eq hstands halike e h
    cases hstands with
    | object hentries => exact (StandsFor.object hentries).yields_optional rfl hread

/-! ## Nodes -/

namespace Node

variable {source : Source} {tree : Yaml.Tree ℕ}

/-- Both readers have the same node for a tree. -/
def NodeAgrees (document : Document) (source : Source) : Prop :=
  ∀ ⦃tree : Yaml.Tree ℕ⦄ ⦃d : ℕ⦄ ⦃node : Node⦄ (e : ℕ), StandsFor source tree →
    ofSource? d source = some node → Yields (ofTree document e tree) (· = node)

/-- Both readers have the same children for a tree, or none. -/
def ChildrenAgree (document : Document) (source : Source) : Prop :=
  ∀ ⦃tree : Yaml.Tree ℕ⦄ ⦃d : ℕ⦄ ⦃answer : Option (List Node)⦄ (e : ℕ), StandsFor source tree →
    childrenOfSource? d source = some answer →
      Yields (Tree.optional document (listOfTree document e) tree) (· = answer)

lemma yields_entryOfTree_eq {member : Quoted × Source} {entry : Yaml.Tree ℕ × Yaml.Tree ℕ}
    (hstands : MemberStandsFor member entry) (halike : member.2.ReadsAlike)
    (hchildren : ChildrenAgree document member.2) {d : ℕ} (e : ℕ) {answer : Entry}
    (h : entryOfSource? d member = some answer) :
    Yields (entryOfTree document e entry) (· = answer) := by
  cases hstands with
  | mk hkey hvalue =>
    simp only [entryOfTree, Tree.text_scalar, pure_bind]
    cases says_of_entryOfSource? h with
    | kind hname hstring htext =>
      obtain rfl := Option.some.inj (hkey.symm.trans hname)
      rw [if_pos rfl]
      subst hstring
      cases hvalue with
      | string htext' =>
        obtain rfl := Option.some.inj (htext'.symm.trans htext)
        rw [Tree.text_scalar, pure_bind]
        exact yields_pure rfl
    | children hname hanswer =>
      obtain rfl := Option.some.inj (hkey.symm.trans hname)
      rw [if_neg (by decide), if_pos rfl]
      exact (hchildren e hvalue hanswer).bind_pure _
    | position hname hspan =>
      obtain rfl := Option.some.inj (hkey.symm.trans hname)
      rw [if_neg (by decide), if_neg (by decide), if_pos rfl]
      exact (Span.yields_optional_eq hvalue halike e hspan).bind_pure _
    | field hname hfree hcontent =>
      obtain rfl := Option.some.inj (hkey.symm.trans hname)
      obtain ⟨htype, hchildren, hposition⟩ := isReserved_eq_false_iff.1 hfree
      rw [if_neg htype, if_neg hchildren, if_neg hposition]
      refine (Tree.yields_value? e _).bind fun found hfound => yields_pure ?_
      rw [hvalue.value_eq halike hcontent hfound]

lemma nodeAgrees_object {members : List (Quoted × Source)}
    (halike : ∀ member ∈ members, member.2.ReadsAlike)
    (hmembers : ∀ member ∈ members, ChildrenAgree document member.2) :
    NodeAgrees document (.object members) := by
  intro tree d node e hstands h
  cases hstands with
  | @object _ entries hentries =>
    obtain ⟨d, answers, rfl, hanswers, hnode⟩ := ofSource?_object_eq_some_iff.1 h
    cases e with
    | zero => exact yields_refuse
    | succ e =>
      have hread : Yields (entries.mapM (entryOfTree document e)) (· = answers) :=
        yields_mapM_eq hentries hanswers fun member hmember entry answer hstands hanswer =>
          yields_entryOfTree_eq hstands (halike member hmember) (hmembers member hmember) e
            hanswer
      rw [ofTree_succ]
      exact hread.bind_ofOption hnode

lemma childrenAgree_array {items : List Source}
    (hitems : ∀ item ∈ items, NodeAgrees document item) :
    ChildrenAgree document (.array items) := by
  intro tree d answer e hstands h
  obtain ⟨d, nodes, rfl, hnodes, rfl⟩ := childrenOfSource?_array_eq_some_iff.1 h
  cases hstands with
  | @array _ trees htrees =>
    refine (StandsFor.array htrees).yields_optional rfl ?_
    cases e with
    | zero => exact yields_refuse
    | succ e =>
      exact yields_mapM_eq htrees hnodes fun item hitem part node hstands hnode =>
        hitems item hitem e hstands hnode

/-- Nodes and children lists are the same, one inside the other. -/
lemma agrees_of_readsAlike (h : source.ReadsAlike) :
    NodeAgrees document source ∧ ChildrenAgree document source := by
  -- An object is a node and an array a children list, so the two statements take turns.
  induction source with
  | null =>
    refine ⟨nofun, fun tree d answer e hstands hanswer => ?_⟩
    obtain rfl := Option.some.inj hanswer
    cases hstands
    rw [Tree.optional_null]
    exact yields_pure rfl
  | bool b => exact ⟨nofun, nofun⟩
  | number n => exact ⟨nofun, nofun⟩
  | string quoted => exact ⟨nofun, nofun⟩
  | array items ih =>
    cases h with
    | array h =>
      exact ⟨nofun, childrenAgree_array fun item hitem => (ih item hitem (h item hitem)).1⟩
  | object members ih =>
    cases h with
    | object _ h =>
      exact ⟨nodeAgrees_object h fun member hmember => (ih member hmember (h member hmember)).2,
        nofun⟩

/-- Where numbers and strings read alike, both readers have the same node for a text. -/
lemma eq_of_parses {text : String} {first second : Node}
    (halike : ∀ source, Source.read text.toList = some source → source.ReadsAlike)
    (hjson : parseJson? text = some first) (hyaml : parseYaml? text = some second) :
    first = second := by
  obtain ⟨source, hread, hfirst⟩ := Option.bind_eq_some_iff.1 hjson
  have hsource := halike source hread
  cases source with
  | object members =>
    unfold parseYaml? readDocument? at hyaml
    split at hyaml
    · cases hyaml
    · next named hnamed =>
      split at hyaml
      · cases hyaml
      · next document hdocument =>
        obtain ⟨⟨found, left⟩, hfound, rfl⟩ := Option.map_eq_some_iff.1 hyaml
        have hstands := Yaml.standsFor_of_scan hread hsource hnamed hdocument
        exact ((agrees_of_readsAlike hsource).1 _ hstands hfirst _ _ _ hfound).symm
  | _ => cases hfirst

end Node

/-! ## Loading -/

/-- A text is loaded as a tree: from octets without a name, or from a file. -/
inductive Loads (text : String) (tree : Node) : Prop
  | octets {octets : List UInt8} (htext : textOfOctets octets = .ok text)
      (h : loadOctets octets = .ok tree) : Loads text tree
  | file {store : Store} {path : String} (htext : textOfItem path (store.item? path) = .ok text)
      (h : store.loadTree path = .ok tree) : Loads text tree

/-- However a text is loaded, one of the two readers reads it. -/
lemma Loads.parses {text : String} {tree : Node} (h : Loads text tree) :
    Node.parseJson? text = some tree ∨ Node.parseYaml? text = some tree := by
  -- octets are tried as JSON first and then as YAML, a file only as its name says
  cases h with
  | octets htext h =>
    rw [loadOctets, htext] at h
    simp only [parseUnnamed] at h
    split at h
    · next node hjson =>
      cases h
      exact .inl hjson
    · split at h
      · next node hyaml =>
        cases h
        exact .inr hyaml
      · cases h
  | @file store path htext h =>
    rw [Store.loadTree, loadItem, htext] at h
    simp only [parseFile, Format.parse] at h
    cases hformat : Format.ofPath path with
    | json =>
      cases hjson : Node.parseJson? text with
      | none => simp [hformat, hjson] at h
      | some node =>
        rw [hformat, hjson] at h
        cases h
        exact .inl rfl
    | yaml =>
      cases hyaml : Node.parseYaml? text with
      | none => simp [hformat, hyaml] at h
      | some node =>
        rw [hformat, hyaml] at h
        cases h
        exact .inr rfl

/-- Where every number and every string of a text reads alike, the text is one tree: both readers
give it, if they accept the text, and so does every way to load it. -/
theorem readers_agree {text : String}
    (halike : ∀ source, Source.read text.toList = some source → source.ReadsAlike) :
    (∀ first second, Node.parseJson? text = some first → Node.parseYaml? text = some second →
        first = second) ∧
      ∀ first second, Loads text first → Loads text second → first = second := by
  refine ⟨fun first second => Node.eq_of_parses halike, fun first second hfirst hsecond => ?_⟩
  rcases hfirst.parses with hfirst | hfirst <;> rcases hsecond.parses with hsecond | hsecond
  · exact Option.some.inj (hfirst.symm.trans hsecond)
  · exact Node.eq_of_parses halike hfirst hsecond
  · exact (Node.eq_of_parses halike hsecond hfirst).symm
  · exact Option.some.inj (hfirst.symm.trans hsecond)

/-- A root with a child, numbers of both kinds, and both kinds of escapes. -/
theorem readers_agree_nested :
    let text := "\x7b\"type\":\"r\\n\",\"n\":[-7, 2.5e3]," ++
      "\"children\":[\x7b\"type\":\"\\u00e9\"\x7d]\x7d"
    (∀ source, Source.read text.toList = some source → source.ReadsAlike) ∧
      ∃ tree, Node.parseJson? text = some tree ∧ Node.parseYaml? text = some tree := by
  intro text
  have hread : Source.read text.toList = some (.object
      [(Quoted.ofText "type", .string [.char 'r', .char '\n']),
        (Quoted.ofText "n", .array [.number ⟨true, ['7'], none, none⟩,
          .number ⟨false, ['2'], some ['5'], some (false, ['3'])⟩]),
        (Quoted.ofText "children", .array [.object
          [(Quoted.ofText "type", .string [.code 0xe9])]])]) :=
    Source.read_of_scan (by decide +kernel)
  have halike : ∀ source, Source.read text.toList = some source → source.ReadsAlike := by
    intro source hsource
    obtain rfl := Option.some.inj (hread.symm.trans hsource)
    refine .object (by decide +kernel) ?_
    simp only [List.forall_mem_cons]
    refine ⟨.string (by decide), .array ?_, .array ?_, nofun⟩
    · refine List.forall_mem_cons.2 ⟨.number ?_, List.forall_mem_singleton.2 (.number ?_)⟩
      · exact Numeral.readsAlike_of_short
          ⟨List.all_eq_true.1 rfl, by decide, by decide, by decide⟩ (by decide)
      · exact Numeral.readsAlike_of_short
          ⟨List.all_eq_true.1 rfl, by decide, by decide, by decide⟩ (by decide)
    · exact List.forall_mem_singleton.2 (.object (by decide +kernel)
        (List.forall_mem_singleton.2 (.string (by decide))))
  have hjson : (Node.parseJson? text).isSome = true := by decide +kernel
  have hyaml : (Node.parseYaml? text).isSome = true := by decide +kernel
  obtain ⟨first, hfirst⟩ := Option.isSome_iff_exists.1 hjson
  obtain ⟨second, hsecond⟩ := Option.isSome_iff_exists.1 hyaml
  have hsame := (readers_agree halike).1 first second hfirst hsecond
  exact ⟨halike, first, hfirst, hsame ▸ hsecond⟩

/-- Both readers accept a text and have different trees for it. -/
def ReadersDiffer (text : String) : Prop :=
  ∃ first second, Node.parseJson? text = some first ∧ Node.parseYaml? text = some second ∧
    first ≠ second ∧ first.same second = false

/-- Trees are different if a comparison tells them apart that takes one to be the same as itself. -/
lemma readersDiffer_of_same {text : String}
    (h : (Node.parseJson? text).bind (fun first => (Node.parseYaml? text).map fun second =>
      (first.same first, first.same second)) = some (true, false)) : ReadersDiffer text := by
  obtain ⟨first, hfirst, hsame⟩ := Option.bind_eq_some_iff.1 h
  obtain ⟨second, hsecond, hsame⟩ := Option.map_eq_some_iff.1 hsame
  obtain ⟨hself, hother⟩ := Prod.mk.inj hsame
  refine ⟨first, second, hfirst, hsecond, ?_, hother⟩
  rintro rfl
  exact Bool.false_ne_true (hother.symm.trans hself)

/-- The two readers differ on a negative zero, on a number whose digits are scaled with an error, on
a next-line control and on a space beside a line separator. -/
theorem not_readers_agree :
    ReadersDiffer "\x7b\"n\":-0\x7d" ∧ ReadersDiffer "\x7b\"n\":3e30\x7d" ∧
      ReadersDiffer "\x7b\"type\":\"a\u0085b\"\x7d" ∧
      ReadersDiffer "\x7b\"type\":\"a \u2028b\"\x7d" := by
  refine ⟨?_, ?_, ?_, ?_⟩
  all_goals exact readersDiffer_of_same (by decide +kernel)

end SiblingQuery
