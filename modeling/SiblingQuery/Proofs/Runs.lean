import SiblingQuery.Command.Run
import SiblingQuery.Proofs.Loading
import SiblingQuery.Proofs.RoundTrip
import SiblingQuery.Proofs.Search
import SiblingQuery.Proofs.Tests

/-!
# Runs of the command

A run is a chain of stages: load the tree, look the parent up, read the position and the tests,
search, look the format up, print.  `Arguments.Answered` says that each stage that can fail succeeds,
and with what; the search itself is not among them, because a parent that was looked up can be
searched and a position that was read is an index.

So the exit status is zero exactly when a run is answered, and then the text on the standard output
is that of the selected children.  Every node that a run can come by was loaded, so it is well-formed,
and hence the text reads back as these children if it is JSON.
-/

namespace SiblingQuery

/-! ## Stages -/

namespace Position

variable {position : Position}

/-- What is read as a position from a text is an index, never a node. -/
lemma exists_index_of_parse {text : String} (h : parse text = .ok position) :
    ∃ start, position = .index start := by
  unfold parse at h
  simp only at h
  split at h
  · exact ⟨_, (Except.ok.inj h).symm⟩
  · split at h
    · exact (isJudgement_ofInt _).exists_index h
    · split at h
      · exact (isJudgement_ofDouble _).exists_index h
      · cases h

end Position

lemma Format.wellFormed_of_parse {format : Format} {text : String} {node : Node}
    (h : format.parse text = .ok node) : node.WellFormed := by
  cases format with
  | json =>
    simp only [parse] at h
    split at h
    · rename_i hnode
      obtain rfl := Except.ok.inj h
      exact Node.wellFormed_of_parseJson? hnode
    · cases h
  | yaml =>
    simp only [parse] at h
    split at h
    · rename_i hnode
      obtain rfl := Except.ok.inj h
      exact Node.wellFormed_of_parseYaml? hnode
    · cases h

/-- A printed tree on the standard input is loaded. -/
lemma Node.WellFormed.loadOctets_compact {tree : Node} (h : tree.WellFormed)
    (hwhole : tree.IsWhole) (hdepth : tree.toJson.depth ≤ Json.Source.maxDepth) :
    loadOctets (Utf8.encode (String.ofList tree.toJson.compact)) = .ok tree := by
  have hread := h.parseJson?_compact hwhole hdepth
  simp [loadOctets, textOfOctets, Gzip.isMember_encode, Utf8.decode?_encode, parseUnnamed, hread]

lemma Node.wellFormed_of_parseUnnamed {text : String} {node : Node}
    (h : parseUnnamed text = .ok node) : node.WellFormed := by
  unfold parseUnnamed at h
  split at h
  · rename_i hnode
    obtain rfl := Except.ok.inj h
    exact wellFormed_of_parseJson? hnode
  · split at h
    · rename_i hnode
      obtain rfl := Except.ok.inj h
      exact wellFormed_of_parseYaml? hnode
    · cases h

/-- Whatever is loaded was read from a text, and so is well-formed. -/
lemma Intake.wellFormed_of_load {intake : Intake} {tree : Node} (h : intake.load = .ok tree) :
    tree.WellFormed := by
  cases intake with
  | input input =>
    cases input with
    | terminal => cases h
    | unreadable => cases h
    | octets octets =>
      simp only [load, loadOctets] at h
      split at h
      · exact Node.wellFormed_of_parseUnnamed h
      · cases h
  | file path item =>
    simp only [load, loadItem, parseFile] at h
    split at h
    · split at h
      · rename_i hnode
        obtain rfl := Except.ok.inj h
        exact Format.wellFormed_of_parse hnode
      · cases h
    · cases h

namespace Occurrence

variable {root parent child found : Occurrence}

lemma exists_mem_of_child? {index : ℕ} (h : parent.child? index = some child) :
    ∃ nodes, parent.node.children = some nodes ∧ child.node ∈ nodes := by
  obtain ⟨node, hnode, rfl⟩ := Option.map_eq_some_iff.1 h
  obtain ⟨nodes, hnodes, hnode⟩ := Option.bind_eq_some_iff.1 hnode
  exact ⟨nodes, hnodes, List.mem_of_getElem? hnode⟩

/-- What passes from every node to its children passes from the root to all that lies in the tree. -/
lemma of_descend? {Q : Node → Prop} (hchildren : ∀ node nodes child, Q node →
    node.children = some nodes → child ∈ nodes → Q child) {path : List ℕ} (hroot : Q root.node)
    (h : root.descend? path = some found) : Q found.node := by
  induction path generalizing root with
  | nil =>
    obtain rfl := Option.some.inj h
    exact hroot
  | cons index path ih =>
    obtain ⟨child, hchild, h⟩ := Option.bind_eq_some_iff.1 h
    obtain ⟨nodes, hnodes, hmember⟩ := exists_mem_of_child? hchild
    exact ih (hchildren root.node nodes child.node hroot hnodes hmember) h

/-- An addressed parent lies in the tree and can be searched. -/
lemma exists_descend?_of_parentAt {path : String} (h : root.parentAt path = .ok parent) :
    (∃ indices, root.descend? indices = some parent) ∧ parent.node.isParent = true := by
  unfold parentAt at h
  split at h
  · cases h
  · rename_i indices hindices
    split at h
    · cases h
    · rename_i found hfound
      split_ifs at h with hparent
      obtain rfl := Except.ok.inj h
      exact ⟨⟨indices, hfound⟩, hparent⟩

end Occurrence

/-! ## Answers -/

namespace Arguments

variable {arguments : Arguments} {settings : Settings} {intake : Intake} {tree : Node}

/-- Every stage of a run that can fail succeeds: `tree` is what is loaded, `parent` the node that
is addressed in it, `start` the index after which the search begins, and `format` that of the
text. -/
structure Answered (arguments : Arguments) (settings : Settings) (intake : Intake) (tree : Node)
    (parent : Occurrence) (start : ℕ) (format : Format) : Prop where
  load : intake.load = .ok tree
  address : (Occurrence.root tree 0).parentAt arguments.parent = .ok parent
  after : Position.parse arguments.after = .ok (.index start)
  tests : ∀ text ∈ arguments.tests, ∃ test, Test.parse text = .ok test
  format : Format.ofName (arguments.format.getD settings.outputFormat) = .ok format

/-- The children that are asked for: those beyond the start that pass one of the tests, or all of
those beyond the start if there is no test. -/
def Wants (arguments : Arguments) (start : ℕ) (parent child : Occurrence) (index : ℕ) : Prop :=
  start < index ∧
    (arguments.tests = [] ∨ ∃ text ∈ arguments.tests, ∃ test, Test.parse text = .ok test ∧
      test.passes child index parent = true)

/-- A search succeeds if the parent is found and the position and the tests can be read. -/
lemma search_eq_ok_iff {s : Search} :
    arguments.search tree = .ok s ↔
      ∃ parent start test, (Occurrence.root tree 0).parentAt arguments.parent = .ok parent ∧
        Position.parse arguments.after = .ok (.index start) ∧
        Test.parseAll arguments.tests = .ok test ∧
        ⟨parent.node.kind, start, parent.children.length, parent.matchesAfter start test⟩ = s := by
  unfold search
  cases hparent : (Occurrence.root tree 0).parentAt arguments.parent with
  | error e => simp
  | ok parent =>
    cases hposition : Position.parse arguments.after with
    | error e => simp
    | ok position =>
      obtain ⟨start, rfl⟩ := Position.exists_index_of_parse hposition
      cases htest : Test.parseAll arguments.tests with
      | error e => simp
      | ok test =>
        have hsearchable := (Occurrence.exists_descend?_of_parentAt hparent).2
        simp [SiblingQuery.search, hsearchable, Position.resolve, Except.mapError]

lemma render_eq_ok_iff {found : List Occurrence} {text : String} :
    arguments.render settings found = .ok text ↔
      ∃ format, Format.ofName (arguments.format.getD settings.outputFormat) = .ok format ∧
        Node.render (found.map (·.node)) format (settings.pretty && !arguments.compact) = text := by
  unfold render
  cases Format.ofName (arguments.format.getD settings.outputFormat) <;> simp

lemma answer_result_eq_ok_iff {text : String} :
    (arguments.answer settings intake).result = .ok text ↔
      ∃ tree s, intake.load = .ok tree ∧ arguments.search tree = .ok s ∧
        arguments.render settings s.found = .ok text := by
  unfold answer reply
  cases intake.load with
  | error e => simp
  | ok tree =>
    cases hsearch : arguments.search tree <;> simp [hsearch]

/-- The text of an answered run: what the search keeps, rendered. -/
lemma Answered.result {parent : Occurrence} {start : ℕ} {format : Format}
    (h : arguments.Answered settings intake tree parent start format) :
    ∃ test, Test.parseAll arguments.tests = .ok test ∧
      (arguments.answer settings intake).result =
        .ok (Node.render ((parent.matchesAfter start test).map (·.node)) format
          (settings.pretty && !arguments.compact)) := by
  obtain ⟨test, htest⟩ := Test.exists_parseAll_iff.2 h.tests
  have hsearch := search_eq_ok_iff.2 ⟨parent, start, test, h.address, h.after, htest, rfl⟩
  exact ⟨test, htest, answer_result_eq_ok_iff.2
    ⟨tree, _, h.load, hsearch, render_eq_ok_iff.2 ⟨format, h.format, rfl⟩⟩⟩

/-- There is a text to print exactly if every stage succeeds. -/
lemma exists_result_iff :
    (∃ text, (arguments.answer settings intake).result = .ok text) ↔
      ∃ tree parent start format,
        arguments.Answered settings intake tree parent start format := by
  constructor
  · rintro ⟨text, htext⟩
    obtain ⟨tree, s, hload, hsearch, hrender⟩ := answer_result_eq_ok_iff.1 htext
    obtain ⟨parent, start, test, haddress, hafter, htest, -⟩ := search_eq_ok_iff.1 hsearch
    obtain ⟨format, hformat, -⟩ := render_eq_ok_iff.1 hrender
    exact ⟨tree, parent, start, format, hload, haddress, hafter,
      Test.exists_parseAll_iff.1 ⟨test, htest⟩, hformat⟩
  · rintro ⟨tree, parent, start, format, h⟩
    obtain ⟨test, -, hresult⟩ := h.result
    exact ⟨_, hresult⟩

/-- What the search keeps is what is asked for. -/
lemma selects_wanted {parent : Occurrence} {start : ℕ} {test : Test}
    (htest : Test.parseAll arguments.tests = .ok test)
    (hcount : parent.children.length ≤ maxWord) :
    parent.Selects (arguments.Wants start parent) (parent.matchesAfter start test) := by
  refine (Occurrence.matchesAfter_selects hcount start test).congr fun child index _ => ?_
  rw [Wants, Test.passes_iff_of_parseAll htest]

end Arguments

/-! ## Runs -/

/-- A run that saves nothing prints the text of its answer, or fails for want of one. -/
lemma ending_run {line : List String} {arguments : Arguments}
    (hparse : Arguments.parse line = .ok arguments) (houtput : arguments.output = none)
    (around : Surroundings) (store : Store) :
    (run line around store).ending =
      match (arguments.answer around.settingsUsed
        (arguments.intake around.input store)).result with
      | .ok text => .printed text
      | .error e => .failed e := by
  simp only [run, runOn, hparse]
  cases (arguments.answer around.settingsUsed (arguments.intake around.input store)).result with
  | error failure => rfl
  | ok text => simp [Arguments.deliver, houtput, World.print, Medium.reliable, Ending.printed]

/-- A run that asks for a search and prints its answer.  Its exit status is zero exactly if the tree
can be loaded, the parent is found, the position and every test can be read, and the name of the
format, which the arguments have precedence in giving, is one.  If it then prints JSON, the text
reads back as the children that are asked for, each once and in their order, as long as their
numbers are integers and the text is not nested too deep to be read. -/
theorem run_query {line : List String} {arguments : Arguments}
    (hparse : Arguments.parse line = .ok arguments) (houtput : arguments.output = none)
    (around : Surroundings) (store : Store) :
    ((run line around store).ending.code = 0 ↔
      ∃ tree parent start format, arguments.Answered around.settingsUsed
        (arguments.intake around.input store) tree parent start format) ∧
    ∀ tree parent start, arguments.Answered around.settingsUsed
        (arguments.intake around.input store) tree parent start .json →
      parent.children.length ≤ maxWord →
      ∃ selected, parent.Selects (arguments.Wants start parent) selected ∧
        ((∀ child ∈ selected, child.node.IsWhole) →
          (Json.arr (Node.listToJson (selected.map (·.node)))).depth ≤ Json.Source.maxDepth →
          Node.parseJsonList? (run line around store).ending.output =
            some (selected.map (·.node))) := by
  have hending := ending_run hparse houtput around store
  constructor
  · rw [← Arguments.exists_result_iff, hending]
    cases (arguments.answer around.settingsUsed (arguments.intake around.input store)).result <;>
      simp [Ending.code, Ending.printed, Ending.failed, Stop.code]
  · intro tree parent start hanswered hcount
    obtain ⟨test, htest, hresult⟩ := hanswered.result
    have hselects : parent.Selects (arguments.Wants start parent)
        (parent.matchesAfter start test) := Arguments.selects_wanted htest hcount
    refine ⟨_, hselects, fun hwhole hdepth => ?_⟩
    -- what is selected lies in a loaded tree, so it is well-formed
    obtain ⟨⟨indices, hindices⟩, -⟩ := Occurrence.exists_descend?_of_parentAt hanswered.address
    have hparent : parent.node.WellFormed :=
      Occurrence.of_descend? (fun _ _ _ hnode hnodes hchild => hnode.child hnodes hchild)
        (Intake.wellFormed_of_load hanswered.load) hindices
    have hwell : ∀ node ∈ (parent.matchesAfter start test).map (·.node), node.WellFormed := by
      rw [List.forall_mem_map]
      intro child hchild
      obtain ⟨index, hindex, -⟩ := hselects.wanted_of_mem hchild
      obtain ⟨nodes, hnodes, hmember⟩ := Occurrence.exists_mem_of_child? hindex
      exact hparent.child hnodes hmember
    rw [hending, hresult]
    exact Node.parseJsonList?_render_of_wellFormed hwell (List.forall_mem_map.2 hwhole) hdepth _

/-- Of a tree on the standard input, the siblings of type `a` after the first, which is of that type
itself: the setting for YAML gives way to the argument for JSON. -/
theorem run_query_piped :
    let tree := Node.parent "root" [.leaf "a", .leaf "b", (Node.leaf "a").withField "n" (.ofNat 1)]
    let arguments : Arguments := ⟨none, "", "0", ["a"], some "json", true, none, 0⟩
    let line := ["-a0", "-ta", "-fjson", "--compact"]
    let around : Surroundings := ⟨Utf8.encode (String.ofList tree.toJson.compact), "/home",
      .content (Utf8.encode "output_format = \"yaml\""), none⟩
    Arguments.parse line = .ok arguments ∧ arguments.output = none ∧
      (run line around .empty).ending.code = 0 ∧
      Node.parseJsonList? (run line around .empty).ending.output =
        some [(Node.leaf "a").withField "n" (.ofNat 1)] := by
  intro tree arguments line around
  have hparse : Arguments.parse line = .ok arguments := by decide +kernel
  have hlast : ((Node.leaf "a").withField "n" (.ofNat 1)).IsWhole :=
    .mk (List.forall_mem_singleton.2 (Json.isWhole_ofNat (by decide)))
      (by rintro _ ⟨⟩) (by rintro _ ⟨⟩)
  have hwell : tree.WellFormed := by
    refine Node.wellFormed_parent "root" (List.forall_mem_cons.2 ⟨Node.wellFormed_leaf "a",
      List.forall_mem_cons.2 ⟨Node.wellFormed_leaf "b", List.forall_mem_singleton.2 ?_⟩⟩)
    exact (Node.wellFormed_leaf "a").withField "n" (.num _)
  have hwhole : tree.IsWhole := by
    refine Node.isWhole_parent "root" (List.forall_mem_cons.2 ⟨Node.isWhole_leaf "a", ?_⟩)
    exact List.forall_mem_cons.2 ⟨Node.isWhole_leaf "b", List.forall_mem_singleton.2 hlast⟩
  have hload : (arguments.intake around.input .empty).load = .ok tree :=
    hwell.loadOctets_compact hwhole (by decide)
  have hafter : Position.parse "0" = .ok (.index 0) := by rfl
  have htest : Test.parseAll ["a"] = .ok (.kind "a") := by rfl
  have hanswered : arguments.Answered around.settingsUsed (arguments.intake around.input .empty) tree
      (Occurrence.root tree 0) 0 .json :=
    { load := hload
      address := rfl
      after := hafter
      tests := List.forall_mem_singleton.2 ⟨.kind "a", rfl⟩
      format := by decide +kernel }
  have hcount : (Occurrence.root tree 0).children.length ≤ maxWord := by decide
  obtain ⟨hcode, hread⟩ := run_query hparse rfl around .empty
  obtain ⟨selected, hselects, hread⟩ := hread _ _ _ hanswered hcount
  have hexpected : (Occurrence.root tree 0).Selects (arguments.Wants 0 (Occurrence.root tree 0))
      ((Occurrence.root tree 0).matchesAfter 0 (.kind "a")) :=
    Arguments.selects_wanted htest hcount
  have hselected : selected = [⟨⟨0, [2]⟩, (Node.leaf "a").withField "n" (.ofNat 1)⟩] :=
    hselects.unique hexpected
  subst hselected
  exact ⟨hparse, rfl, hcode.2 ⟨_, _, _, _, hanswered⟩,
    hread (List.forall_mem_singleton.2 hlast) (by decide)⟩

end SiblingQuery
