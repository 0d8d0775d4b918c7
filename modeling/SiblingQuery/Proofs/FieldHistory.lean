import SiblingQuery.Proofs.SerialisedForm
import SiblingQuery.Proofs.Shape
import SiblingQuery.Proofs.YamlMeaning

/-!
# Fields and how they were set

Whatever a node went through, its fields are what setting them one after the other leaves: each key
that is not reserved once, in the order in which the keys were first set, with the value that it was
given last.

What was set is a `History`: for a node and each node below it, the settings in their order.  A
builder adds to the history of the node that it is applied to, and puts the histories of the
children that it is given below it.  The history of a node that is loaded is in its text: the
members of the object in its place (`Source.settingsAt`), or the entries of the mapping
(`Document.settingsAt`).  `Node.Obtained` is every way to come by a node, with the history that goes
with it.

`Node.Follows` is the invariant.  A node follows a history if its own fields do and its children
follow what is below (`follows_of_children`); each case of `Obtained`, and either reader, comes down
to these two.
-/

namespace SiblingQuery

open Json

/-! ## Histories -/

/-- What was set in the fields of a node, and of every node that child indices lead to. -/
abbrev History := List ℕ → List (String × Json)

namespace History

/-- Settings of a node, and a history for each of its children. -/
def join (settings : List (String × Json)) (children : ℕ → History) : History
  | [] => settings
  | index :: path => children index path

/-- The history of a child. -/
def below (history : History) (index : ℕ) : History := fun path => history (index :: path)

end History

namespace Node

/-- The fields that settings leave: each key that is not reserved where it was first set, with its
last value. -/
def settle (settings : List (String × Json)) : List (String × Json) :=
  Members.settled (settings.filter fun setting => !isReserved setting.1)

/-- The fields are what the settings leave. -/
structure AreLeftBy (fields settings : List (String × Json)) : Prop where
  keys : Members.keys fields =
    ((Members.keys settings).filter fun key => !isReserved key).eraseDups
  last : ∀ key, isReserved key = false →
    Members.get? key fields = Members.get? key settings.reverse

/-- The child with the given index. -/
def child? (node : Node) (index : ℕ) : Option Node := node.children.bind (·[index]?)

/-- The node that child indices lead to. -/
def descendant? (node : Node) : List ℕ → Option Node
  | [] => some node
  | index :: path => (node.child? index).bind (descendant? · path)

/-- Every node from this one down has the fields that its settings leave. -/
def Follows (node : Node) (history : History) : Prop :=
  ∀ path found, node.descendant? path = some found → found.fields = settle (history path)

section Settling

variable {node : Node} {settings : List (String × Json)} {history : History}

lemma areLeftBy_settle (settings : List (String × Json)) :
    AreLeftBy (settle settings) settings where
  keys := by
    rw [settle, Members.keys_settled, Members.keys, Members.keys, List.filter_map]
    rfl
  last := by
    intro key hkey
    rw [settle, Members.get?_settled, ← List.filter_reverse]
    exact Members.get?_filter (fun key => !isReserved key) (by rw [hkey]; rfl)

/-- Setting one field more. -/
lemma settle_append_singleton (settings : List (String × Json)) (key : String) (value : Json) :
    settle (settings ++ [(key, value)]) =
      if isReserved key then settle settings else Members.set key value (settle settings) := by
  rw [settle, List.filter_append]
  cases hkey : isReserved key with
  | true => simp [hkey, settle]
  | false =>
    rw [List.filter_singleton]
    simp [hkey, Members.settled_append_singleton, settle]

/-- A node follows a history if its own fields do and all its children do. -/
lemma follows_of_children (hself : node.fields = settle (history []))
    (hchildren : ∀ index child, node.child? index = some child →
      child.Follows (history.below index)) : node.Follows history := by
  intro path found hfound
  cases path with
  | nil =>
    obtain rfl : node = found := Option.some.inj hfound
    exact hself
  | cons index path =>
    obtain ⟨child, hchild, hrest⟩ := Option.bind_eq_some_iff.1 hfound
    exact hchildren index child hchild path found hrest

lemma Follows.fields (h : node.Follows history) : node.fields = settle (history []) := h [] node rfl

lemma Follows.child (h : node.Follows history) {index : ℕ} {child : Node}
    (hchild : node.child? index = some child) : child.Follows (history.below index) := by
  intro path found hfound
  apply h (index :: path) found
  rw [descendant?, hchild]
  exact hfound

end Settling

/-! ## The settings of a document -/

section Entries

variable {M : Type} {members : List M} {entries : List Entry}
  {setting? : M → Option (String × Json)}

/-- What an entry makes of a setting: it sets the field, or it is no field and the key is
reserved. -/
def Entry.Makes (setting? : Option (String × Json)) (entry : Entry) : Prop :=
  (∃ key value, isReserved key = false ∧ setting? = some (key, value) ∧ entry = .field key value) ∨
    ((∀ setting ∈ setting?, isReserved setting.1 = true) ∧ entry.field? = none)

/-- The fields among the entries of an object are its settings, up to those of reserved keys. -/
lemma filterMap_field?_eq
    (h : List.Forall₂ (fun member entry => Entry.Makes (setting? member) entry) members entries) :
    entries.filterMap Entry.field? =
      (members.filterMap setting?).filter fun setting => !isReserved setting.1 := by
  induction h with
  | nil => rfl
  | @cons member entry members entries hentry _ ih =>
    rcases hentry with ⟨key, value, hkey, hsetting, rfl⟩ | ⟨hreserved, hnone⟩
    · simp [Entry.field?, hsetting, hkey, ih]
    · cases hsetting : setting? member with
      | none => simp [hnone, hsetting, ih]
      | some setting => simp [hnone, hsetting, hreserved setting hsetting, ih]

/-- An entry with a reserved key is no field. -/
lemma Entry.makes_of_isReserved {answer : Option (String × Json)} {key : String} {entry : Entry}
    (hkey : isReserved key = true) (hsame : ∀ setting ∈ answer, setting.1 = key)
    (hnone : entry.field? = none) : Entry.Makes answer entry := by
  refine .inr ⟨fun setting hsetting => ?_, hnone⟩
  rw [hsame setting hsetting]
  exact hkey

/-- The fields of the node that entries describe. -/
lemma fields_of_ofEntries? {node : Node} (h : ofEntries? entries = some node) :
    node.fields = Members.settled (entries.filterMap Entry.field?) := by
  obtain ⟨_, _, _, -, -, -, rfl⟩ := ofEntries?_eq_some_iff.1 h
  rfl

/-- A child of the node that entries describe is in the one list that there is. -/
lemma exists_list_of_ofEntries? {β : Type} {P : β → Option (List Node) → Prop} {lists : List β}
    {node child : Node} {index : ℕ} (h : ofEntries? entries = some node)
    (hlists : List.Forall₂ P lists (entries.filterMap Entry.children?))
    (hchild : node.child? index = some child) :
    ∃ list nodes, lists = [list] ∧ P list (some nodes) ∧ nodes[index]? = some child := by
  obtain ⟨nodes, hnodes, hindex⟩ := Option.bind_eq_some_iff.1 hchild
  obtain ⟨_, answer, _, -, hanswer, -, rfl⟩ := ofEntries?_eq_some_iff.1 h
  obtain rfl : answer = some (some nodes) := Option.join_eq_some_iff.1 hnodes
  obtain ⟨list, hlist, hP⟩ := Members.exists_singleton_of_only? hlists hanswer
  exact ⟨list, nodes, hlist, hP, hindex⟩

end Entries

end Node

/-! ### JSON -/

namespace Json.Source

/-- What a document sets in the fields of a node: the members of the object in its place that have a
value, in the order of the text. -/
def settingsAt : Source → History
  | .object members, [] => members.filterMap (memberValue? maxDepth)
  | .object members, index :: path =>
    match under "children" members with
    | [.array items] =>
      match items[index]? with
      | some item => settingsAt item path
      | none => []
    | _ => []
  | _, _ => []

/-- A member makes of its setting what it says. -/
lemma makes_of_entryOfSource? {d : ℕ} (hd : d ≤ maxDepth) {member : Quoted × Source}
    {entry : Node.Entry} (h : Node.entryOfSource? d member = some entry) :
    Node.Entry.Makes (memberValue? maxDepth member) entry := by
  have hsame {key : String} (hkey : member.1.text? = some key) :
      ∀ setting ∈ memberValue? maxDepth member, setting.1 = key := by
    intro setting hsetting
    have hname := (memberValue?_eq_some_iff.1 hsetting).1
    exact Option.some.inj (hname.symm.trans hkey)
  cases Node.says_of_entryOfSource? h with
  | kind hkey => exact Node.Entry.makes_of_isReserved rfl (hsame hkey) rfl
  | children hkey => exact Node.Entry.makes_of_isReserved rfl (hsame hkey) rfl
  | position hkey => exact Node.Entry.makes_of_isReserved rfl (hsame hkey) rfl
  | @field key value hkey hfree hvalue =>
    have hsetting : memberValue? maxDepth member = some (key, value) :=
      memberValue?_eq_some_iff.2 ⟨hkey, value?_mono hvalue hd⟩
    exact .inl ⟨key, value, hfree, hsetting, rfl⟩

/-- A node that is read from a document follows its settings, and so do the nodes of a children
list. -/
lemma follows_of_source (source : Source) :
    (∀ {d : ℕ} {node : Node}, d ≤ maxDepth → Node.ofSource? d source = some node →
      node.Follows source.settingsAt) ∧
    ∀ {d : ℕ} {nodes : List Node}, d ≤ maxDepth →
      Node.childrenOfSource? d source = some (some nodes) →
        ∃ items, source = .array items ∧ ∀ (index : ℕ) (child : Node), nodes[index]? = some child →
          ∃ item, items[index]? = some item ∧ child.Follows item.settingsAt := by
  induction source with
  | null => exact ⟨nofun, nofun⟩
  | bool b => exact ⟨nofun, nofun⟩
  | number n => exact ⟨nofun, nofun⟩
  | string q => exact ⟨nofun, nofun⟩
  | array items ih =>
    refine ⟨nofun, fun {d nodes} hd h => ⟨items, rfl, ?_⟩⟩
    obtain ⟨d, found, rfl, hfound, hsame⟩ := Node.childrenOfSource?_array_eq_some_iff.1 h
    obtain rfl := Option.some.inj hsame
    intro index child hchild
    obtain ⟨item, hitem, hread⟩ := exists_getElem?_of_forall₂ hfound hchild
    exact ⟨item, hitem, (ih item (List.mem_of_getElem? hitem)).1 (by omega) hread⟩
  | object members ih =>
    refine ⟨fun {d node} hd h => ?_, nofun⟩
    obtain ⟨d, entries, rfl, hentries, hnode⟩ := Node.ofSource?_object_eq_some_iff.1 h
    obtain ⟨-, hlists, -, -⟩ := forall₂_nodeEntries hentries
    apply Node.follows_of_children
    · rw [Node.fields_of_ofEntries? hnode, Node.filterMap_field?_eq (hentries.imp fun _ _ h =>
        makes_of_entryOfSource? (by omega) h)]
      rfl
    · intro index child hchild
      obtain ⟨list, nodes, hunder, hlist, hindex⟩ :=
        Node.exists_list_of_ofEntries? hnode hlists hchild
      have hmem : list ∈ under "children" members := by
        rw [hunder]
        exact List.mem_singleton_self list
      obtain ⟨member, hmember, -, rfl⟩ := mem_under_iff.1 hmem
      obtain ⟨items, hitems, hfollows⟩ := (ih member hmember).2 (by omega) hlist
      obtain ⟨item, hitem, hrest⟩ := hfollows index child hindex
      -- the only children list of the object is the one whose item the child was read from
      have hbelow : (object members).settingsAt.below index = item.settingsAt := by
        funext path
        rw [hitems] at hunder
        simp only [History.below, settingsAt, hunder, hitem]
      rw [hbelow]
      exact hrest

end Json.Source

/-! ### YAML -/

namespace Yaml.Document

variable (document : Document)

/-- The entries of the mapping that stands in a place. -/
def entriesAt (tree : Tree ℕ) : List (Tree ℕ × Tree ℕ) :=
  ((document.target? tree).bind Tree.entries?).getD []

/-- The items of the sequence that stands in a place. -/
def itemsAt (tree : Tree ℕ) : List (Tree ℕ) :=
  ((document.target? tree).bind Tree.items?).getD []

/-- What stands under a key of the mapping in a place. -/
def under (key : String) (tree : Tree ℕ) : List (Tree ℕ) :=
  (document.entriesAt tree).filterMap fun entry =>
    if Tree.text? document entry.1 = some key then some entry.2 else none

/-- The setting that an entry of a mapping is. -/
def settingOf? (entry : Tree ℕ × Tree ℕ) : Option (String × Json) :=
  (Tree.text? document entry.1).bind fun key =>
    (Tree.value? document maxDepth entry.2).map fun value => (key, value)

/-- What a document sets in the fields of a node: the entries of the mapping in its place that have
a value, in the order of the text. -/
def settingsAt : Tree ℕ → History
  | tree, [] => (document.entriesAt tree).filterMap document.settingOf?
  | tree, index :: path =>
    match document.under "children" tree with
    | [list] =>
      match (document.itemsAt list)[index]? with
      | some item => settingsAt item path
      | none => []
    | _ => []

variable {document}

lemma settingOf?_eq_some_iff {entry : Tree ℕ × Tree ℕ} {setting : String × Json} :
    document.settingOf? entry = some setting ↔ Tree.text? document entry.1 = some setting.1 ∧
      Tree.value? document maxDepth entry.2 = some setting.2 := by
  obtain ⟨key, value⟩ := setting
  simp only [settingOf?, Option.bind_eq_some_iff, Option.map_eq_some_iff, Prod.mk.injEq]
  constructor
  · rintro ⟨found, hkey, content, hvalue, rfl, rfl⟩
    exact ⟨hkey, hvalue⟩
  · rintro ⟨hkey, hvalue⟩
    exact ⟨key, hkey, value, hvalue, rfl, rfl⟩

lemma entriesAt_eq {tree target : Tree ℕ} {entries : List (Tree ℕ × Tree ℕ)}
    (htarget : document.target? tree = some target)
    (hentries : Tree.entries? target = some entries) : document.entriesAt tree = entries := by
  rw [entriesAt, htarget, Option.bind_some, hentries, Option.getD_some]

lemma itemsAt_eq {tree target : Tree ℕ} (htarget : document.target? tree = some target) :
    document.itemsAt tree = (Tree.items? target).getD [] := by
  rw [itemsAt, htarget, Option.bind_some]

end Yaml.Document

namespace Node

open Yaml Yaml.Reading

variable {document : Document} {IsList : Yaml.Tree ℕ → List Node → Prop} {depth : ℕ}
  {entry : Yaml.Tree ℕ × Yaml.Tree ℕ}

/-- What an entry of a mapping says about a node; `IsList` holds of the lists of children. -/
inductive SaysInYaml (document : Document) (IsList : Yaml.Tree ℕ → List Node → Prop)
    (entry : Yaml.Tree ℕ × Yaml.Tree ℕ) : Entry → Prop
  | kind {name : String} (hkey : Tree.text? document entry.1 = some "type") :
      SaysInYaml document IsList entry (.kind name)
  | children {answer : Option (List Node)} (hkey : Tree.text? document entry.1 = some "children")
      (h : ∀ nodes ∈ answer, ∃ list, document.target? entry.2 = some list ∧ IsList list nodes) :
      SaysInYaml document IsList entry (.children answer)
  | position {answer : Option Span} (hkey : Tree.text? document entry.1 = some "position") :
      SaysInYaml document IsList entry (.position answer)
  | field {key : String} {value : Json} (hkey : Tree.text? document entry.1 = some key)
      (hfree : isReserved key = false)
      (h : Tree.value? document maxDepth entry.2 = some value) :
      SaysInYaml document IsList entry (.field key value)

lemma yields_saysInYaml (hdepth : depth ≤ maxDepth)
    (hlist : ∀ list, Yields (listOfTree document depth list) (IsList list))
    (entry : Yaml.Tree ℕ × Yaml.Tree ℕ) :
    Yields (entryOfTree document depth entry) (SaysInYaml document IsList entry) := by
  refine (Tree.yields_text entry.1).bind fun key hkey => ?_
  split_ifs with htype hchildren hposition
  · subst htype
    exact yields_bind fun name => yields_pure (.kind hkey)
  · subst hchildren
    refine (Tree.yields_optional_target hlist entry.2).bind fun answer hanswer => ?_
    exact yields_pure (.children hkey hanswer)
  · subst hposition
    exact yields_bind fun answer => yields_pure (.position hkey)
  · have hfree := isReserved_eq_false_iff.2 ⟨htype, hchildren, hposition⟩
    refine (Tree.yields_value? depth entry.2).bind fun value hvalue => yields_pure ?_
    exact .field hkey hfree (Tree.value?_mono hvalue hdepth)

/-- An entry makes of its setting what it says. -/
lemma SaysInYaml.makes {answer : Entry} (h : SaysInYaml document IsList entry answer) :
    Entry.Makes (document.settingOf? entry) answer := by
  have hsame {key : String} (hkey : Tree.text? document entry.1 = some key) :
      ∀ setting ∈ document.settingOf? entry, setting.1 = key := by
    intro setting hsetting
    have hname := (Document.settingOf?_eq_some_iff.1 hsetting).1
    exact Option.some.inj (hname.symm.trans hkey)
  cases h with
  | kind hkey => exact Entry.makes_of_isReserved rfl (hsame hkey) rfl
  | children hkey => exact Entry.makes_of_isReserved rfl (hsame hkey) rfl
  | position hkey => exact Entry.makes_of_isReserved rfl (hsame hkey) rfl
  | @field key value hkey hfree hvalue =>
    have hsetting : document.settingOf? entry = some (key, value) :=
      Document.settingOf?_eq_some_iff.2 ⟨hkey, hvalue⟩
    exact .inl ⟨key, value, hfree, hsetting, rfl⟩

/-- The lists under `children` and the entries of that kind correspond one to one. -/
lemma forall₂_under_children {tree : Yaml.Tree ℕ} {entries : List Entry}
    (h : List.Forall₂ (SaysInYaml document IsList) (document.entriesAt tree) entries) :
    List.Forall₂ (fun list answer => ∀ nodes ∈ answer, ∃ target,
        document.target? list = some target ∧ IsList target nodes)
      (document.under "children" tree) (entries.filterMap Entry.children?) := by
  refine forall₂_filterMap h fun entry _ answer hanswer => ?_
  cases hanswer with
  | kind hkey => exact .inr ⟨by simp [hkey], rfl⟩
  | @children answer hkey hnodes => exact .inl ⟨entry.2, answer, by simp [hkey], rfl, hnodes⟩
  | position hkey => exact .inr ⟨by simp [hkey], rfl⟩
  | @field key value hkey hfree =>
    have hne : key ≠ "children" := by
      rintro rfl
      cases hfree
    exact .inr ⟨by simp [hkey, hne], rfl⟩

/-- The nodes follow the settings of the items of a list. -/
def ListFollows (document : Document) (list : Yaml.Tree ℕ) (nodes : List Node) : Prop :=
  ∀ (index : ℕ) (child : Node), nodes[index]? = some child →
    ∃ item, ((Tree.items? list).getD [])[index]? = some item ∧
      child.Follows (document.settingsAt item)

/-- A node whose entries are those of a mapping follows the settings of the mapping. -/
lemma follows_of_saysInYaml {tree : Yaml.Tree ℕ} {entries : List Entry} {node : Node}
    (h : List.Forall₂ (SaysInYaml document (ListFollows document)) (document.entriesAt tree)
      entries) (hnode : ofEntries? entries = some node) :
    node.Follows (document.settingsAt tree) := by
  apply follows_of_children
  · rw [fields_of_ofEntries? hnode, filterMap_field?_eq (h.imp fun _ _ => SaysInYaml.makes)]
    rfl
  · intro index child hchild
    obtain ⟨list, nodes, hunder, hlist, hindex⟩ :=
      exists_list_of_ofEntries? hnode (forall₂_under_children h) hchild
    obtain ⟨target, htarget, hitems⟩ := hlist nodes rfl
    obtain ⟨item, hitem, hfollows⟩ := hitems index child hindex
    have hbelow : (document.settingsAt tree).below index = document.settingsAt item := by
      funext path
      rw [← Document.itemsAt_eq htarget] at hitem
      simp only [History.below, Document.settingsAt, hunder, hitem]
    rw [hbelow]
    exact hfollows

/-- The nodes of a list follow the settings of the items if that holds for every node that is read
where no more depth is left. -/
lemma yields_listFollows
    (h : ∀ d < depth, ∀ tree, Yields (ofTree document d tree) fun node =>
      node.Follows (document.settingsAt tree)) (list : Yaml.Tree ℕ) :
    Yields (listOfTree document depth list) (ListFollows document list) := by
  cases depth with
  | zero =>
    simp only [listOfTree]
    split_ifs
    · refine yields_pure fun index child hchild => ?_
      rw [List.getElem?_nil] at hchild
      cases hchild
    · exact yields_refuse
  | succ depth =>
    refine (Tree.yields_items list).bind fun items hitems => ?_
    have hread := yields_mapM_forall₂ fun (item : Yaml.Tree ℕ) (_ : item ∈ items) =>
      h depth (by omega) item
    intro left rest nodes hnodes index child hchild
    rw [hitems, Option.getD_some]
    exact exists_getElem?_of_forall₂ (hread left rest nodes hnodes) hchild

/-- A node that is read from a document follows its settings. -/
lemma yields_follows (hdepth : depth ≤ maxDepth) (tree : Yaml.Tree ℕ) :
    Yields (ofTree document depth tree) fun node => node.Follows (document.settingsAt tree) := by
  -- an alias may stand for a tree around it: not the tree gets smaller, but the depth that is left
  induction depth using Nat.strongRecOn generalizing tree with
  | ind depth ih =>
    cases depth with
    | zero =>
      rw [ofTree_zero]
      refine (Tree.yields_target tree).bind fun target htarget => ?_
      split_ifs with hvoid
      · have hentries : document.entriesAt tree = [] :=
          Document.entriesAt_eq htarget (Tree.entries?_of_isVoid hvoid)
        refine yields_pure (follows_of_children ?_ fun index child hchild => ?_)
        · rw [Document.settingsAt, hentries]
          rfl
        · cases hchild
      · exact yields_refuse
    | succ depth =>
      have hlist (list : Yaml.Tree ℕ) :
          Yields (listOfTree document depth list) (ListFollows document list) :=
        yields_listFollows (fun d hd tree => ih d (by omega) (by omega) tree) list
      rw [ofTree_succ]
      refine (Tree.yields_target tree).bind fun target htarget => ?_
      refine (Tree.yields_entries target).bind fun members hmembers => ?_
      have hentry (entry : Yaml.Tree ℕ × Yaml.Tree ℕ) : Yields (entryOfTree document depth entry)
          (SaysInYaml document (ListFollows document) entry) :=
        yields_saysInYaml (by omega) hlist entry
      refine (yields_mapM_forall₂ fun entry _ => hentry entry).bind fun entries hentries => ?_
      refine yields_ofOption fun node hnode => follows_of_saysInYaml ?_ hnode
      rw [Document.entriesAt_eq htarget hmembers]
      exact hentries

end Node

/-! ## Every way to come by a node -/

/-- The document that a text holds. -/
def Yaml.Document.ofText? (text : String) : Option Yaml.Document :=
  ((Yaml.Token.scan text.toList).bind Yaml.Tree.ofTokens?).bind Yaml.Document.ofNamed?

namespace History

/-- Nothing was set. -/
def empty : History := fun _ => []

/-- What a JSON text sets in the node that it describes. -/
def ofJson (text : String) : History :=
  match Source.read text.toList with
  | some source => source.settingsAt
  | none => empty

/-- What a YAML text sets in the node that it describes. -/
def ofYaml (text : String) : History :=
  match Yaml.Document.ofText? text with
  | some document => document.settingsAt document.root
  | none => empty

end History

namespace Node

/-- The nodes that can be read from a text, found in another node, or built, with what was set in
them.  The keys in a history are as they were given: a reserved key that was to be set is there, and
so is a key that was set before.  The values that are set are normal: as in every value, the objects
in them are sorted by key. -/
inductive Obtained : Node → History → Prop
  | json {text : String} {node : Node} (h : parseJson? text = some node) :
      Obtained node (.ofJson text)
  | yaml {text : String} {node : Node} (h : parseYaml? text = some node) :
      Obtained node (.ofYaml text)
  | child {node child : Node} {history : History} {index : ℕ} (h : Obtained node history)
      (hchild : node.child? index = some child) : Obtained child (history.below index)
  | leaf (kind : String) : Obtained (leaf kind) .empty
  | parent (kind : String) {children : List Node} {histories : ℕ → History}
      (h : ∀ index child, children[index]? = some child → Obtained child (histories index)) :
      Obtained (parent kind children) (.join [] histories)
  | literal (kind value : String) :
      Obtained (literal kind value) (.join [("value", .str value)] fun _ => .empty)
  | withField {node : Node} {history : History} (h : Obtained node history) (key : String)
      {value : Json} (hvalue : value.IsNormal) :
      Obtained (node.withField key value) (.join (history [] ++ [(key, value)]) history.below)
  | withPosition {node : Node} {history : History} (h : Obtained node history) {span : Span}
      (hspan : span.IsNormal) : Obtained (node.withPosition span) history
  | withChildren {node : Node} {history : History} (h : Obtained node history)
      {children : Option (List Node)} {histories : ℕ → History}
      (hchildren : ∀ nodes ∈ children, ∀ index child, nodes[index]? = some child →
        Obtained child (histories index)) :
      Obtained (node.withChildren children) (.join (history []) histories)

section Obtained

variable {node child found : Node} {history : History}

lemma mem_of_child? {index : ℕ} (h : node.child? index = some child) :
    ∃ nodes, node.children = some nodes ∧ child ∈ nodes := by
  obtain ⟨nodes, hnodes, hindex⟩ := Option.bind_eq_some_iff.1 h
  exact ⟨nodes, hnodes, List.mem_of_getElem? hindex⟩

lemma WellFormedWith.child? {P : Span → Prop} (h : node.WellFormedWith P) {index : ℕ}
    (hchild : node.child? index = some child) : child.WellFormedWith P := by
  obtain ⟨nodes, hnodes, hmember⟩ := mem_of_child? hchild
  exact h.child hnodes hmember

lemma WellFormedWith.descendant? {P : Span → Prop} (h : node.WellFormedWith P) {path : List ℕ}
    (hfound : node.descendant? path = some found) : found.WellFormedWith P := by
  induction path generalizing node with
  | nil =>
    obtain rfl : node = found := Option.some.inj hfound
    exact h
  | cons index path ih =>
    obtain ⟨child, hchild, hrest⟩ := Option.bind_eq_some_iff.1 hfound
    exact ih (h.child? hchild) hrest

lemma Obtained.obtainable (h : node.Obtained history) : node.Obtainable := by
  have hmem {nodes : List Node} (hall : ∀ (index : ℕ) child, nodes[index]? = some child →
      child.Obtainable) : ∀ child ∈ nodes, child.Obtainable := by
    intro child hchild
    obtain ⟨index, hindex⟩ := List.mem_iff_getElem?.1 hchild
    exact hall index child hindex
  induction h with
  | json h => exact .json h
  | yaml h => exact .yaml h
  | child _ hchild ih =>
    obtain ⟨nodes, hnodes, hmember⟩ := mem_of_child? hchild
    exact ih.child hnodes hmember
  | leaf kind => exact .leaf kind
  | parent kind _ ih => exact .parent kind (hmem ih)
  | literal kind value => exact .literal kind value
  | withField _ key hvalue ih => exact ih.withField key hvalue
  | withPosition _ hspan ih => exact ih.withPosition hspan
  | withChildren _ _ ih ihchildren =>
    exact ih.withChildren fun nodes hnodes => hmem (ihchildren nodes hnodes)

lemma follows_of_parseJson? {text : String} (h : parseJson? text = some node) :
    node.Follows (.ofJson text) := by
  obtain ⟨source, hread, hnode⟩ := Option.bind_eq_some_iff.1 h
  rw [History.ofJson, hread]
  exact (Source.follows_of_source source).1 le_rfl hnode

lemma follows_of_parseYaml? {text : String} (h : parseYaml? text = some node) :
    node.Follows (.ofYaml text) := by
  unfold parseYaml? readDocument? at h
  split at h
  case h_1 => cases h
  case h_2 named hnamed =>
    split at h
    case h_1 => cases h
    case h_2 document hdocument =>
      obtain ⟨⟨answer, rest⟩, hanswer, rfl⟩ := Option.map_eq_some_iff.1 h
      have htext : Yaml.Document.ofText? text = some document := by
        rw [Yaml.Document.ofText?, hnamed]
        exact hdocument
      rw [History.ofYaml, htext]
      exact yields_follows le_rfl document.root _ _ _ hanswer

/-- Setting a field leaves the children alone. -/
@[simp]
lemma children_withField (node : Node) (key : String) (value : Json) :
    (node.withField key value).children = node.children := by
  unfold Node.withField
  split_ifs <;> rfl

/-- Setting a field adds to what was set before. -/
lemma Follows.withField (h : node.Follows history) (key : String) (value : Json) :
    (node.withField key value).Follows (.join (history [] ++ [(key, value)]) history.below) := by
  apply follows_of_children
  · rw [History.join, settle_append_singleton, ← h.fields]
    unfold Node.withField
    split_ifs <;> rfl
  · intro index child hchild
    rw [child?, children_withField] at hchild
    exact h.child hchild

/-- Whatever a node went through, it follows its history. -/
lemma Obtained.follows (h : node.Obtained history) : node.Follows history := by
  induction h with
  | json h => exact follows_of_parseJson? h
  | yaml h => exact follows_of_parseYaml? h
  | child _ hchild ih => exact ih.child hchild
  | leaf kind => exact follows_of_children rfl nofun
  | parent kind _ ih => exact follows_of_children rfl ih
  | literal kind value => exact follows_of_children rfl nofun
  | withField _ key _ ih => exact ih.withField key _
  | withPosition _ _ ih =>
    exact follows_of_children ih.fields fun index child hchild => ih.child hchild
  | withChildren _ _ ih ihchildren =>
    refine follows_of_children ih.fields fun index child hchild => ?_
    obtain ⟨nodes, hnodes, hindex⟩ := Option.bind_eq_some_iff.1 hchild
    exact ihchildren nodes hnodes index child hindex

/-- However a node was obtained, and wherever below it one looks: no reserved key is a field, no key
stands twice, the keys stand in the order in which they were first set, and each has the value that
was set last.  So the printed node has distinct keys, the type first, then the fields in that order,
then the children and the position where there are any.  The keys of the printed position are
distinct exactly if no extra key is one that the ends are printed under, which is so with every
position that was read from a text. -/
theorem fields_of_obtained (h : node.Obtained history) {path : List ℕ}
    (hfound : node.descendant? path = some found) :
    (∀ key, isReserved key = true → key ∉ Members.keys found.fields) ∧
    (Members.keys found.fields).Nodup ∧ AreLeftBy found.fields (history path) ∧
    (∃ members, found.toJson = .obj members ∧ (Members.keys members).Nodup ∧
      Members.keys members = "type" :: (Members.keys found.fields ++
        ((if found.children.isSome then ["children"] else []) ++
          if found.position.isSome then ["position"] else []))) ∧
    ∀ span ∈ found.position, ∃ members, span.toJson = .obj members ∧
      ((Members.keys members).Nodup ↔ span.HasFreeKeys) ∧
      ∀ text, parseJson? text = some node ∨ parseYaml? text = some node → span.HasFreeKeys := by
  have hwell : found.WellFormedWith Span.IsNormal := h.obtainable.wellFormedWith.descendant? hfound
  refine ⟨fun key hkey => hwell.not_mem_keys hkey, hwell.nodup_keys, ?_, ?_, ?_⟩
  · rw [h.follows path found hfound]
    exact areLeftBy_settle (history path)
  · exact ⟨found.members, toJson_eq found, hwell.nodup_keys_members, keys_members found⟩
  · intro span hspan
    refine ⟨span.members, span.toJson_eq, (hwell.span hspan).nodup_keys_members_iff, ?_⟩
    intro text htext
    have hloaded : node.WellFormed := htext.elim wellFormed_of_parseJson? wellFormed_of_parseYaml?
    exact ((hloaded.descendant? hfound).span hspan).free

/-- An item is taken out of a loaded tree, in whose text a key stands twice.  In it a reserved key
and a key that it already has are set, and it is put into a list. -/
theorem fields_of_obtained_edited :
    let text := "\x7b\"children\":[\x7b\"depth\":\"1\",\"lang\":\"de\",\"depth\":\"2\"\x7d]\x7d"
    let span : Span := ⟨⟨1, 1, none⟩, ⟨1, 4, some 3⟩, []⟩
    ∃ root item, parseJson? text = some root ∧ root.child? 0 = some item ∧
      let edited :=
        ((item.withField "children" .null).withField "lang" (.str "fr")).withPosition span
      let list := (parent "list" [edited]).withField "ordered" (.bool true)
      list.descendant? [0] = some edited ∧ Members.keys edited.fields = ["depth", "lang"] ∧
        (Members.get? "depth" edited.fields).bind Json.string? = some "2" ∧
        (Members.get? "lang" edited.fields).bind Json.string? = some "fr" ∧
        ∃ members, edited.toJson = .obj members ∧ (Members.keys members).Nodup ∧
          Members.keys members = ["type", "depth", "lang", "position"] := by
  intro text span
  obtain ⟨root, hroot, hleaf⟩ : ∃ root, parseJson? text = some root ∧
      (root.child? 0).any (·.children.isNone) = true :=
    (Option.any_eq_true _ _).1 (by decide +kernel)
  obtain ⟨item, hitem, hnone⟩ := (Option.any_eq_true _ _).1 hleaf
  refine ⟨root, item, hroot, hitem, ?_⟩
  intro edited list
  have hspan : span.IsNormal :=
    ⟨⟨by decide, by decide, nofun⟩, ⟨by decide, by decide, by decide⟩, by decide, nofun⟩
  -- the steps of the edit, from the loaded item on
  have hedited := ((((Obtained.json hroot).child hitem).withField "children" .null).withField "lang"
    (.str "fr")).withPosition hspan
  have hlist := (Obtained.parent "list" fun index child (h : [edited][index]? = some child) => by
    rw [List.mem_singleton.1 (List.mem_of_getElem? h)]
    exact hedited).withField "ordered" (.bool true)
  obtain ⟨-, -, hleft, ⟨members, hmembers, hnodup, hkeys⟩, -⟩ :=
    fields_of_obtained hlist (rfl : list.descendant? [0] = some edited)
  have hfields : Members.keys edited.fields = ["depth", "lang"] := by
    rw [hleft.keys]
    decide +kernel
  refine ⟨rfl, hfields, ?_, ?_, members, hmembers, hnodup, ?_⟩
  · rw [hleft.last "depth" rfl]
    decide +kernel
  · rw [hleft.last "lang" rfl]
    decide +kernel
  · have hchildren : edited.children = none := by
      have hsame : edited.children = item.children := by simp [edited, withPosition]
      rw [hsame]
      exact Option.isNone_iff_eq_none.1 hnone
    rw [hkeys, hfields, hchildren]
    rfl

/-- A span with an extra key `start` is attached to a leaf: it is printed with two members of that
name. -/
theorem not_fields_of_obtained_start :
    let span : Span := ⟨⟨1, 1, none⟩, ⟨1, 2, none⟩, [("start", .num (.int 7))]⟩
    let node := (leaf "a").withPosition span
    (∃ history, node.Obtained history) ∧ node.descendant? [] = some node ∧
      node.position = some span ∧
      ∃ members, span.toJson = .obj members ∧ Members.keys members = ["start", "end", "start"] := by
  intro span node
  have hspan : span.IsNormal :=
    ⟨⟨by decide, by decide, nofun⟩, ⟨by decide, by decide, nofun⟩, by decide,
      List.forall_mem_singleton.2 (.num _)⟩
  exact ⟨⟨_, .withPosition (.leaf "a") hspan⟩, rfl, rfl, _, rfl, rfl⟩

end Obtained

end Node

end SiblingQuery
