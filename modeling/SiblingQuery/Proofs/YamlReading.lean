import SiblingQuery.Proofs.WellFormed
import SiblingQuery.Tree.FromYaml

/-!
# Nodes from YAML text are well-formed

A `Yaml.Reading` may fail, and it spends aliases as it goes.  What can be said of its answer
whatever it has to spend is `Reading.Yields`, with one rule for each way in which readings are put
together.  The readers of YAML trees are then followed rule by rule; that a mapping with well-formed
entries is a well-formed node was proved for all formats at once.

The readers look an alias up wherever they meet one, so a tree is not smaller than the tree it was
found in.  What decreases is the number of collections that may still be opened, and the induction
is on that.
-/

namespace SiblingQuery

namespace Yaml

namespace Reading

variable {α β : Type} {P : α → Prop} {Q : β → Prop}

/-- Every answer of a reading has a property, whatever there is to spend. -/
def Yields (reading : Reading α) (P : α → Prop) : Prop :=
  ∀ (left rest : ℕ) (answer : α), reading left = some (answer, rest) → P answer

lemma yields_pure {a : α} (h : P a) : Yields (pure a) P := by
  intro left rest answer hread
  obtain ⟨rfl, -⟩ := Prod.mk.inj (Option.some.inj hread)
  exact h

lemma yields_refuse : Yields refuse P := nofun

lemma yields_true (reading : Reading α) : Yields reading fun _ => True :=
  fun _ _ _ _ => trivial

lemma yields_ofOption {answer : Option α} (h : ∀ a ∈ answer, P a) : Yields (ofOption answer) P := by
  intro left rest a hread
  obtain ⟨b, hb, heq⟩ := Option.map_eq_some_iff.1 hread
  obtain ⟨rfl, -⟩ := Prod.mk.inj heq
  exact h b hb

/-- One reading after another: what is known of the first answer may be used for the second. -/
lemma Yields.bind {reading : Reading α} {next : α → Reading β} (h : Yields reading P)
    (hnext : ∀ a, P a → Yields (next a) Q) : Yields (reading >>= next) Q := by
  intro left rest answer hread
  obtain ⟨⟨a, between⟩, ha, hanswer⟩ := Option.bind_eq_some_iff.1 hread
  exact hnext a (h _ _ _ ha) _ _ _ hanswer

/-- One reading after another, where nothing is asked of the first answer. -/
lemma yields_bind {reading : Reading α} {next : α → Reading β}
    (hnext : ∀ a, Yields (next a) Q) : Yields (reading >>= next) Q :=
  (yields_true reading).bind fun a _ => hnext a

/-- A pass over a list answers item by item. -/
lemma yields_mapM_forall₂ {R : β → α → Prop} {items : List β} {read : β → Reading α}
    (h : ∀ item ∈ items, Yields (read item) (R item)) :
    Yields (items.mapM read) (List.Forall₂ R items) := by
  induction items with
  | nil => exact yields_pure .nil
  | cons item items ih =>
    rw [List.mapM_cons]
    have hrest := ih fun other hother => h other (List.mem_cons_of_mem _ hother)
    refine (h item List.mem_cons_self).bind fun answer hanswer => ?_
    exact hrest.bind fun answers hanswers => yields_pure (.cons hanswer hanswers)

lemma yields_mapM {items : List β} {read : β → Reading α}
    (h : ∀ item ∈ items, Yields (read item) P) :
    Yields (items.mapM read) fun answers => ∀ answer ∈ answers, P answer := by
  intro left rest answers hread answer hanswer
  have hall := yields_mapM_forall₂ (R := fun _ => P) h left rest answers hread
  obtain ⟨_, _, hP⟩ := exists_of_forall₂ hall answer hanswer
  exact hP

end Reading

open Reading

/-! ## Values -/

namespace Scalar

lemma isContainer_of_real? {text : String} {value : Json} (h : real? text = some value) :
    value.isContainer = false := by
  unfold real? at h
  simp only at h
  split_ifs at h
  · obtain rfl := Option.some.inj h
    rfl
  · split at h
    · obtain rfl := Option.some.inj h
      rfl
    · cases h

lemma isContainer_of_ofPlain? {text : String} {value : Json} (h : ofPlain? text = some value) :
    value.isContainer = false := by
  unfold ofPlain? at h
  split at h
  · obtain rfl := Option.some.inj h
    rfl
  split at h
  · obtain rfl := Option.some.inj h
    rfl
  split at h
  · obtain rfl := Option.some.inj h
    rfl
  · cases h
  split at h
  · obtain rfl := Option.some.inj h
    rfl
  · rcases Option.or_eq_some_iff.1 h with h | ⟨-, h⟩
    · exact isContainer_of_real? h
    · obtain rfl := Option.some.inj h
      rfl

lemma isContainer_of_ofStyle? {style : Style} {text : String} {value : Json}
    (h : ofStyle? style text = some value) : value.isContainer = false := by
  unfold ofStyle? at h
  split_ifs at h
  · exact isContainer_of_ofPlain? h
  · obtain rfl := Option.some.inj h
    rfl

/-- A scalar never stands for an array or an object. -/
lemma isContainer_of_resolve? {tag : Option Tag} {style : Style} {text : String} {value : Json}
    (h : resolve? tag style text = some value) : value.isContainer = false := by
  unfold resolve? at h
  split at h
  · exact isContainer_of_ofStyle? h
  split_ifs at h
  · exact isContainer_of_ofStyle? h
  · obtain ⟨b, -, rfl⟩ := Option.map_eq_some_iff.1 h
    rfl
  · obtain ⟨n, -, rfl⟩ := Option.map_eq_some_iff.1 h
    rfl
  · exact isContainer_of_real? h
  · obtain rfl := Option.some.inj h
    rfl
  · obtain rfl := Option.some.inj h
    rfl

lemma le_of_word? {text : String} {n : ℕ} (h : word? text = some n) : n ≤ maxWord := by
  unfold word? unsigned? at h
  simp only at h
  split at h
  · simpa using (Option.filter_eq_some_iff.1 h).2
  · split_ifs at h
    simpa using (Option.filter_eq_some_iff.1 h).2

end Scalar

namespace Tree

variable {document : Document}

@[simp]
lemma text_scalar (style : Style) (text : String) :
    Tree.text document (.scalar none none style text) = pure text := by
  have htarget : Reading.target document (.scalar none none style text) = pure _ := rfl
  rw [Tree.text, htarget, pure_bind]

/-- The value of a tree is normal. -/
lemma yields_value (depth : ℕ) (tree : Tree ℕ) :
    Yields (value document depth tree) Json.IsNormal := by
  -- an alias may lead back up, so only the depth goes down
  induction depth using Nat.strongRecOn generalizing tree with
  | ind depth ih =>
    rw [value]
    refine yields_bind fun target => ?_
    match target, depth with
    | .alias _, _ => exact yields_refuse
    | .scalar _ tag style text, _ =>
      refine yields_ofOption fun value hvalue => ?_
      exact .of_isContainer (Scalar.isContainer_of_resolve? hvalue)
    | .sequence _ tag items, 0 => exact yields_refuse
    | .sequence _ tag items, depth + 1 =>
      simp only
      split_ifs
      · exact yields_refuse
      · refine (yields_mapM fun item _ => ih depth (Nat.lt_succ_self _) item).bind fun values h => ?_
        exact yields_pure (.arr h)
    | .mapping _ tag entries, 0 => exact yields_refuse
    | .mapping _ tag entries, depth + 1 =>
      simp only
      split_ifs
      · exact yields_refuse
      · refine (yields_mapM (P := fun member => member.2.IsNormal) fun entry _ => ?_).bind
          fun members hmembers => ?_
        · refine yields_bind fun key => ?_
          split
          · exact (ih depth (Nat.lt_succ_self _) entry.2).bind fun value hvalue => yields_pure hvalue
          · exact yields_refuse
        refine yields_pure (.obj (Members.pairwise_keys_sorted members) fun member hmember => ?_)
        exact hmembers member (Members.mem_of_mem_sorted hmember)

/-! ## Words and places that may be empty -/

lemma yields_word (tree : Tree ℕ) : Yields (word document tree) (· ≤ maxWord) := by
  refine yields_bind fun target => ?_
  split
  · split_ifs
    · exact yields_ofOption fun n hn => Scalar.le_of_word? hn
    · exact yields_refuse
  · exact yields_refuse

lemma yields_optional {α : Type} {P : α → Prop} {read : Tree ℕ → Reading α}
    (h : ∀ tree, Yields (read tree) P) (tree : Tree ℕ) :
    Yields (Tree.optional document read tree) fun answer => ∀ a ∈ answer, P a := by
  refine yields_bind fun target => yields_bind fun present => ?_
  split_ifs
  · exact (h target).bind fun a ha => yields_pure (by simpa using ha)
  · exact yields_pure (by simp)

end Tree

end Yaml

open Yaml Yaml.Reading

variable {document : Document}

/-! ## Points and spans -/

lemma Point.yields_entryOfTree (entry : Yaml.Tree ℕ × Yaml.Tree ℕ) :
    Yields (Point.entryOfTree document entry) Point.Entry.InRange := by
  refine yields_bind fun key => ?_
  split_ifs
  · exact (Tree.yields_word entry.2).bind fun n hn => yields_pure hn
  · exact (Tree.yields_word entry.2).bind fun n hn => yields_pure hn
  · exact (Tree.yields_optional Tree.yields_word entry.2).bind fun n hn => yields_pure hn
  · exact yields_pure trivial

lemma Point.yields_ofTree (depth : ℕ) (tree : Yaml.Tree ℕ) :
    Yields (Point.ofTree document depth tree) Point.InRange := by
  refine yields_bind fun target => ?_
  split_ifs
  · exact yields_refuse
  refine yields_bind fun members => ?_
  refine (yields_mapM fun entry _ => yields_entryOfTree entry).bind fun entries hentries => ?_
  exact yields_ofOption fun point hpoint => inRange_of_ofEntries? hentries hpoint

lemma Span.yields_entryOfTree (depth : ℕ) (entry : Yaml.Tree ℕ × Yaml.Tree ℕ) :
    Yields (Span.entryOfTree document depth entry) Span.Entry.WellFormed := by
  refine yields_bind fun key => ?_
  split_ifs with hstart hend
  · exact (Point.yields_ofTree depth entry.2).bind fun point hpoint => yields_pure hpoint
  · exact (Point.yields_ofTree depth entry.2).bind fun point hpoint => yields_pure hpoint
  · refine (Tree.yields_value depth entry.2).bind fun value hvalue => yields_pure ?_
    exact ⟨isReserved_eq_false_iff.2 ⟨hstart, hend⟩, hvalue⟩

lemma Span.yields_ofTree (depth : ℕ) (tree : Yaml.Tree ℕ) :
    Yields (Span.ofTree document depth tree) Span.WellFormed := by
  refine yields_bind fun target => ?_
  split_ifs
  · exact yields_refuse
  refine yields_bind fun members => ?_
  refine (yields_mapM fun entry _ => yields_entryOfTree _ entry).bind fun entries hentries => ?_
  exact yields_ofOption fun span hspan => wellFormed_of_ofEntries? hentries hspan

/-! ## Nodes -/

namespace Node

/-- A children list, at most `depth` collections deep. -/
def listOfTree (document : Document) (depth : ℕ) (list : Yaml.Tree ℕ) : Reading (List Node) :=
  match depth with
  | 0 => if list.isVoid then return [] else refuse
  | depth + 1 => do (← list.items).mapM (ofTree document depth)

/-- What an entry of a mapping says about a node. -/
def entryOfTree (document : Document) (depth : ℕ) (entry : Yaml.Tree ℕ × Yaml.Tree ℕ) :
    Reading Entry := do
  let key ← entry.1.text document
  if key = "type" then return .kind (← entry.2.text document)
  else if key = "children" then
    return .children (← Tree.optional document (listOfTree document depth) entry.2)
  else if key = "position" then
    return .position (← Tree.optional document (Span.ofTree document depth) entry.2)
  else return .field key (← Tree.value document depth entry.2)

/-- A node is read entry by entry. -/
lemma ofTree_succ (depth : ℕ) (tree : Yaml.Tree ℕ) :
    ofTree document (depth + 1) tree = (do
      let tree ← Reading.target document tree
      let entries ← (← tree.entries).mapM (entryOfTree document depth)
      Reading.ofOption (ofEntries? entries)) := by
  cases depth <;> rfl

lemma ofTree_zero (tree : Yaml.Tree ℕ) :
    ofTree document 0 tree = (do
      let tree ← Reading.target document tree
      if tree.isVoid then return leaf "" else refuse) := by
  rfl

/-- What an entry says about a node is well-formed, if the nodes in it are. -/
lemma yields_entryOfTree {depth : ℕ}
    (hlist : ∀ list, Yields (listOfTree document depth list) fun nodes =>
      ∀ node ∈ nodes, node.WellFormed) (entry : Yaml.Tree ℕ × Yaml.Tree ℕ) :
    Yields (entryOfTree document depth entry) Entry.WellFormed := by
  refine yields_bind fun key => ?_
  split_ifs with htype hchildren hposition
  · exact yields_bind fun name => yields_pure trivial
  · exact (Tree.yields_optional hlist entry.2).bind fun nodes hnodes => yields_pure hnodes
  · exact (Tree.yields_optional (Span.yields_ofTree depth) entry.2).bind fun span hspan =>
      yields_pure hspan
  · refine (Tree.yields_value depth entry.2).bind fun value hvalue => yields_pure ?_
    exact ⟨isReserved_eq_false_iff.2 ⟨htype, hchildren, hposition⟩, hvalue⟩

lemma yields_ofTree (depth : ℕ) (tree : Yaml.Tree ℕ) :
    Yields (ofTree document depth tree) WellFormed := by
  induction depth using Nat.strongRecOn generalizing tree with
  | ind depth ih =>
    cases depth with
    | zero =>
      rw [ofTree_zero]
      refine yields_bind fun target => ?_
      split_ifs
      · exact yields_pure (wellFormed_leaf "")
      · exact yields_refuse
    | succ depth =>
      have hlist : ∀ list, Yields (listOfTree document depth list) fun nodes =>
          ∀ node ∈ nodes, node.WellFormed := by
        intro list
        cases depth with
        | zero =>
          simp only [listOfTree]
          split_ifs
          · exact yields_pure (by simp)
          · exact yields_refuse
        | succ depth =>
          exact yields_bind fun items => yields_mapM fun item _ => ih depth (by omega) item
      rw [ofTree_succ]
      refine yields_bind fun target => yields_bind fun members => ?_
      refine (yields_mapM fun entry _ => yields_entryOfTree hlist entry).bind fun entries h => ?_
      exact yields_ofOption fun node hnode => wellFormed_of_ofEntries? h hnode

/-- What every document yields is yielded from a text. -/
lemma of_readDocument? {α : Type} {P : α → Prop} {read : Yaml.Document → Yaml.Reading α}
    (hread : ∀ document, Yields (read document) P) {text : String} {answer : α}
    (h : readDocument? text read = some answer) : P answer := by
  unfold readDocument? at h
  split at h
  · cases h
  split at h
  · cases h
  · obtain ⟨⟨answer, rest⟩, hanswer, rfl⟩ := Option.map_eq_some_iff.1 h
    exact hread _ _ _ _ hanswer

/-- YAML text is read as well-formed nodes. -/
lemma wellFormed_of_parseYaml? {text : String} {node : Node} (h : parseYaml? text = some node) :
    node.WellFormed :=
  of_readDocument? (fun document => yields_ofTree _ document.root) h

lemma wellFormed_of_parseYamlList? {text : String} {nodes : List Node}
    (h : parseYamlList? text = some nodes) : ∀ node ∈ nodes, node.WellFormed :=
  of_readDocument? (fun _ => yields_bind fun _ => yields_mapM fun item _ => yields_ofTree _ item) h

end Node

end SiblingQuery
