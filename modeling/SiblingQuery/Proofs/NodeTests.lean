import SiblingQuery.Proofs.AttributeTests
import SiblingQuery.Proofs.Identity
import SiblingQuery.Proofs.Runs

/-!
# Nodes as tests

A node that is taken as a test keeps itself, by identity.  If it is scalar, that is without
children, position and values that are arrays or objects, it also keeps the nodes that extend it:
those of its type that have all its fields with equal values.  To them it is the same test as its
own members taken as attributes.

Identity needs a place where nodes live.  A *forest* has one tree for each owner, and an occurrence
is in the forest if the tree of its owner has that node in that place; so two occurrences of a
forest in one place are one node (`Occurrence.IsIn.eq_of_place_eq`).
-/

namespace SiblingQuery

open Json

/-! ## Forests -/

namespace Occurrence

variable {forest : ℕ → Node} {a b : Occurrence}

/-- The tree of its owner has this node in this place. -/
def IsIn (forest : ℕ → Node) (occurrence : Occurrence) : Prop :=
  (root (forest occurrence.place.owner) occurrence.place.owner).descend? occurrence.place.path =
    some occurrence

lemma IsIn.eq_of_place_eq (ha : a.IsIn forest) (hb : b.IsIn forest) (h : a.place = b.place) :
    a = b := by
  unfold IsIn at ha hb
  rw [h, hb] at ha
  exact (Option.some.inj ha).symm

/-- In a forest of trees that were loaded or built, every node was. -/
lemma IsIn.obtainable (h : a.IsIn forest) (hforest : ∀ owner, (forest owner).Obtainable) :
    a.node.Obtainable :=
  of_descend? (fun _ _ _ hnode hnodes hchild => hnode.child hnodes hchild) (hforest a.place.owner) h

end Occurrence

/-! ## Scalar nodes and what extends them -/

namespace Node

/-- No children list, no position, and no field that is an array or an object. -/
structure IsScalar (node : Node) : Prop where
  children : node.children = none
  position : node.position = none
  fields : ∀ member ∈ node.fields, member.2.isContainer = false

/-- The node has the type of another one and all of its fields, with equal values. -/
structure Extends (node base : Node) : Prop where
  kind : node.kind = base.kind
  fields : ∀ member ∈ base.fields, ∃ actual, node.get? member.1 = some actual ∧
    actual.same member.2 = true

variable {node base other : Node}

lemma Extends.trans (h : other.Extends node) (hbase : node.Extends base) : other.Extends base where
  kind := h.kind.trans hbase.kind
  fields := by
    intro member hmember
    obtain ⟨middle, hmiddle, hsame⟩ := hbase.fields member hmember
    obtain ⟨actual, hactual, hequal⟩ := h.fields _ (Members.mem_of_get?_eq_some hmiddle)
    exact ⟨actual, hactual, same_trans hequal hsame⟩

lemma field?_of_isReserved_eq_false {key : String} (hkey : isReserved key = false) :
    node.field? key = node.get? key := by
  obtain ⟨htype, hchildren, hposition⟩ := isReserved_eq_false_iff.1 hkey
  rw [field?, if_neg htype, if_neg hchildren, if_neg hposition]

/-- The serialised members of a node, as attributes, compare it with another key by key. -/
lemma HasObtainableFields.hasAttributes_serialised_iff (h : base.HasObtainableFields) :
    node.hasAttributes base.serialised = true ↔
      ∀ key value, base.field? key = some value →
        ∃ actual, node.field? key = some actual ∧ actual.same value = true := by
  rw [hasAttributes_iff, Prod.forall]
  refine forall₂_congr fun key value => ?_
  rw [h.field?_eq, Members.get?_eq_some_iff base.nodup_keys_serialised]

/-- A node has the members of a scalar one as attributes exactly if it extends that. -/
lemma IsScalar.hasAttributes_serialised_iff (hscalar : base.IsScalar)
    (h : base.HasObtainableFields) :
    node.hasAttributes base.serialised = true ↔ node.Extends base := by
  rw [h.hasAttributes_serialised_iff]
  constructor
  · refine fun hall => ⟨?_, fun member hmember => ?_⟩
    · obtain ⟨actual, hactual, hsame⟩ := hall "type" (.str base.kind) rfl
      obtain rfl : Json.str node.kind = actual := Option.some.inj hactual
      exact of_decide_eq_true hsame
    · have hkey : isReserved member.1 = false := by
        rw [Bool.eq_false_iff]
        exact fun hreserved => h.not_mem_keys hreserved (List.mem_map_of_mem hmember)
      have hvalue := hall member.1 member.2
      rw [field?_of_isReserved_eq_false hkey, field?_of_isReserved_eq_false hkey] at hvalue
      exact hvalue (Members.get?_eq_some_of_mem h.nodup_keys_fields hmember)
  · intro hextends key value hvalue
    cases hkey : isReserved key with
    | false =>
      rw [field?_of_isReserved_eq_false hkey] at hvalue ⊢
      exact hextends.fields _ (Members.mem_of_get?_eq_some hvalue)
    | true =>
      obtain rfl | rfl | rfl := isReserved_eq_true_iff.1 hkey
      · obtain rfl : Json.str base.kind = value := Option.some.inj hvalue
        exact ⟨_, rfl, by rw [hextends.kind]; exact same_self _⟩
      · simp [field?, hscalar.children] at hvalue
      · simp [field?, hscalar.position] at hvalue

end Node

/-! ## A node as test -/

namespace Occurrence

variable {forest : ℕ → Node} {candidate expected other : Occurrence}

/-- The test that a node is keeps itself, and what extends it if it is scalar. -/
lemma passesFor_iff : candidate.passesFor expected = true ↔
    candidate.place = expected.place ∨
      expected.node.IsScalar ∧ candidate.node.Extends expected.node := by
  have hfields : expected.node.fields.all
      (fun member => candidate.node.sharesField member.1 member.2) = true ↔
        (∀ member ∈ expected.node.fields, member.2.isContainer = false) ∧
          ∀ member ∈ expected.node.fields, ∃ actual, candidate.node.get? member.1 = some actual ∧
            actual.same member.2 = true := by
    rw [List.all_eq_true, ← forall₂_and]
    refine forall₂_congr fun member _ => ?_
    rw [Node.sharesField, Bool.and_eq_true, Bool.not_eq_true']
    cases candidate.node.get? member.1 <;> simp
  rw [passesFor, is, Bool.or_eq_true, decide_eq_true_iff]
  simp only [Bool.and_eq_true, hfields, decide_eq_true_iff, Option.isNone_iff_eq_none]
  refine or_congr_right ⟨?_, ?_⟩
  · rintro ⟨⟨⟨hchildren, hposition⟩, hkind⟩, hscalar, hshared⟩
    exact ⟨⟨hchildren, hposition, hscalar⟩, ⟨hkind, hshared⟩⟩
  · rintro ⟨hscalar, hextends⟩
    exact ⟨⟨⟨hscalar.children, hscalar.position⟩, hextends.kind⟩, hscalar.fields, hextends.fields⟩

/-- What a node keeps as a test is kept by its members as attributes. -/
lemma hasAttributes_of_passesFor (hcandidate : candidate.IsIn forest)
    (hexpected : expected.IsIn forest) (hfields : expected.node.HasObtainableFields)
    (h : candidate.passesFor expected = true) :
    candidate.node.hasAttributes expected.node.serialised = true := by
  rcases passesFor_iff.1 h with hplace | ⟨hscalar, hextends⟩
  · rw [hcandidate.eq_of_place_eq hexpected hplace]
    exact hfields.hasAttributes_serialised
  · exact (hscalar.hasAttributes_serialised_iff hfields).2 hextends

lemma passesFor_trans (hcandidate : candidate.IsIn forest) (hexpected : expected.IsIn forest)
    (hother : other.IsIn forest) (h : candidate.passesFor expected = true)
    (h' : other.passesFor candidate = true) : other.passesFor expected = true := by
  rcases passesFor_iff.1 h with hplace | ⟨hscalar, hextends⟩
  · rwa [hcandidate.eq_of_place_eq hexpected hplace] at h'
  · rcases passesFor_iff.1 h' with hplace | ⟨-, hextends'⟩
    · rwa [hother.eq_of_place_eq hcandidate hplace]
    · exact passesFor_iff.2 (.inr ⟨hscalar, hextends'.trans hextends⟩)

/-- A search that starts at a child and takes it as the test finds the later siblings that extend
it, if it is scalar, and otherwise nothing. -/
lemma selects_of_child {parent child : Occurrence} {start : ℕ}
    (hcount : parent.children.length ≤ maxWord) (hchild : parent.child? start = some child) :
    parent.Selects (fun sibling index => start < index ∧ child.node.IsScalar ∧
      sibling.node.Extends child.node) (parent.matchesAfter start (.node child)) := by
  refine (matchesAfter_selects hcount start (.node child)).congr fun sibling index hsibling => ?_
  refine and_congr_right fun hlt => ?_
  rw [Test.passes, passesFor_iff, or_iff_right]
  intro hplace
  have := index_eq_of_place_eq hsibling hchild hplace
  omega

end Occurrence

/-- What it means to take a node as a test, for any two nodes of a forest.  What the node keeps is
kept by its serialised members as attributes; if it is scalar the two are the same test, and
otherwise it keeps itself alone, by identity.  So a search that starts at a child and takes it as
the test never finds the child, finds nothing unless the child is scalar, and then finds exactly the
later siblings of its type that have all of its fields.  To be kept by a node is a reflexive and
transitive relation. -/
theorem passes_node_laws {forest : ℕ → Node}
    (hforest : ∀ o : Occurrence, o.IsIn forest → o.node.HasObtainableFields) :
    (∀ e n : Occurrence, e.IsIn forest → n.IsIn forest → ∀ (index : ℕ) (parent : Occurrence),
      ((Test.node e).passes n index parent = true →
        (Test.attributes e.node.serialised).passes n index parent = true) ∧
      (e.node.IsScalar → (Test.node e).passes n index parent =
        (Test.attributes e.node.serialised).passes n index parent) ∧
      (¬ e.node.IsScalar → ((Test.node e).passes n index parent = true ↔ n.place = e.place))) ∧
    (∀ (parent child : Occurrence) (start : ℕ), parent.node.isParent = true →
      parent.children.length ≤ maxWord → parent.child? start = some child →
      ∃ found, findAllAfter parent (.child child) (.node child) = .ok found ∧
        (∀ sibling ∈ found, sibling.place ≠ child.place) ∧
        (¬ child.node.IsScalar → found = []) ∧
        (child.node.IsScalar → parent.Selects
          (fun sibling index => start < index ∧ sibling.node.Extends child.node) found)) ∧
    (∀ (e : Occurrence) (index : ℕ) (parent : Occurrence),
      (Test.node e).passes e index parent = true) ∧
    ∀ a b c : Occurrence, a.IsIn forest → b.IsIn forest → c.IsIn forest →
      ∀ (i j k : ℕ) (p q r : Occurrence), (Test.node a).passes b i p = true →
        (Test.node b).passes c j q = true → (Test.node a).passes c k r = true := by
  refine ⟨fun e n he hn index parent => ?_, fun parent child start hvalid hcount hchild => ?_,
    fun e index parent => ?_, fun a b c ha hb hc i j k p q r hab hbc => ?_⟩
  · simp only [Test.passes]
    refine ⟨Occurrence.hasAttributes_of_passesFor hn he (hforest e he), fun hscalar => ?_,
      fun hscalar => ?_⟩
    · rw [Bool.eq_iff_iff, hscalar.hasAttributes_serialised_iff (hforest e he),
        Occurrence.passesFor_iff, and_iff_right hscalar]
      refine or_iff_right_of_imp fun hplace => ?_
      rw [hn.eq_of_place_eq he hplace, ← hscalar.hasAttributes_serialised_iff (hforest e he)]
      exact (hforest e he).hasAttributes_serialised
    · rw [Occurrence.passesFor_iff, or_iff_left]
      exact fun hextends => hscalar hextends.1
  · have hstart : (Position.child child).StartsAt parent start := ⟨child, hchild, rfl⟩
    have hselects := Occurrence.selects_of_child hcount hchild
    refine ⟨_, findAllAfter_of_startsAt hvalid hstart _, fun sibling hsibling hplace => ?_,
      fun hscalar => ?_, fun hscalar => ?_⟩
    · obtain ⟨index, hindex, hlt, -⟩ := hselects.wanted_of_mem hsibling
      have := Occurrence.index_eq_of_place_eq hindex hchild hplace
      omega
    · refine List.eq_nil_iff_forall_not_mem.2 fun sibling hsibling => ?_
      obtain ⟨-, -, -, hscalar', -⟩ := hselects.wanted_of_mem hsibling
      exact hscalar hscalar'
    · exact hselects.congr fun sibling index _ => by simp [hscalar]
  · rw [Test.passes, Occurrence.passesFor_iff]
    exact .inl rfl
  · exact Occurrence.passesFor_trans hb ha hc hab hbc

/-- Of four siblings the second extends the first, and the last two are equal but have children.
From the first on, as the test, the second is found; from the third on nothing, and it does not keep
its copy in another tree either. -/
theorem passes_node_laws_twins :
    let text := Node.literal "text" "a"
    let strong := Node.parent "strong" [text]
    let tree := Node.parent "root" [text, text.withField "lang" (.str "en"), strong, strong]
    let parent := Occurrence.root tree 0
    let first : Occurrence := ⟨⟨0, [0]⟩, text⟩
    let third : Occurrence := ⟨⟨0, [2]⟩, strong⟩
    (∀ o : Occurrence, o.IsIn (fun _ => tree) → o.node.HasObtainableFields) ∧
      (findAllAfter parent (.child first) (.node first)).map (·.map (·.place.path)) = .ok [[1]] ∧
      (findAllAfter parent (.child third) (.node third)).map (·.map (·.place.path)) = .ok [] ∧
      (Test.attributes text.serialised).passes ⟨⟨0, [1]⟩, text.withField "lang" (.str "en")⟩ 1
        parent = true ∧
      (Test.node third).passes ⟨⟨1, [2]⟩, strong⟩ 2 parent = false := by
  intro text strong tree parent first third
  have htext : text.Obtainable := .literal "text" "a"
  have hstrong : strong.Obtainable := .parent "strong" (List.forall_mem_singleton.2 htext)
  have htree : tree.Obtainable := by
    refine .parent "root" (List.forall_mem_cons.2 ⟨htext, List.forall_mem_cons.2 ⟨?_,
      List.forall_mem_cons.2 ⟨hstrong, List.forall_mem_singleton.2 hstrong⟩⟩⟩)
    exact htext.withField "lang" (.str "en")
  have hforest : ∀ o : Occurrence, o.IsIn (fun _ => tree) → o.node.HasObtainableFields :=
    fun o ho => (ho.obtainable fun _ => htree).hasObtainableFields
  have hscalar : ¬ strong.IsScalar := fun h => Option.some_ne_none _ h.children
  obtain ⟨hpair, hsearch, -, -⟩ := passes_node_laws hforest
  obtain ⟨found, hfound, -, hnone, -⟩ := hsearch parent third 2 rfl (by decide) rfl
  refine ⟨hforest, rfl, ?_, ?_, ?_⟩
  · rw [hfound, hnone hscalar]
    rfl
  · exact (hpair first ⟨⟨0, [1]⟩, text.withField "lang" (.str "en")⟩ rfl rfl 1 parent).1 rfl
  · rw [Bool.eq_false_iff, ne_eq, (hpair third ⟨⟨1, [2]⟩, strong⟩ rfl rfl 2 parent).2.2 hscalar]
    decide

end SiblingQuery
