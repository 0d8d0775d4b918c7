import SiblingQuery.Proofs.Identity
import SiblingQuery.Proofs.PathTexts
import SiblingQuery.Proofs.Runs

/-!
# Addresses of nodes

A path leads through a tree one child after the other, so it leads nowhere exactly if at some level
it comes to a node and asks for a child that this node does not have (`LeadsNowhere`).  Where it
leads, the text of the path addresses the node itself, by its place, provided that the node can be
searched; and it is refused otherwise, in one way for a node that cannot be searched and in another
for no node at all (`parentAt_eq_ok_iff`, `parentAt_eq_error_iff`).

Whether a node can be searched is asked twice, when it is addressed and when it is searched.  Both
ask for a type and for a list of children, be it an empty one.  So a search from an address and a
position that were read does not fail: the parent has passed the check already, and a position that
is read is an index, which no child has to be found for.
-/

namespace SiblingQuery

namespace Occurrence

variable {top parent found : Occurrence} {path : List ℕ} {text : String} {e : AddressError}

/-! ## Paths that lead nowhere -/

/-- A path that comes to a node, at some level, and asks for a child that the node does not have. -/
def LeadsNowhere (top : Occurrence) (path : List ℕ) : Prop :=
  ∃ before index after found, path = before ++ index :: after ∧
    top.descend? before = some found ∧ found.children.length ≤ index

lemma child?_eq_none_iff {index : ℕ} :
    parent.child? index = none ↔ parent.children.length ≤ index := by
  rw [← getElem?_children, List.getElem?_eq_none_iff]

lemma descend?_eq_none_iff : top.descend? path = none ↔ top.LeadsNowhere path := by
  constructor
  · intro h
    induction path generalizing top with
    | nil => cases h
    | cons index path ih =>
      by_cases hchild : top.child? index = none
      · exact ⟨[], index, path, top, rfl, rfl, child?_eq_none_iff.1 hchild⟩
      · obtain ⟨child, hchild⟩ := Option.ne_none_iff_exists'.1 hchild
        have hrest : child.descend? path = none := by
          rwa [descend?, hchild, Option.bind_some] at h
        obtain ⟨before, last, after, found, rfl, hfound, hlast⟩ := ih hrest
        refine ⟨index :: before, last, after, found, rfl, ?_, hlast⟩
        rw [descend?, hchild]
        exact hfound
  · rintro ⟨before, index, after, found, rfl, hfound, hindex⟩
    rw [descend?_append, hfound, Option.bind_some, descend?, child?_eq_none_iff.2 hindex]
    rfl

/-! ## Addresses -/

/-- The text of a path addresses what the path leads to, if that can be searched. -/
lemma parentAt_eq_ok_iff (htext : Path.parse text = .ok path) :
    top.parentAt text = .ok found ↔
      top.descend? path = some found ∧ found.node.kind ≠ "" ∧ found.node.children ≠ none := by
  rw [← Node.isParent_iff]
  simp only [parentAt, htext]
  cases hlead : top.descend? path with
  | none => simp
  | some node =>
    by_cases hnode : node.node.isParent = true
    · simp only [if_pos hnode, Except.ok.injEq, Option.some.injEq]
      constructor
      · rintro rfl
        exact ⟨rfl, hnode⟩
      · exact And.left
    · simp only [if_neg hnode, reduceCtorEq, Option.some.injEq, false_iff]
      rintro ⟨rfl, hparent⟩
      exact hnode hparent

/-- The text of a path addresses nothing if the path leads nowhere, or to what cannot be
searched. -/
lemma parentAt_eq_error_iff (htext : Path.parse text = .ok path) :
    top.parentAt text = .error e ↔
      (top.LeadsNowhere path ∧ e = .missing text) ∨
        ∃ found, top.descend? path = some found ∧
          (found.node.kind = "" ∨ found.node.children = none) ∧
            e = .notParent text found.node.kind := by
  rw [← descend?_eq_none_iff]
  simp only [parentAt, htext, ← Node.not_isParent_iff]
  cases hlead : top.descend? path with
  | none => simp [@eq_comm _ e]
  | some node =>
    by_cases hnode : node.node.isParent = true
    · simp [hnode]
    · simp [hnode, @eq_comm _ e]

/-- What was addressed can be searched from any position that was read. -/
lemma exists_findAllAfter {address after : String} {position : Position}
    (haddress : top.parentAt address = .ok parent) (hafter : Position.parse after = .ok position)
    (test : Test) : ∃ found, findAllAfter parent position test = .ok found := by
  obtain ⟨-, hparent⟩ := exists_descend?_of_parentAt haddress
  obtain ⟨start, rfl⟩ := Position.exists_index_of_parse hafter
  have hstart : (Position.index start).StartsAt parent start := rfl
  exact ⟨_, findAllAfter_of_startsAt hparent hstart test⟩

/-- Every parent of a tree has an address, and what is addressed can be searched.  A path in two
parts is walked one part after the other, and what it leads to lies at this path.  The path in
decimal, with points, then addresses that very node exactly if the node has a type and a list of
children; it is refused as no parent exactly if the path leads to another node, and as missing
exactly if it leads nowhere, at whatever level.  Once an address, a position and the tests were
read, the search cannot fail. -/
theorem parentAt_outcome (tree : Node) (owner : ℕ) :
    (∀ p q, (root tree owner).descend? (p ++ q) =
      ((root tree owner).descend? p).bind (·.descend? q)) ∧
    (∀ p, (∀ n ∈ p, n ≤ maxWord) →
      (∀ found, (root tree owner).descend? p = some found → found.place = ⟨owner, p⟩) ∧
      ((root tree owner).descend? p = none ↔ (root tree owner).LeadsNowhere p) ∧
      (∀ found, (root tree owner).parentAt (Path.write p) = .ok found ↔
        (root tree owner).descend? p = some found ∧
          found.node.kind ≠ "" ∧ found.node.children ≠ none) ∧
      ∀ e, (root tree owner).parentAt (Path.write p) = .error e ↔
        ((root tree owner).LeadsNowhere p ∧ e = .missing (Path.write p)) ∨
          ∃ found, (root tree owner).descend? p = some found ∧
            (found.node.kind = "" ∨ found.node.children = none) ∧
              e = .notParent (Path.write p) found.node.kind) ∧
    ∀ address after texts parent position test,
      (root tree owner).parentAt address = .ok parent → Position.parse after = .ok position →
        Test.parseAll texts = .ok test →
          ∃ found, findAllAfter parent position test = .ok found := by
  refine ⟨descend?_append _, ?_, ?_⟩
  · intro p hwords
    have hread := Path.parse_write hwords
    refine ⟨?_, descend?_eq_none_iff, ?_, ?_⟩
    · intro found hfound
      exact place_of_descend?_root hfound
    · intro found
      exact parentAt_eq_ok_iff hread
    · intro e
      exact parentAt_eq_error_iff hread
  · intro address after texts parent position test haddress hafter htests
    exact exists_findAllAfter haddress hafter test

/-- A node without a type is no parent, though it has a child, and neither is a leaf.  A list
without items is one: every child of it is missing, but a search in it does not fail. -/
theorem parentAt_outcome_untyped :
    let untyped := Node.parent "" [.leaf "a"]
    let top := root (.parent "root" [untyped, .leaf "break", .parent "list" []]) 0
    top.parentAt (Path.write [0]) = .error (.notParent (Path.write [0]) "") ∧
      top.parentAt (Path.write [1]) = .error (.notParent (Path.write [1]) "break") ∧
      top.parentAt (Path.write [2]) = .ok ⟨⟨0, [2]⟩, .parent "list" []⟩ ∧
      top.parentAt (Path.write [2, 0]) = .error (.missing (Path.write [2, 0])) ∧
      ∃ found, findAllAfter ⟨⟨0, [2]⟩, .parent "list" []⟩ (.index 7) (.kind "a") = .ok found := by
  intro untyped top
  obtain ⟨-, haddress, hsearch⟩ :=
    parentAt_outcome (.parent "root" [untyped, .leaf "break", .parent "list" []]) 0
  have hlist : top.parentAt (Path.write [2]) = .ok ⟨⟨0, [2]⟩, .parent "list" []⟩ :=
    ((haddress [2] (by decide)).2.2.1 _).2 ⟨rfl, by decide, nofun⟩
  have huntyped := ((haddress [0] (by decide)).2.2.2 _).2
    (.inr ⟨⟨⟨0, [0]⟩, untyped⟩, rfl, .inl rfl, rfl⟩)
  have hbreak := ((haddress [1] (by decide)).2.2.2 _).2
    (.inr ⟨⟨⟨0, [1]⟩, .leaf "break"⟩, rfl, .inr rfl, rfl⟩)
  have hmissing := ((haddress [2, 0] (by decide)).2.2.2 _).2
    (.inl ⟨⟨[2], 0, [], ⟨⟨0, [2]⟩, .parent "list" []⟩, rfl, rfl, by decide⟩, rfl⟩)
  exact ⟨huntyped, hbreak, hlist, hmissing,
    hsearch _ "7" ["a"] _ _ _ hlist rfl rfl⟩

end Occurrence

end SiblingQuery
