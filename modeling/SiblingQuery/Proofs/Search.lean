import Mathlib.Data.List.Sort
import SiblingQuery.Query.Search

/-!
# What a search finds

The outcome of `findAllAfter` for every parent, position and test.  Three things are proved apart
and then put together.

* *Identity.*  Children of one parent lie at different places, so a place is the place of at most
  one child, and `Occurrence.indexOf?` finds exactly that child's index (`indexOf?_eq_some_iff`).
* *Order.*  Numbering the children before any is skipped leaves every child with its own index, so
  what is kept stands in ascending order (`matchesAfter_selects`).
* *Bounds.*  The search skips up to `Word.next start`, which stops growing at the largest word.
  A list in memory has no more items than a word can count, and for such a list nothing is lost:
  that is the one hypothesis, `parent.children.length ≤ maxWord`.

`Occurrence.Selects` is the specification: which children are wanted, each once, in order, and
nothing else.
-/

namespace SiblingQuery

namespace Word

/-- Up to the largest word, an index is skipped exactly when it is not beyond the start. -/
lemma next_le_iff {n index : ℕ} (h : index < maxWord) : next n ≤ index ↔ n < index := by
  unfold next
  omega

end Word

/-! ## Children and their places -/

lemma Place.child_inj {place : Place} {i j : ℕ} : place.child i = place.child j ↔ i = j := by
  simp [Place.child]

namespace Occurrence

variable {parent child : Occurrence} {index : ℕ}

@[simp]
lemma getElem?_children (parent : Occurrence) (index : ℕ) :
    parent.children[index]? = parent.child? index := by
  unfold children child?
  cases parent.node.children <;> simp

lemma place_of_child? (h : parent.child? index = some child) :
    child.place = parent.place.child index := by
  obtain ⟨node, -, rfl⟩ := Option.map_eq_some_iff.1 h
  rfl

lemma lt_length_of_child? (h : parent.child? index = some child) :
    index < parent.children.length := by
  rw [← getElem?_children] at h
  exact (List.getElem?_eq_some_iff.1 h).1

/-- Two children at one place are the child with one index. -/
lemma index_eq_of_place_eq {i j : ℕ} {a b : Occurrence} (ha : parent.child? i = some a)
    (hb : parent.child? j = some b) (hab : a.place = b.place) : i = j := by
  rw [place_of_child? ha, place_of_child? hb] at hab
  exact Place.child_inj.1 hab

/-- Looking an occurrence up finds the index of the child at its place, wherever equal siblings
stand. -/
lemma indexOf?_eq_some_iff {node : Occurrence} :
    parent.indexOf? node = some index ↔
      ∃ child, parent.child? index = some child ∧ child.place = node.place := by
  unfold indexOf?
  rw [List.findIdx?_eq_some_iff_getElem]
  constructor
  · rintro ⟨hlt, hplace, -⟩
    refine ⟨parent.children[index], ?_, by simpa [is] using hplace⟩
    rw [← getElem?_children, List.getElem?_eq_getElem hlt]
  · rintro ⟨child, hchild, hplace⟩
    have hlt := lt_length_of_child? hchild
    have hget : parent.children[index] = child := by
      rw [← getElem?_children, List.getElem?_eq_getElem hlt] at hchild
      exact Option.some.inj hchild
    refine ⟨hlt, by simpa [is, hget] using hplace, fun j hj his => ?_⟩
    -- An earlier hit would be a second child at the same place.
    have hfirst : parent.child? j = some parent.children[j] := by
      rw [← getElem?_children, List.getElem?_eq_getElem]
    have : j = index :=
      index_eq_of_place_eq hfirst hchild (by simpa [is, hplace] using his)
    omega

lemma indexOf?_eq_none_iff {node : Occurrence} :
    parent.indexOf? node = none ↔ ∀ child ∈ parent.children, child.place ≠ node.place := by
  simp [indexOf?, is]

end Occurrence

lemma Node.isParent_iff {node : Node} :
    node.isParent = true ↔ node.kind ≠ "" ∧ node.children ≠ none := by
  simp [Node.isParent, Option.isSome_iff_ne_none]

lemma Node.not_isParent_iff {node : Node} :
    ¬node.isParent = true ↔ node.kind = "" ∨ node.children = none := by
  rw [Node.isParent_iff]
  tauto

/-! ## Where a search starts -/

namespace Position

/-- The answer to a number: an index, or that it is none. -/
def IsJudgement (answer : Except FindError Position) : Prop :=
  (∃ k, answer = .ok (.index k)) ∨ answer = .error .invalidIndex

lemma isJudgement_ofInt (i : ℤ) : IsJudgement (ofInt i) := by
  unfold ofInt
  split_ifs
  · exact .inr rfl
  · exact .inl ⟨_, rfl⟩

lemma isJudgement_ofDouble (bits : DoubleBits) : IsJudgement (ofDouble bits) := by
  unfold ofDouble
  split
  · split
    · split_ifs
      · exact .inr rfl
      · exact .inl ⟨_, rfl⟩
    · exact .inr rfl
  · exact .inr rfl
  · exact .inr rfl

lemma isJudgement_ofJson (number : Number) : IsJudgement (ofJson (.num number)) := by
  cases number with
  | int i => exact isJudgement_ofInt i
  | float d => exact isJudgement_ofDouble (.finite d)

/-- A judgement that is no refusal is an index. -/
lemma IsJudgement.exists_index {answer : Except FindError Position} {position : Position}
    (h : IsJudgement answer) (hanswer : answer = .ok position) :
    ∃ start, position = .index start := by
  rcases h with ⟨start, hindex⟩ | hrefused
  · exact ⟨start, Except.ok.inj (hanswer.symm.trans hindex)⟩
  · rw [hrefused] at hanswer
    cases hanswer

variable {parent : Occurrence} {position : Position} {start : ℕ}

/-- The position stands for an index: its own, or that of the child of `parent` which it is. -/
def StartsAt (parent : Occurrence) : Position → ℕ → Prop
  | .index n, start => start = n
  | .child node, start => ∃ child, parent.child? start = some child ∧ child.place = node.place

/-- The position is a node, and none of the children of `parent` is that node. -/
def IsStray (parent : Occurrence) (position : Position) : Prop :=
  ∃ node, position = .child node ∧ ∀ child ∈ parent.children, child.place ≠ node.place

lemma resolve_eq_ok_iff : position.resolve parent = .ok start ↔ position.StartsAt parent start := by
  cases position with
  | index n => simp [resolve, StartsAt, eq_comm]
  | child node =>
    rw [StartsAt, ← Occurrence.indexOf?_eq_some_iff]
    cases h : parent.indexOf? node <;> simp [resolve, h]

lemma resolve_eq_error_iff {e : FindError} :
    position.resolve parent = .error e ↔ e = .nodeNotFound ∧ position.IsStray parent := by
  cases position with
  | index n => simp [resolve, IsStray]
  | child node =>
    have hstray : IsStray parent (.child node) ↔ parent.indexOf? node = none := by
      simp [IsStray, Occurrence.indexOf?_eq_none_iff]
    rw [hstray]
    cases h : parent.indexOf? node <;> simp [resolve, h, eq_comm]

/-- A position that is no stray node starts somewhere. -/
lemma exists_startsAt (h : ¬ position.IsStray parent) : ∃ start, position.StartsAt parent start := by
  cases hr : position.resolve parent with
  | ok start => exact ⟨start, resolve_eq_ok_iff.1 hr⟩
  | error e => exact absurd (resolve_eq_error_iff.1 hr).2 h

end Position

/-! ## What is selected -/

/-- `found` lists the wanted children of `parent`: each of them once, in the order of their indices,
and nothing else. -/
def Occurrence.Selects (parent : Occurrence) (wanted : Occurrence → ℕ → Prop)
    (found : List Occurrence) : Prop :=
  ∃ indices : List ℕ, indices.Pairwise (· < ·) ∧
    (∀ index, index ∈ indices ↔ ∃ child, parent.child? index = some child ∧ wanted child index) ∧
    found.map some = indices.map parent.child?

namespace Occurrence

variable {parent : Occurrence} {wanted : Occurrence → ℕ → Prop} {found : List Occurrence}

/-- What is found is a wanted child. -/
lemma Selects.wanted_of_mem (h : parent.Selects wanted found) {child : Occurrence}
    (hchild : child ∈ found) :
    ∃ index, parent.child? index = some child ∧ wanted child index := by
  obtain ⟨indices, -, hmem, hfound⟩ := h
  have : some child ∈ indices.map parent.child? := hfound ▸ List.mem_map_of_mem hchild
  obtain ⟨index, hindex, hget⟩ := List.mem_map.1 this
  obtain ⟨other, hother, hwanted⟩ := (hmem index).1 hindex
  obtain rfl : child = other := Option.some.inj (hget.symm.trans hother)
  exact ⟨index, hget, hwanted⟩

/-- Only what is wanted of children matters. -/
lemma Selects.congr {other : Occurrence → ℕ → Prop} (h : parent.Selects wanted found)
    (heq : ∀ child index, parent.child? index = some child →
      (wanted child index ↔ other child index)) :
    parent.Selects other found := by
  obtain ⟨indices, hsorted, hmem, hfound⟩ := h
  refine ⟨indices, hsorted, fun index => (hmem index).trans ?_, hfound⟩
  constructor
  · rintro ⟨child, hchild, hwanted⟩
    exact ⟨child, hchild, (heq child index hchild).1 hwanted⟩
  · rintro ⟨child, hchild, hother⟩
    exact ⟨child, hchild, (heq child index hchild).2 hother⟩

/-- What is wanted determines what is found. -/
lemma Selects.unique {others : List Occurrence} (h : parent.Selects wanted found)
    (hother : parent.Selects wanted others) : found = others := by
  obtain ⟨indices, hsorted, hmem, hfound⟩ := h
  obtain ⟨otherIndices, hotherSorted, hotherMem, hothers⟩ := hother
  have hindices : indices = otherIndices :=
    hsorted.eq_of_mem_iff hotherSorted fun index => (hmem index).trans (hotherMem index).symm
  rw [hindices, ← hothers] at hfound
  exact List.map_injective_iff.2 (Option.some_injective _) hfound

/-- Numbered children in their own order, filtered, are a selection. -/
lemma selects_filter_drop (parent : Occurrence) (skipped : ℕ) (keep : Occurrence × ℕ → Bool) :
    parent.Selects (fun child index => skipped ≤ index ∧ keep (child, index) = true)
      (((parent.children.zipIdx.drop skipped).filter keep).map Prod.fst) := by
  refine ⟨((parent.children.zipIdx.drop skipped).filter keep).map Prod.snd, ?_, fun index => ?_, ?_⟩
  · have hall : (parent.children.zipIdx.map Prod.snd).Pairwise (· < ·) := by
      rw [List.zipIdx_map_snd]
      exact List.pairwise_lt_range'
    exact hall.sublist ((List.filter_sublist.trans (List.drop_sublist _ _)).map _)
  · -- A numbered child survives the skipping exactly when its number is large enough.
    have hdrop (child : Occurrence) : (child, index) ∈ parent.children.zipIdx.drop skipped ↔
        parent.child? index = some child ∧ skipped ≤ index := by
      rw [List.mem_drop_iff_getElem]
      constructor
      · rintro ⟨k, hk, hget⟩
        rw [List.getElem_zipIdx] at hget
        simp only [Prod.mk.injEq, Nat.zero_add] at hget
        obtain ⟨hchild, rfl⟩ := hget
        rw [← getElem?_children, List.getElem?_eq_some_iff]
        exact ⟨⟨by simpa [Nat.add_comm] using hk, by simpa [Nat.add_comm] using hchild⟩, by omega⟩
      · rintro ⟨hchild, hle⟩
        obtain ⟨k, rfl⟩ := Nat.exists_eq_add_of_le hle
        rw [← getElem?_children, List.getElem?_eq_some_iff] at hchild
        obtain ⟨hlt, hget⟩ := hchild
        refine ⟨k, by simpa [Nat.add_comm] using hlt, ?_⟩
        simp [hget]
    simp only [List.mem_map, List.mem_filter, Prod.exists, exists_eq_right, hdrop]
    simp only [and_assoc]
  · rw [List.map_map, List.map_map]
    refine List.map_congr_left fun entry hentry => ?_
    have hmem := List.mem_of_mem_drop (List.mem_of_mem_filter hentry)
    have := List.mem_zipIdx_iff_getElem?.1 hmem
    simpa using this.symm

/-- The search proper: the children beyond the start that pass, in order. -/
lemma matchesAfter_selects (hcount : parent.children.length ≤ maxWord) (start : ℕ) (test : Test) :
    parent.Selects (fun child index => start < index ∧ test.passes child index parent = true)
      (parent.matchesAfter start test) := by
  refine (selects_filter_drop parent (Word.next start) _).congr fun child index hchild => ?_
  have hlt := lt_length_of_child? hchild
  rw [Word.next_le_iff (by omega)]

end Occurrence

/-! ## The outcome of a search -/

lemma findAllAfter_of_not_isParent {parent : Occurrence} (h : ¬ parent.node.isParent = true)
    (position : Position) (test : Test) :
    findAllAfter parent position test = .error .invalidParent := by
  simp [findAllAfter, search, h, Except.map]

lemma findAllAfter_of_stray {parent : Occurrence} {position : Position}
    (h : parent.node.isParent = true) (hstray : position.IsStray parent) (test : Test) :
    findAllAfter parent position test = .error .nodeNotFound := by
  have hresolve := Position.resolve_eq_error_iff.2 ⟨rfl, hstray⟩
  simp [findAllAfter, search, h, hresolve, Except.map]

lemma findAllAfter_of_startsAt {parent : Occurrence} {position : Position} {start : ℕ}
    (h : parent.node.isParent = true) (hstart : position.StartsAt parent start) (test : Test) :
    findAllAfter parent position test = .ok (parent.matchesAfter start test) := by
  have hresolve := Position.resolve_eq_ok_iff.2 hstart
  simp [findAllAfter, search, h, hresolve, Except.map]

/-- The outcome of a search, for every parent, position and test.  It fails for a parent that cannot
be searched, whatever the position is; otherwise it fails for a position that is a node and none of
the children; and otherwise it finds exactly the children beyond the start that pass, each once and
in order, so never the start itself and nothing at all from the last child on. -/
theorem findAllAfter_outcome (parent : Occurrence) (position : Position) (test : Test)
    (hcount : parent.children.length ≤ maxWord) :
    (findAllAfter parent position test = .error .invalidParent ↔
      parent.node.kind = "" ∨ parent.node.children = none) ∧
    (findAllAfter parent position test = .error .nodeNotFound ↔
      (parent.node.kind ≠ "" ∧ parent.node.children ≠ none) ∧ position.IsStray parent) ∧
    ((parent.node.kind ≠ "" ∧ parent.node.children ≠ none) ∧ ¬ position.IsStray parent →
      ∃ start, position.StartsAt parent start ∧
        ∃ found, findAllAfter parent position test = .ok found ∧
          parent.Selects (fun child index => start < index ∧ test.passes child index parent = true)
            found ∧
          (∀ node, position = .child node → ∀ child ∈ found, child.place ≠ node.place) ∧
          (parent.children.length ≤ start + 1 → found = [])) := by
  have hinvalid : parent.node.kind = "" ∨ parent.node.children = none ↔
      ¬ parent.node.isParent = true := by
    rw [Node.isParent_iff]
    tauto
  rw [← Node.isParent_iff, hinvalid]
  by_cases hparent : parent.node.isParent = true
  · by_cases hstray : position.IsStray parent
    · simp [findAllAfter_of_stray hparent hstray, hparent, hstray]
    · obtain ⟨start, hstart⟩ := Position.exists_startsAt hstray
      have hfind := findAllAfter_of_startsAt hparent hstart test
      have hselects := Occurrence.matchesAfter_selects hcount start test
      refine ⟨by simp [hfind, hparent], by simp [hfind, hstray], fun _ =>
        ⟨start, hstart, _, hfind, hselects, ?_, fun hlast => ?_⟩⟩
      · rintro node rfl child hchild hplace
        obtain ⟨first, hfirst, hsame⟩ := hstart
        obtain ⟨index, hindex, hlt, -⟩ := hselects.wanted_of_mem hchild
        have := Occurrence.index_eq_of_place_eq hfirst hindex (hsame.trans hplace.symm)
        omega
      · refine List.eq_nil_iff_forall_not_mem.2 fun child hchild => ?_
        obtain ⟨index, hindex, hlt, -⟩ := hselects.wanted_of_mem hchild
        have := Occurrence.lt_length_of_child? hindex
        omega
  · simp [findAllAfter_of_not_isParent hparent, hparent]

/-- Of three siblings the first two are equal.  Starting at the second of them, by identity, and
keeping what has an even index finds the third alone. -/
theorem findAllAfter_outcome_twins :
    let twin := Node.literal "text" "a"
    let parent := Occurrence.root (.parent "root" [twin, twin, .leaf "break"]) 0
    let start : Position := .child ⟨⟨0, [1]⟩, twin⟩
    let test : Test := .anyOf [.kind "heading", .predicate fun _ index _ => index % 2 = 0]
    parent.children.length ≤ maxWord ∧ ¬ start.IsStray parent ∧
      ∃ found, findAllAfter parent start test = .ok found ∧
        found.map (·.place.path) = [[2]] := by
  intro twin parent start test
  have hcount : parent.children.length ≤ maxWord := by decide
  have hstart : ¬ start.IsStray parent := by
    rintro ⟨node, hnode, hnone⟩
    obtain rfl := Position.child.inj hnode
    exact hnone ⟨⟨0, [1]⟩, twin⟩ (by simp [parent, Occurrence.children, Occurrence.root,
      Node.parent, Place.child]) rfl
  refine ⟨hcount, hstart, ?_⟩
  obtain ⟨_, _, found, hfound, -⟩ :=
    (findAllAfter_outcome parent start test hcount).2.2 ⟨⟨by decide, by simp [parent,
      Occurrence.root, Node.parent]⟩, hstart⟩
  refine ⟨found, hfound, ?_⟩
  obtain rfl : [⟨⟨0, [2]⟩, Node.leaf "break"⟩] = found := Except.ok.inj hfound
  rfl

end SiblingQuery
