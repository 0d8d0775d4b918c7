import SiblingQuery.Proofs.Search
import SiblingQuery.Proofs.Tests

/-!
# Searching for any of several tests

What a list of tests finds is the union of what its members find.  Results are lists of nodes in
the order of the children, so the union is one of indices (`Occurrence.Unites`): a child that
several members keep stands in it once, at its own place.

That the list keeps a node if a member does (`Test.passes_anyOf_iff`) is all that counts of it.
So the order of the members, their repetition and lists within lists make no difference, and the
test for any node takes everything in at any depth (`Test.Lists`).  Texts make a list only if there
are at least two of them, but the union law holds for a single text too.
-/

namespace SiblingQuery

/-! ## Lists of tests -/

namespace Test

variable {node parent : Occurrence} {index : ℕ} {tests before members after : List Test}
  {test : Test}

/-- The test stands in the list, or in a list that stands in it, at any depth. -/
inductive Lists : List Test → Test → Prop
  | member {tests : List Test} {test : Test} : test ∈ tests → Lists tests test
  | within {tests members : List Test} {test : Test} :
      .anyOf members ∈ tests → Lists members test → Lists tests test

lemma passes_anyOf_iff : (anyOf tests).passes node index parent = true ↔
    ∃ test ∈ tests, test.passes node index parent = true := by
  rw [passes, passesAny_iff]

/-- A list keeps what is kept by a test at any depth in it. -/
lemma Lists.passes_anyOf (h : Lists tests test) (hpasses : test.passes node index parent = true) :
    (anyOf tests).passes node index parent = true := by
  induction h with
  | member hmem => exact passes_anyOf_iff.2 ⟨_, hmem, hpasses⟩
  | within hmem _ ih => exact passes_anyOf_iff.2 ⟨_, hmem, ih hpasses⟩

/-- A list within a list can be written out in its place. -/
lemma passes_anyOf_within :
    (anyOf (before ++ anyOf members :: after)).passes node index parent = true ↔
      (anyOf (before ++ (members ++ after))).passes node index parent = true := by
  simp only [passes_anyOf_iff, List.mem_append, List.mem_cons, or_and_right, exists_or,
    exists_eq_left]

/-- Several texts make a test that keeps what one of their tests keeps. -/
lemma passes_parseAll_iff {texts : List String} (hne : texts ≠ [])
    (hparse : List.Forall₂ (fun text test => parse text = .ok test) texts tests)
    (hall : parseAll texts = .ok test) (node parent : Occurrence) (index : ℕ) :
    test.passes node index parent = true ↔
      ∃ one ∈ tests, one.passes node index parent = true := by
  rw [passes_iff_of_parseAll hall, or_iff_right hne, exists_text_passes_iff hparse]

end Test

/-! ## Indices of what is found -/

namespace Occurrence

variable {parent : Occurrence} {wanted : Occurrence → ℕ → Prop} {found : List Occurrence}
  {start index : ℕ} {test other : Test}

/-- The indices of what was found among the children of its parent, by identity. -/
def indices (parent : Occurrence) (found : List Occurrence) : List ℕ :=
  found.filterMap parent.indexOf?

/-- The indices of `found` are the union of the indices of the single results, in ascending order
and each of them once; and `found` lists the children with these indices. -/
structure Unites (parent : Occurrence) (results : List (List Occurrence))
    (found : List Occurrence) : Prop where
  ascending : (parent.indices found).Pairwise (· < ·)
  mem_iff : ∀ index, index ∈ parent.indices found ↔ ∃ result ∈ results, index ∈ parent.indices result
  children : found.map some = (parent.indices found).map parent.child?

/-- The indices of a selection are those of the wanted children. -/
lemma Selects.indices (h : parent.Selects wanted found) :
    (parent.indices found).Pairwise (· < ·) ∧
      (∀ index, index ∈ parent.indices found ↔
        ∃ child, parent.child? index = some child ∧ wanted child index) ∧
      found.map some = (parent.indices found).map parent.child? := by
  obtain ⟨indices, hsorted, hmem, hfound⟩ := h
  have hindices : parent.indices found = indices := by
    have hown : ∀ index ∈ indices, (parent.child? index).bind parent.indexOf? = some index := by
      intro index hindex
      obtain ⟨child, hchild, -⟩ := (hmem index).1 hindex
      rw [hchild]
      exact indexOf?_eq_some_iff.2 ⟨child, hchild, rfl⟩
    calc parent.indices found = (found.map some).filterMap (·.bind parent.indexOf?) := by
          rw [List.filterMap_map]
          rfl
      _ = indices.filterMap fun index => (parent.child? index).bind parent.indexOf? := by
          rw [hfound, List.filterMap_map]
          rfl
      _ = indices.filterMap some := List.filterMap_congr hown
      _ = indices := List.filterMap_some
  rw [hindices]
  exact ⟨hsorted, hmem, hfound⟩

/-! ## What depends on the members alone -/

/-- Tests that keep the same children find the same. -/
lemma matchesAfter_congr (hcount : parent.children.length ≤ maxWord)
    (h : ∀ child index, test.passes child index parent = true ↔
      other.passes child index parent = true) :
    parent.matchesAfter start test = parent.matchesAfter start other := by
  refine (matchesAfter_selects hcount start test).unique ?_
  refine (matchesAfter_selects hcount start other).congr fun child index _ => ?_
  rw [h child index]

/-- A test that keeps every child finds all that comes after the start. -/
lemma matchesAfter_of_forall_passes (hcount : parent.children.length ≤ maxWord)
    (h : ∀ child index, test.passes child index parent = true) :
    parent.matchesAfter start test = parent.children.drop (start + 1) := by
  have hall : parent.matchesAfter start test = parent.children.drop (Word.next start) := by
    unfold matchesAfter
    rw [List.filter_eq_self.2 fun entry _ => h entry.1 entry.2, List.map_drop, List.zipIdx_map_fst]
  -- At the largest word the two starts differ, but no child is that far.
  rw [hall, Word.next]
  rcases le_total (start + 1) maxWord with hle | hge
  · rw [min_eq_left hle]
  · rw [min_eq_right hge, List.drop_eq_nil_of_le hcount,
      List.drop_eq_nil_of_le (hcount.trans hge)]

/-- A test that keeps what one of several tests keeps finds the union of what they find. -/
lemma unites_matchesAfter {tests : List Test} (hcount : parent.children.length ≤ maxWord)
    (h : ∀ child index, test.passes child index parent = true ↔
      ∃ one ∈ tests, one.passes child index parent = true) :
    parent.Unites (tests.map (parent.matchesAfter start)) (parent.matchesAfter start test) := by
  obtain ⟨hascending, hmem, hchildren⟩ := (matchesAfter_selects hcount start test).indices
  refine ⟨hascending, fun index => ?_, hchildren⟩
  have hone (one : Test) : index ∈ parent.indices (parent.matchesAfter start one) ↔
      ∃ child, parent.child? index = some child ∧
        start < index ∧ one.passes child index parent = true :=
    (matchesAfter_selects hcount start one).indices.2.1 index
  rw [hmem]
  simp only [List.mem_map, exists_exists_and_eq_and, hone]
  constructor
  · rintro ⟨child, hchild, hlt, hpasses⟩
    obtain ⟨one, hmember, hone⟩ := (h child index).1 hpasses
    exact ⟨one, hmember, child, hchild, hlt, hone⟩
  · rintro ⟨one, hmember, child, hchild, hlt, hone⟩
    exact ⟨child, hchild, hlt, (h child index).2 ⟨one, hmember, hone⟩⟩

end Occurrence

/-! ## The union law -/

section Union

variable {parent : Occurrence} {position : Position} {start : ℕ}

lemma forall₂_findAllAfter (hvalid : parent.node.isParent = true)
    (hstart : position.StartsAt parent start) (tests : List Test) :
    List.Forall₂ (fun test result => findAllAfter parent position test = .ok result) tests
      (tests.map (parent.matchesAfter start)) := by
  rw [List.forall₂_map_right_iff, List.forall₂_same]
  exact fun test _ => findAllAfter_of_startsAt hvalid hstart test

/-- The union law for lists of tests.  A list finds the children that one of its members finds, each
once and in order, so nothing if it is empty.  It matters which members there are, not in which order
or how often; a list within the list can be written out in its place; and the list finds everything
after the start if the test for any node stands in it, however deep.  Texts that are all tests find
together what the list of their tests finds, be there one of them or several. -/
theorem findAllAfter_anyOf (hvalid : parent.node.isParent = true)
    (hcount : parent.children.length ≤ maxWord) (hresolve : position.resolve parent = .ok start) :
    (∀ tests : List Test, ∃ results found,
      List.Forall₂ (fun test result => findAllAfter parent position test = .ok result) tests
        results ∧
      findAllAfter parent position (.anyOf tests) = .ok found ∧
      parent.Unites results found ∧
      (tests = [] → found = []) ∧
      (∀ others : List Test, (∀ test, test ∈ others ↔ test ∈ tests) →
        findAllAfter parent position (.anyOf others) = .ok found) ∧
      (∀ before members after, tests = before ++ .anyOf members :: after →
        findAllAfter parent position (.anyOf (before ++ (members ++ after))) = .ok found) ∧
      (Test.Lists tests .any → found = parent.children.drop (start + 1))) ∧
    ∀ (texts : List String) (tests : List Test), texts ≠ [] →
      List.Forall₂ (fun text test => Test.parse text = .ok test) texts tests →
      ∃ test results found,
        Test.parseAll texts = .ok test ∧
        List.Forall₂ (fun test result => findAllAfter parent position test = .ok result) tests
          results ∧
        findAllAfter parent position test = .ok found ∧
        parent.Unites results found ∧
        findAllAfter parent position (.anyOf tests) = .ok found := by
  have hstart := Position.resolve_eq_ok_iff.1 hresolve
  have hfind := findAllAfter_of_startsAt hvalid hstart
  refine ⟨fun tests => ⟨_, _, forall₂_findAllAfter hvalid hstart tests, hfind _,
    Occurrence.unites_matchesAfter hcount fun _ _ => Test.passes_anyOf_iff, ?_, ?_, ?_, ?_⟩,
    fun texts tests hne hparse => ?_⟩
  · rintro rfl
    refine List.eq_nil_iff_forall_not_mem.2 fun child hchild => ?_
    obtain ⟨index, -, -, hpasses⟩ :=
      (Occurrence.matchesAfter_selects hcount start _).wanted_of_mem hchild
    obtain ⟨test, htest, -⟩ := Test.passes_anyOf_iff.1 hpasses
    exact List.not_mem_nil htest
  · intro others hothers
    rw [hfind]
    refine congrArg Except.ok (Occurrence.matchesAfter_congr hcount fun child index => ?_)
    simp only [Test.passes_anyOf_iff, hothers]
  · rintro before members after rfl
    rw [hfind]
    exact congrArg Except.ok
      (Occurrence.matchesAfter_congr hcount fun child index => Test.passes_anyOf_within.symm)
  · intro hany
    refine Occurrence.matchesAfter_of_forall_passes hcount fun child index => ?_
    exact hany.passes_anyOf rfl
  · obtain ⟨test, hall⟩ := Test.exists_parseAll_iff.2 (exists_forall₂_iff.1 ⟨tests, hparse⟩)
    have hpasses (child : Occurrence) (index : ℕ) :=
      Test.passes_parseAll_iff hne hparse hall child parent index
    refine ⟨test, _, _, hall, forall₂_findAllAfter hvalid hstart tests, hfind test,
      Occurrence.unites_matchesAfter hcount hpasses, ?_⟩
    rw [hfind]
    refine congrArg Except.ok (Occurrence.matchesAfter_congr hcount fun child index => ?_)
    rw [Test.passes_anyOf_iff, hpasses]

/-- Starting at the first of four siblings, a type and a list within the list keep the last two,
though three members keep the last one; a list that holds the test for any node keeps the second
too, and the texts of a single test make no list at all. -/
theorem findAllAfter_anyOf_nested :
    let text := Node.literal "text" "a"
    let parent := Occurrence.root (.parent "root" [text, text, .leaf "break", .leaf "html"]) 0
    let start : Position := .child ⟨⟨0, [0]⟩, text⟩
    let late : Test := .predicate fun _ index _ => 2 ≤ index
    let tests : List Test := [.kind "html", .anyOf [late, .kind "html"]]
    parent.node.isParent = true ∧ parent.children.length ≤ maxWord ∧
      start.resolve parent = .ok 0 ∧
      (∃ results found, findAllAfter parent start (.anyOf tests) = .ok found ∧
        parent.Unites results found ∧ parent.indices found = [2, 3] ∧
        findAllAfter parent start (.anyOf [.kind "html", late, .kind "html"]) = .ok found) ∧
      (∃ found, findAllAfter parent start (.anyOf [.kind "html", .anyOf [late, .any]]) = .ok found ∧
        found = parent.children.drop 1) ∧
      ∃ test, Test.parseAll ["break"] = .ok test ∧
        findAllAfter parent start test = findAllAfter parent start (.anyOf [.kind "break"]) := by
  intro text parent start late tests
  have hvalid : parent.node.isParent = true := rfl
  have hcount : parent.children.length ≤ maxWord := by decide
  have hresolve : start.resolve parent = .ok 0 := rfl
  have hbreak : Test.parse "break" = .ok (.kind "break") := rfl
  obtain ⟨hlists, htexts⟩ := findAllAfter_anyOf hvalid hcount hresolve
  refine ⟨hvalid, hcount, hresolve, ?_, ?_, ?_⟩
  · obtain ⟨results, found, -, hfound, hunites, -, -, hwithin, -⟩ := hlists tests
    refine ⟨results, found, hfound, hunites, ?_, hwithin [.kind "html"] _ [] rfl⟩
    obtain rfl : [⟨⟨0, [2]⟩, .leaf "break"⟩, ⟨⟨0, [3]⟩, .leaf "html"⟩] = found :=
      Except.ok.inj hfound
    rfl
  · obtain ⟨-, found, -, hfound, -, -, -, -, hany⟩ := hlists [.kind "html", .anyOf [late, .any]]
    have hdeep : Test.Lists [late, .any] .any := .member (List.mem_cons_of_mem _ List.mem_cons_self)
    exact ⟨found, hfound, hany (.within (List.mem_cons_of_mem _ List.mem_cons_self) hdeep)⟩
  · obtain ⟨test, -, found, hall, -, hfound, -, hsame⟩ :=
      htexts ["break"] [.kind "break"] (by decide) (.cons hbreak .nil)
    exact ⟨test, hall, hfound.trans hsame.symm⟩

end Union

end SiblingQuery
