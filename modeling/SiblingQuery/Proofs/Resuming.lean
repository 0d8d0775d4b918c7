import SiblingQuery.Proofs.Search

/-!
# Resuming a search

A search can be taken up again, behind an index or behind a node that it has found.  What the second
search finds is what the first one had still before it: nothing is lost and nothing comes twice.

That is a fact about selections.  Two that meet at an index make up one (`Selects.append`), what a
selection lists behind one of its members is the selection beyond that member's index
(`Selects.behind`), and there is only one selection of what is wanted (`Selects.unique`).  Identity
enters where a found node becomes the start: its place gives its own index back, wherever equal
siblings stand, so a test sees the same indices in the second search as in the first.

A `Walk` goes from match to match, with a search at each step, until nothing is found any more.
-/

namespace SiblingQuery

namespace Occurrence

variable {parent child : Occurrence} {wanted : Occurrence → ℕ → Prop}

/-! ## Cutting and joining selections -/

/-- A selection up to an index, followed by one beyond it. -/
lemma Selects.append {bound : ℕ} {first rest : List Occurrence}
    (hfirst : parent.Selects (fun child index => wanted child index ∧ index ≤ bound) first)
    (hrest : parent.Selects (fun child index => wanted child index ∧ bound < index) rest) :
    parent.Selects wanted (first ++ rest) := by
  obtain ⟨lows, hlows, hmemLows, hfirst⟩ := hfirst
  obtain ⟨highs, hhighs, hmemHighs, hrest⟩ := hrest
  refine ⟨lows ++ highs, ?_, fun index => ?_, ?_⟩
  · rw [List.pairwise_append]
    refine ⟨hlows, hhighs, fun low hlow high hhigh => ?_⟩
    obtain ⟨-, -, -, hle⟩ := (hmemLows low).1 hlow
    obtain ⟨-, -, -, hlt⟩ := (hmemHighs high).1 hhigh
    exact hle.trans_lt hlt
  · rw [List.mem_append, hmemLows, hmemHighs]
    constructor
    · rintro (⟨child, hchild, hwanted, -⟩ | ⟨child, hchild, hwanted, -⟩)
      · exact ⟨child, hchild, hwanted⟩
      · exact ⟨child, hchild, hwanted⟩
    · rintro ⟨child, hchild, hwanted⟩
      by_cases hle : index ≤ bound
      · exact .inl ⟨child, hchild, hwanted, hle⟩
      · exact .inr ⟨child, hchild, hwanted, not_le.1 hle⟩
  · rw [List.map_append, List.map_append, hfirst, hrest]

/-- What is listed behind a member is what is wanted beyond its index. -/
lemma Selects.behind {before after : List Occurrence} {index : ℕ}
    (h : parent.Selects wanted (before ++ child :: after))
    (hchild : parent.child? index = some child) :
    parent.Selects (fun other i => wanted other i ∧ index < i) after := by
  obtain ⟨indices, hsorted, hmem, hfound⟩ := h
  rw [List.map_append, List.map_cons] at hfound
  obtain ⟨lows, tail, rfl, -, htail⟩ := List.map_eq_append_iff.1 hfound.symm
  obtain ⟨own, highs, rfl, hown, hhighs⟩ := List.map_eq_cons_iff.1 htail
  -- The member's entry in the list of indices is its own index, since no other child is there.
  obtain rfl : own = index := index_eq_of_place_eq hown hchild rfl
  obtain ⟨-, htailSorted, hcross⟩ := List.pairwise_append.1 hsorted
  obtain ⟨hbeyond, hhighsSorted⟩ := List.pairwise_cons.1 htailSorted
  refine ⟨highs, hhighsSorted, fun i => ?_, hhighs.symm⟩
  constructor
  · intro hi
    obtain ⟨other, hother, hwanted⟩ :=
      (hmem i).1 (List.mem_append_right lows (List.mem_cons_of_mem own hi))
    exact ⟨other, hother, hwanted, hbeyond i hi⟩
  · rintro ⟨other, hother, hwanted, hlt⟩
    rcases List.mem_append.1 ((hmem i).2 ⟨other, hother, hwanted⟩) with hlow | hrest
    · have := hcross i hlow own List.mem_cons_self
      omega
    · exact (List.mem_cons.1 hrest).resolve_left hlt.ne'

/-- What is selected lies at different places. -/
lemma Selects.pairwise_place_ne {found : List Occurrence} (h : parent.Selects wanted found) :
    found.Pairwise fun a b => a.place ≠ b.place := by
  obtain ⟨indices, hsorted, -, hfound⟩ := h
  have hplaces : (indices.map parent.child?).Pairwise fun a b =>
      ∀ x y, a = some x → b = some y → x.place ≠ y.place := by
    rw [List.pairwise_map]
    refine hsorted.imp fun {i j} hlt x y hx hy hplace => ?_
    exact hlt.ne (index_eq_of_place_eq hx hy hplace)
  rw [← hfound, List.pairwise_map] at hplaces
  exact hplaces.imp fun {a b} hne => hne a b rfl rfl

/-- Everything that is wanted up to an index can be listed. -/
lemma exists_selects_upTo (parent : Occurrence) (test : Test) (i j : ℕ) :
    ∃ between, parent.Selects (fun child index =>
      (i < index ∧ test.passes child index parent = true) ∧ index ≤ j) between := by
  have hselects := parent.selects_filter_drop 0 fun entry =>
    (decide (i < entry.2) && test.passes entry.1 entry.2 parent) && decide (entry.2 ≤ j)
  exact ⟨_, hselects.congr fun child index _ => by simp⟩

end Occurrence

/-! ## One search after another -/

section Resuming

variable {parent child : Occurrence} {position : Position} {test : Test}
  {found before after visited : List Occurrence}

/-- A search that succeeds has a parent and a start. -/
lemma exists_startsAt_of_findAllAfter (h : findAllAfter parent position test = .ok found) :
    parent.node.isParent = true ∧
      ∃ start, position.StartsAt parent start ∧ found = parent.matchesAfter start test := by
  by_cases hvalid : parent.node.isParent = true
  · by_cases hstray : position.IsStray parent
    · rw [findAllAfter_of_stray hvalid hstray] at h
      cases h
    · obtain ⟨start, hstart⟩ := Position.exists_startsAt hstray
      rw [findAllAfter_of_startsAt hvalid hstart] at h
      exact ⟨hvalid, start, hstart, (Except.ok.inj h).symm⟩
  · rw [findAllAfter_of_not_isParent hvalid] at h
    cases h

/-- A search that starts at a found node finds what was found behind it. -/
lemma findAllAfter_behind (hcount : parent.children.length ≤ maxWord)
    (h : findAllAfter parent position test = .ok (before ++ child :: after)) :
    findAllAfter parent (.child child) test = .ok after := by
  obtain ⟨hvalid, start, -, hfound⟩ := exists_startsAt_of_findAllAfter h
  have hselects := Occurrence.matchesAfter_selects hcount start test
  rw [← hfound] at hselects
  obtain ⟨index, hchild, hlt, -⟩ :=
    hselects.wanted_of_mem (List.mem_append_right before List.mem_cons_self)
  have hstart : (Position.child child).StartsAt parent index := ⟨child, hchild, rfl⟩
  have hafter : parent.Selects (fun other i => index < i ∧ test.passes other i parent = true)
      after := by
    refine (hselects.behind hchild).congr fun other i _ => ?_
    constructor
    · rintro ⟨⟨-, hpasses⟩, hbeyond⟩
      exact ⟨hbeyond, hpasses⟩
    · rintro ⟨hbeyond, hpasses⟩
      exact ⟨⟨hlt.trans hbeyond, hpasses⟩, hbeyond⟩
  rw [findAllAfter_of_startsAt hvalid hstart,
    (Occurrence.matchesAfter_selects hcount index test).unique hafter]

/-- A walk from match to match.  Each step searches from where the walk stands and goes to the first
node that is found; the walk ends where none is. -/
inductive Walk (parent : Occurrence) (test : Test) : Position → List Occurrence → Prop
  | done {position : Position} : findAllAfter parent position test = .ok [] →
      Walk parent test position []
  | step {position : Position} {next : Occurrence} {rest visited : List Occurrence} :
      findAllAfter parent position test = .ok (next :: rest) →
      Walk parent test (.child next) visited → Walk parent test position (next :: visited)

/-- A walk visits what the search from its start finds, and ends. -/
lemma walk_iff (hcount : parent.children.length ≤ maxWord) :
    Walk parent test position visited ↔ findAllAfter parent position test = .ok visited := by
  constructor
  · intro hwalk
    induction hwalk with
    | done h => exact h
    | @step position next rest visited h _ ih =>
      have hrest := findAllAfter_behind hcount (show _ = Except.ok ([] ++ next :: rest) from h)
      obtain rfl : visited = rest := Except.ok.inj (ih.symm.trans hrest)
      exact h
  · intro h
    induction visited generalizing position with
    | nil => exact .done h
    | cons next rest ih =>
      have hrest := findAllAfter_behind hcount (show _ = Except.ok ([] ++ next :: rest) from h)
      exact .step h (ih hrest)

end Resuming

/-- A search can be resumed without loss or repetition.  Behind a lower index it finds first what
lies up to a higher one and then what the search behind that finds.  Behind a node that a search has
found it finds what that search found after the node, the very same occurrences.  So a walk from
match to match, which visits one node at each step, visits what the first search found, each node
once and in order, and ends when it has gone through the list. -/
theorem findAllAfter_resumes {parent : Occurrence} (hvalid : parent.node.isParent = true)
    (hcount : parent.children.length ≤ maxWord) (test : Test) :
    (∀ i j : ℕ, i ≤ j → ∃ between rest,
      findAllAfter parent (.index j) test = .ok rest ∧
      findAllAfter parent (.index i) test = .ok (between ++ rest) ∧
      parent.Selects (fun child index =>
        (i < index ∧ index ≤ j) ∧ test.passes child index parent = true) between) ∧
    ∀ (position : Position) (found : List Occurrence),
      findAllAfter parent position test = .ok found →
        (∀ (k : ℕ) (hk : k < found.length),
          findAllAfter parent (.child found[k]) test = .ok (found.drop (k + 1))) ∧
        (found.Pairwise fun a b => a.place ≠ b.place) ∧
        ∀ visited, Walk parent test position visited ↔ visited = found := by
  refine ⟨fun i j hij => ?_, fun position found h => ⟨fun k hk => ?_, ?_, fun visited => ?_⟩⟩
  · obtain ⟨between, hbetween⟩ := parent.exists_selects_upTo test i j
    have hhigh := Occurrence.matchesAfter_selects hcount j test
    have hrest : parent.Selects (fun child index =>
        (i < index ∧ test.passes child index parent = true) ∧ j < index)
        (parent.matchesAfter j test) := by
      refine hhigh.congr fun child index _ => ?_
      constructor
      · rintro ⟨hlt, hpasses⟩
        exact ⟨⟨hij.trans_lt hlt, hpasses⟩, hlt⟩
      · rintro ⟨⟨-, hpasses⟩, hlt⟩
        exact ⟨hlt, hpasses⟩
    have hall := (Occurrence.matchesAfter_selects hcount i test).unique (hbetween.append hrest)
    have hi : (Position.index i).StartsAt parent i := rfl
    have hj : (Position.index j).StartsAt parent j := rfl
    refine ⟨between, _, findAllAfter_of_startsAt hvalid hj test, ?_,
      hbetween.congr fun child index _ => and_right_comm⟩
    rw [findAllAfter_of_startsAt hvalid hi, hall]
  · have hsplit : found = found.take k ++ found[k] :: found.drop (k + 1) := by
      rw [← List.drop_eq_getElem_cons hk, List.take_append_drop]
    exact findAllAfter_behind hcount (hsplit ▸ h)
  · obtain ⟨-, start, -, rfl⟩ := exists_startsAt_of_findAllAfter h
    exact (Occurrence.matchesAfter_selects hcount start test).pairwise_place_ne
  · rw [walk_iff hcount, h]
    simp [eq_comm]

/-- Of four equal siblings those with an odd index are found.  Starting at the second, by identity,
the fourth is left, and the walk from the first visits both and ends. -/
theorem findAllAfter_resumes_twins :
    let twin := Node.literal "text" "a"
    let parent := Occurrence.root (.parent "root" [twin, twin, twin, twin]) 0
    let second : Occurrence := ⟨⟨0, [1]⟩, twin⟩
    let fourth : Occurrence := ⟨⟨0, [3]⟩, twin⟩
    let odd : Test := .predicate fun _ index _ => index % 2 = 1
    parent.node.isParent = true ∧ parent.children.length ≤ maxWord ∧
      findAllAfter parent (.index 0) odd = .ok [second, fourth] ∧
      findAllAfter parent (.child second) odd = .ok [fourth] ∧
      Walk parent odd (.index 0) [second, fourth] ∧
      ∃ between rest, findAllAfter parent (.index maxWord) odd = .ok rest ∧
        findAllAfter parent (.index 0) odd = .ok (between ++ rest) := by
  intro twin parent second fourth odd
  have hvalid : parent.node.isParent = true := rfl
  have hcount : parent.children.length ≤ maxWord := by decide
  have hfound : findAllAfter parent (.index 0) odd = .ok [second, fourth] := rfl
  obtain ⟨hindices, hnodes⟩ := findAllAfter_resumes hvalid hcount odd
  obtain ⟨hbehind, -, hwalk⟩ := hnodes _ _ hfound
  obtain ⟨between, rest, hrest, hall, -⟩ := hindices 0 maxWord (Nat.zero_le _)
  exact ⟨hvalid, hcount, hfound, hbehind 0 (by decide), (hwalk _).2 rfl, between, rest, hrest, hall⟩

end SiblingQuery
