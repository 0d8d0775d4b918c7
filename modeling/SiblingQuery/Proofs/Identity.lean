import SiblingQuery.Proofs.Search

/-!
# Identity of the start

A search that starts at a node finds that node among the children by identity, never by content.
Every occurrence of a tree carries the path that leads to it (`place_of_descend?`), so whether one
occurrence is a child of another is a question about two paths: the path of the child is that of
the parent with one index more (`startsAt_child_iff`).  Equal siblings have different paths, and a
copy belongs to another owner.

`findAllAfter_child` says what follows for a search between any two occurrences of one tree.
-/

namespace SiblingQuery

namespace Occurrence

variable {top found : Occurrence}

/-! ## Paths through a tree -/

/-- A path in two parts is walked one part after the other. -/
lemma descend?_append (top : Occurrence) (p q : List ℕ) :
    top.descend? (p ++ q) = (top.descend? p).bind (·.descend? q) := by
  induction p generalizing top with
  | nil => rfl
  | cons index p ih =>
    rw [List.cons_append, descend?, descend?]
    cases hchild : top.child? index with
    | none => rfl
    | some child => exact ih child

/-- The last step of a path goes to a child. -/
lemma descend?_concat (top : Occurrence) (p : List ℕ) (index : ℕ) :
    top.descend? (p ++ [index]) = (top.descend? p).bind (·.child? index) := by
  rw [descend?_append]
  congr 1
  funext occurrence
  cases hchild : occurrence.child? index <;> simp [descend?, hchild]

/-- What a path leads to lies at that path. -/
lemma place_of_descend? {p : List ℕ} (h : top.descend? p = some found) :
    found.place = { top.place with path := top.place.path ++ p } := by
  induction p generalizing top with
  | nil =>
    obtain rfl : top = found := Option.some.inj h
    rw [List.append_nil]
  | cons index p ih =>
    rw [descend?] at h
    obtain ⟨child, hchild, hrest⟩ := Option.bind_eq_some_iff.1 h
    rw [ih hrest, place_of_child? hchild]
    simp [Place.child]

lemma place_of_descend?_root {tree : Node} {owner : ℕ} {p : List ℕ}
    (h : (root tree owner).descend? p = some found) : found.place = ⟨owner, p⟩ := by
  have hplace := place_of_descend? h
  simpa only [root, List.nil_append] using hplace

/-- Two occurrences of a tree are the same exactly when one path leads to both. -/
lemma place_eq_iff_of_descend?_root {tree : Node} {owner : ℕ} {p q : List ℕ} {a b : Occurrence}
    (ha : (root tree owner).descend? p = some a) (hb : (root tree owner).descend? q = some b) :
    a.place = b.place ↔ p = q := by
  rw [place_of_descend?_root ha, place_of_descend?_root hb]
  simp

end Occurrence

/-! ## Starting at a node of the tree -/

namespace Position

variable {tree : Node} {owner : ℕ} {p q : List ℕ} {parent start : Occurrence}

/-- A node of a tree is where a search below another node starts exactly when its path is that of
the parent with one index more; and the search then starts at this index. -/
lemma startsAt_child_iff (hp : (Occurrence.root tree owner).descend? p = some parent)
    (hq : (Occurrence.root tree owner).descend? q = some start) {index : ℕ} :
    (Position.child start).StartsAt parent index ↔ q = p ++ [index] := by
  have hstep : (Occurrence.root tree owner).descend? (p ++ [index]) = parent.child? index := by
    rw [Occurrence.descend?_concat, hp]
    rfl
  constructor
  · rintro ⟨child, hchild, hplace⟩
    have hlead := hstep.trans hchild
    exact ((Occurrence.place_eq_iff_of_descend?_root hlead hq).1 hplace).symm
  · rintro rfl
    exact ⟨start, hstep.symm.trans hq, rfl⟩

/-- A position that starts nowhere is a node that is none of the children. -/
lemma isStray_of_forall_not_startsAt {position : Position}
    (h : ∀ index, ¬ position.StartsAt parent index) : position.IsStray parent := by
  by_contra hstray
  obtain ⟨index, hindex⟩ := exists_startsAt hstray
  exact h index hindex

/-- What another owner holds is no child, whatever its content. -/
lemma isStray_of_owner_ne {copy : Occurrence} (h : copy.place.owner ≠ parent.place.owner) :
    (Position.child copy).IsStray parent := by
  apply isStray_of_forall_not_startsAt
  rintro index ⟨child, hchild, hplace⟩
  apply h
  rw [← hplace, Occurrence.place_of_child? hchild]
  rfl

end Position

/-- Identity, not equality, decides where a search starts.  For a parent and a start that two paths
lead to in one tree, the search succeeds exactly when the start's path is the parent's with one
index more, and it then finds the very nodes that the search after this index finds.  Every other
node of the tree is refused, be it the parent itself, an ancestor, a deeper descendant or a child
of another parent; and so is everything that another owner holds, as every copy is. -/
theorem findAllAfter_child {tree : Node} {owner : ℕ} {p q : List ℕ} {parent start : Occurrence}
    (hp : (Occurrence.root tree owner).descend? p = some parent)
    (hq : (Occurrence.root tree owner).descend? q = some start)
    (hparent : parent.node.isParent = true) (test : Test) :
    ((∃ found, findAllAfter parent (.child start) test = .ok found) ↔ ∃ i, q = p ++ [i]) ∧
    (∀ i, q = p ++ [i] →
      findAllAfter parent (.child start) test = findAllAfter parent (.index i) test) ∧
    ((¬ ∃ i, q = p ++ [i]) →
      findAllAfter parent (.child start) test = .error .nodeNotFound) ∧
    (∀ copy : Occurrence, copy.place.owner ≠ owner →
      findAllAfter parent (.child copy) test = .error .nodeNotFound) := by
  have hsome (i : ℕ) (h : q = p ++ [i]) :
      findAllAfter parent (.child start) test = .ok (parent.matchesAfter i test) :=
    findAllAfter_of_startsAt hparent ((Position.startsAt_child_iff hp hq).2 h) test
  have hnone (h : ¬ ∃ i, q = p ++ [i]) :
      findAllAfter parent (.child start) test = .error .nodeNotFound := by
    apply findAllAfter_of_stray hparent
    apply Position.isStray_of_forall_not_startsAt
    intro i hi
    exact h ⟨i, (Position.startsAt_child_iff hp hq).1 hi⟩
  refine ⟨⟨?_, ?_⟩, ?_, hnone, ?_⟩
  · rintro ⟨found, hfound⟩
    by_contra hno
    rw [hnone hno] at hfound
    cases hfound
  · rintro ⟨i, hi⟩
    exact ⟨_, hsome i hi⟩
  · intro i hi
    have hindex : (Position.index i).StartsAt parent i := rfl
    rw [hsome i hi, findAllAfter_of_startsAt hparent hindex test]
  · intro copy hcopy
    apply findAllAfter_of_stray hparent
    apply Position.isStray_of_owner_ne
    rwa [Occurrence.place_of_descend?_root hp]

/-- Two sections hold equal twins.  After the second twin of the first section nothing is left, as
after index one, while its equal sibling has one node after it; the twins of the other section and a
copy of the twin are refused. -/
theorem findAllAfter_child_twins :
    let twin := Node.literal "text" "a"
    let section_ := Node.parent "section" [twin, twin]
    let top := Occurrence.root (.parent "root" [section_, section_]) 0
    let start : Occurrence := ⟨⟨0, [0, 1]⟩, twin⟩
    let parent : Occurrence := ⟨⟨0, [0]⟩, section_⟩
    top.descend? [0] = some parent ∧ top.descend? [0, 1] = some start ∧
      parent.node.isParent = true ∧
      findAllAfter parent (.child start) .any = findAllAfter parent (.index 1) .any ∧
      (findAllAfter parent (.child ⟨⟨0, [0, 0]⟩, twin⟩) .any).map (·.map (·.place.path)) =
        .ok [[0, 1]] ∧
      findAllAfter parent (.child ⟨⟨0, [1, 1]⟩, twin⟩) .any = .error .nodeNotFound ∧
      findAllAfter parent (.child (start.copy 1)) .any = .error .nodeNotFound := by
  intro twin section_ top start parent
  have hp : top.descend? [0] = some parent := rfl
  have hq : top.descend? [0, 1] = some start := rfl
  have hother : top.descend? [1, 1] = some ⟨⟨0, [1, 1]⟩, twin⟩ := rfl
  have hparent : parent.node.isParent = true := rfl
  obtain ⟨-, hsame, -, hcopy⟩ := findAllAfter_child hp hq hparent .any
  obtain ⟨-, -, hrefused, -⟩ := findAllAfter_child hp hother hparent .any
  refine ⟨hp, hq, hparent, hsame 1 rfl, rfl, hrefused ?_, hcopy (start.copy 1) (by decide)⟩
  rintro ⟨i, hi⟩
  simp at hi

end SiblingQuery
