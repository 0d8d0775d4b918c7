import SiblingQuery.Proofs.Refusals
import SiblingQuery.Proofs.Search
import SiblingQuery.Proofs.WrittenPositions

/-!
# Searches that JSON values specify

A search can be given by two JSON values, one for the position and one for the test.  Three readers
stand in a row, for the parent, the position and the test, and the first that refuses decides
(`findAllAfterJson_eq_error_iff`).  The search behind them has nothing left to refuse: it checks the
parent again, and a position that has been read is an index.

So the outcome is a matter of the two values.  A position is read by its value as a number
(`Number.value`), be it an integer or a double; what is no number is node-shaped or not.
-/

namespace SiblingQuery

/-- The number itself, be it an integer or a double. -/
def Number.value : Number → ℚ
  | .int n => n
  | .float d => d.value

/-- An object with a text as `type`. -/
def Json.IsNodeShaped (value : Json) : Prop :=
  ∃ members name, value = .obj members ∧ Members.get? "type" members = some (.str name)

/-! ## Positions given as JSON values -/

namespace Position

variable {position : Json} {number : Number}

lemma follows_ofJson_of_value {n : ℤ} (h : number.value = n) : Follows n (ofJson (.num number)) := by
  cases number with
  | int i =>
    obtain rfl : i = n := Int.cast_injective h
    exact follows_ofInt i
  | float d => exact follows_ofDouble_of_value h

lemma ofJson_of_not_whole (h : ∀ n : ℤ, number.value ≠ n) :
    ofJson (.num number) = .error .invalidIndex := by
  cases number with
  | int i => exact absurd rfl (h i)
  | float d => exact ofDouble_of_not_whole h

/-- A number that is natural is an index, the largest word if it is beyond the words. -/
lemma ofJson_natCast {k : ℕ} (h : number.value = k) :
    ofJson (.num number) = .ok (.index (min k maxWord)) := by
  have hfollows : Follows k (ofJson (.num number)) :=
    follows_ofJson_of_value (by rw [h, Int.cast_natCast])
  rw [hfollows.index (Int.natCast_nonneg k), Int.toNat_natCast]

lemma ofJson_num_eq_invalidIndex_iff : ofJson (.num number) = .error .invalidIndex ↔
    number.value < 0 ∨ ∀ n : ℤ, number.value ≠ n := by
  by_cases hwhole : ∃ n : ℤ, number.value = n
  · obtain ⟨n, hn⟩ := hwhole
    have hfollows := follows_ofJson_of_value hn
    rw [or_iff_left fun hnone => hnone n hn, hn, Int.cast_lt_zero]
    constructor
    · intro hinvalid
      by_contra hnonneg
      rw [hfollows.index (not_lt.1 hnonneg)] at hinvalid
      cases hinvalid
    · exact hfollows.invalid
  · push Not at hwhole
    exact ⟨fun _ => .inr hwhole, fun _ => ofJson_of_not_whole hwhole⟩

lemma exists_index_of_ofJson {read : Position} (h : ofJson position = .ok read) :
    ∃ start, read = .index start := by
  cases position with
  | num number => exact (isJudgement_ofJson number).exists_index h
  | obj members =>
    rw [ofJson] at h
    split at h <;> cases h
  | _ => cases h

lemma not_isNodeShaped_num (number : Number) : ¬ (Json.num number).IsNodeShaped := by
  rintro ⟨members, name, h, -⟩
  cases h

/-- A value that is no number is no position: a node if it is shaped like one, and else nothing. -/
lemma ofJson_of_not_num (h : ∀ number, position ≠ .num number) :
    ofJson position = .error .nodeNotFound ∧ position.IsNodeShaped ∨
      ofJson position = .error .invalidPosition ∧ ¬ position.IsNodeShaped := by
  cases position with
  | num number => exact absurd rfl (h number)
  | obj members =>
    have hshape : (Json.obj members).IsNodeShaped ↔
        ∃ name, Members.get? "type" members = some (.str name) := by
      constructor
      · rintro ⟨_, name, ⟨⟩, hname⟩
        exact ⟨name, hname⟩
      · rintro ⟨name, hname⟩
        exact ⟨members, name, rfl, hname⟩
    rw [ofJson, hshape]
    cases htype : Members.get? "type" members with
    | none => exact .inr ⟨rfl, by simp⟩
    | some value =>
      cases value with
      | str name => exact .inl ⟨rfl, name, rfl⟩
      | _ => exact .inr ⟨rfl, by simp⟩
  | _ =>
    refine .inr ⟨rfl, ?_⟩
    rintro ⟨members, name, h, -⟩
    cases h

/-- What a position is refused for. -/
lemma ofJson_eq_error_iff (position : Json) (e : FindError) : ofJson position = .error e ↔
    (e = .nodeNotFound ∧ position.IsNodeShaped) ∨
    (e = .invalidPosition ∧ ¬ position.IsNodeShaped ∧ ∀ number, position ≠ .num number) ∨
    (e = .invalidIndex ∧ ∃ number, position = .num number ∧
      (number.value < 0 ∨ ∀ n : ℤ, number.value ≠ n)) := by
  by_cases hnum : ∃ number, position = .num number
  · -- A number is judged either way, so what is open is only whether it is an index.
    obtain ⟨number, rfl⟩ := hnum
    have hshape := not_isNodeShaped_num number
    have hindex := @ofJson_num_eq_invalidIndex_iff number
    rcases isJudgement_ofJson number with ⟨k, hk⟩ | hinvalid
    · have hno : ¬ (number.value < 0 ∨ ∀ n : ℤ, number.value ≠ n) := by
        rw [← hindex, hk]
        exact nofun
      simp [hk, hshape, hno]
    · have hno := hindex.1 hinvalid
      simp only [hinvalid, hshape, Except.error.injEq, Json.num.injEq, exists_eq_left', hno]
      simp [eq_comm]
  · push Not at hnum
    rcases ofJson_of_not_num hnum with ⟨hrefused, hshape⟩ | ⟨hrefused, hshape⟩
    · simp [hrefused, hshape, hnum, eq_comm]
    · simp [hrefused, hshape, hnum, eq_comm]

end Position

/-! ## Parent, position and test in a row -/

section Searches

variable {parent : Occurrence} {position test : Json}

lemma findAllAfterJson_of_not_isParent (h : ¬ parent.node.isParent = true) (position test : Json) :
    findAllAfterJson parent position test = .error .invalidParent := by
  simp [findAllAfterJson, searchJson, h, Except.map]

/-- Once both values have been read, nothing is refused any more. -/
lemma findAllAfterJson_of_ok {start : ℕ} {typed : Test} (hvalid : parent.node.isParent = true)
    (hposition : Position.ofJson position = .ok (.index start))
    (htest : Test.ofJson test = .ok typed) :
    findAllAfterJson parent position test = findAllAfter parent (.index start) typed ∧
      ∃ found, findAllAfter parent (.index start) typed = .ok found := by
  have hstart : (Position.index start).StartsAt parent start := rfl
  refine ⟨?_, _, findAllAfter_of_startsAt hvalid hstart typed⟩
  simp [findAllAfterJson, searchJson, findAllAfter, hvalid, hposition, htest]

/-- The position is read before the test, and the first that is refused decides. -/
lemma findAllAfterJson_eq_error_iff (hvalid : parent.node.isParent = true) (e : FindError) :
    findAllAfterJson parent position test = .error e ↔
      Position.ofJson position = .error e ∨
        (∃ start, Position.ofJson position = .ok (.index start)) ∧ Test.ofJson test = .error e := by
  cases hposition : Position.ofJson position with
  | error e' => simp [findAllAfterJson, searchJson, hvalid, hposition, Except.map]
  | ok typed =>
    obtain ⟨start, rfl⟩ := Position.exists_index_of_ofJson hposition
    cases htest : Test.ofJson test with
    | error e' => simp [findAllAfterJson, searchJson, hvalid, hposition, htest, Except.map]
    | ok typed =>
      obtain ⟨hsame, found, hfound⟩ := findAllAfterJson_of_ok hvalid hposition htest
      simp [hsame, hfound]

/-- What is said of no test is said of the position. -/
lemma findAllAfterJson_eq_error_of_position (hvalid : parent.node.isParent = true) {e : FindError}
    (he : ∀ kind, e ≠ .invalidTest kind) :
    findAllAfterJson parent position test = .error e ↔ Position.ofJson position = .error e := by
  rw [findAllAfterJson_eq_error_iff hvalid, or_iff_left]
  rintro ⟨-, htest⟩
  obtain ⟨kind, -, hkind⟩ := (Test.ofJson_eq_error_iff test e).1 htest
  exact he kind hkind

/-- The outcome of a search that two JSON values specify, for every parent and any values.  A node
that cannot be searched is refused whatever they are.  Then the position is judged whatever the test
is: an object with a text as `type` is a node that is nobody's child, everything else but a number is
no position, and a number that is negative or not whole is no index.  Behind a natural number the
test is judged, and what is said of it is what the search says.  If it is a test, then the search
finds what the typed one finds behind this number, or behind the largest word if that is smaller,
and does not fail. -/
theorem findAllAfterJson_outcome (parent : Occurrence) (position test : Json) :
    (findAllAfterJson parent position test = .error .invalidParent ↔
      ¬ parent.node.isParent = true) ∧
    (parent.node.isParent = true →
      (findAllAfterJson parent position test = .error .nodeNotFound ↔ position.IsNodeShaped) ∧
      (findAllAfterJson parent position test = .error .invalidPosition ↔
        ¬ position.IsNodeShaped ∧ ∀ number, position ≠ .num number) ∧
      (findAllAfterJson parent position test = .error .invalidIndex ↔
        ∃ number, position = .num number ∧ (number.value < 0 ∨ ∀ n : ℤ, number.value ≠ n)) ∧
      ∀ (number : Number) (k : ℕ), position = .num number → number.value = k →
        (∀ e, findAllAfterJson parent position test = .error e ↔ Test.ofJson test = .error e) ∧
        (∀ e, Test.ofJson test = .error e → ∃ kind, e = .invalidTest kind) ∧
        ∀ typed, Test.ofJson test = .ok typed →
          ∃ found, findAllAfterJson parent position test = .ok found ∧
            findAllAfter parent (.index (min k maxWord)) typed = .ok found) := by
  refine ⟨⟨fun h hvalid => ?_, fun h => findAllAfterJson_of_not_isParent h position test⟩,
    fun hvalid => ⟨?_, ?_, ?_, fun number k hposition hk => ?_⟩⟩
  · rw [findAllAfterJson_eq_error_of_position hvalid (by simp), Position.ofJson_eq_error_iff] at h
    simp at h
  · rw [findAllAfterJson_eq_error_of_position hvalid (by simp), Position.ofJson_eq_error_iff]
    simp
  · rw [findAllAfterJson_eq_error_of_position hvalid (by simp), Position.ofJson_eq_error_iff]
    simp
  · rw [findAllAfterJson_eq_error_of_position hvalid (by simp), Position.ofJson_eq_error_iff]
    simp
  · subst hposition
    have hindex := Position.ofJson_natCast hk
    refine ⟨fun e => ?_, fun e he => ?_, fun typed htyped => ?_⟩
    · rw [findAllAfterJson_eq_error_iff hvalid, hindex]
      simp
    · obtain ⟨kind, -, rfl⟩ := (Test.ofJson_eq_error_iff test e).1 he
      exact ⟨kind, rfl⟩
    · obtain ⟨hsame, found, hfound⟩ := findAllAfterJson_of_ok hvalid hindex htyped
      exact ⟨found, hsame.trans hfound, hfound⟩

/-- The position is refused before the test, and the parent before both.  The double one is the index
one, and behind it the third child is found; with a number as the test nothing is. -/
theorem findAllAfterJson_outcome_double :
    let text := Node.literal "text" "a"
    let parent := Occurrence.root (.parent "root" [text, .leaf "break", text]) 0
    let one : Json := .num (.float ⟨false, 2 ^ 52, -52⟩)
    parent.node.isParent = true ∧
      findAllAfterJson parent one (.str "text") = .ok [⟨⟨0, [2]⟩, text⟩] ∧
      findAllAfterJson parent one (.arr [.num (.int 3), .bool true]) =
        .error (.invalidTest "number") ∧
      findAllAfterJson parent (.num (.int (-1))) (.bool true) = .error .invalidIndex ∧
      findAllAfterJson parent (.obj [("type", .str "text")]) (.bool true) = .error .nodeNotFound ∧
      findAllAfterJson (.root text 0) .null (.bool true) = .error .invalidParent := by
  intro text parent one
  have hvalid : parent.node.isParent = true := rfl
  have hvalue : Number.value (.float ⟨false, 2 ^ 52, -52⟩) = (1 : ℕ) := by
    norm_num [Number.value, Double.value, Double.magnitude]
  refine ⟨hvalid, ?_, ?_, ?_, ?_, (findAllAfterJson_outcome _ _ _).1.2 (by decide)⟩
  · obtain ⟨-, -, -, hnatural⟩ := (findAllAfterJson_outcome parent one (.str "text")).2 hvalid
    obtain ⟨-, -, hfinds⟩ := hnatural _ 1 rfl hvalue
    obtain ⟨found, hfound, hsame⟩ := hfinds _ rfl
    exact hfound.trans (hsame.symm.trans rfl)
  · obtain ⟨-, -, -, hnatural⟩ := (findAllAfterJson_outcome parent one
      (.arr [.num (.int 3), .bool true])).2 hvalid
    exact ((hnatural _ 1 rfl hvalue).1 _).2 rfl
  · refine ((findAllAfterJson_outcome parent _ _).2 hvalid).2.2.1.2 ⟨_, rfl, .inl ?_⟩
    norm_num [Number.value]
  · exact ((findAllAfterJson_outcome parent _ _).2 hvalid).1.2 ⟨_, _, rfl, rfl⟩

end Searches

end SiblingQuery
