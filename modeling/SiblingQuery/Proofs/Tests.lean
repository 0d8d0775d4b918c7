import SiblingQuery.Proofs.Passes
import SiblingQuery.Query.Test

/-!
# What tests keep

A list of tests keeps what any of its members keeps, and `Test.parseAll` makes one test of several
texts to the same effect.  With no text at all it makes the test that keeps everything, so the
number of texts decides between two readings of a list: no member of an empty list keeps anything,
but a query without tests keeps every node.
-/

namespace SiblingQuery

namespace Test

variable {node parent : Occurrence} {index : ℕ} {texts : List String}

/-- Any of several tests. -/
lemma passesAny_iff {tests : List Test} :
    passesAny node index parent tests = true ↔
      ∃ test ∈ tests, test.passes node index parent = true := by
  induction tests with
  | nil => simp [passesAny]
  | cons test tests ih => simp [passesAny, ih]

lemma parseList_eq_mapM (texts : List String) : parseList texts = texts.mapM parse := by
  induction texts with
  | nil => rfl
  | cons text texts ih =>
    rw [parseList, List.mapM_cons, ih]
    cases parse text with
    | error e => rfl
    | ok test => cases texts.mapM parse <;> rfl

lemma parseList_eq_ok_iff {tests : List Test} :
    parseList texts = .ok tests ↔
      List.Forall₂ (fun text test => parse text = .ok test) texts tests := by
  rw [parseList_eq_mapM, mapM_eq_ok_iff]

/-- Texts make one test together if each of them makes one. -/
lemma exists_parseAll_iff :
    (∃ test, parseAll texts = .ok test) ↔ ∀ text ∈ texts, ∃ test, parse text = .ok test := by
  rw [← exists_forall₂_iff]
  simp only [← parseList_eq_ok_iff]
  unfold parseAll
  rcases parseList texts with e | tests
  · simp
  · rcases tests with _ | ⟨test, _ | ⟨other, tests⟩⟩ <;> simp

lemma exists_text_passes_iff {tests : List Test}
    (h : List.Forall₂ (fun text test => parse text = .ok test) texts tests) :
    (∃ text ∈ texts, ∃ test, parse text = .ok test ∧ test.passes node index parent = true) ↔
      ∃ test ∈ tests, test.passes node index parent = true :=
  exists_mem_iff_of_forall₂ h fun text _ test htext => by simp [htext]

/-- The one test of several texts keeps what the test of one of them keeps, and everything if there
is no text. -/
lemma passes_iff_of_parseAll {test : Test} (h : parseAll texts = .ok test) :
    test.passes node index parent = true ↔
      texts = [] ∨ ∃ text ∈ texts, ∃ one, parse text = .ok one ∧
        one.passes node index parent = true := by
  unfold parseAll at h
  cases hlist : parseList texts with
  | error e => simp [hlist] at h
  | ok tests =>
    rw [hlist] at h
    have hall := parseList_eq_ok_iff.1 hlist
    rw [exists_text_passes_iff hall]
    -- none, one or several tests: the three ways in which they become one
    cases hall with
    | nil =>
      obtain rfl := Except.ok.inj h
      simp [passes]
    | cons htext hrest =>
      cases hrest with
      | nil =>
        obtain rfl := Except.ok.inj h
        simp
      | cons hother hrest =>
        obtain rfl := Except.ok.inj h
        simp [passes, passesAny_iff]

end Test

end SiblingQuery
