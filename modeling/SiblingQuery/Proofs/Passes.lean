import Mathlib.Data.List.Forall2

/-!
# Passes over lists

A reader goes through a list of items and stops at the first that it refuses.  Such a pass succeeds
exactly when every single reading does, and its answers are theirs, in order.  `List.Forall₂` says
the latter, and whatever is known of the single readings can then be taken apart by cases on it.
-/

namespace SiblingQuery

variable {α β : Type} {items : List α}

/-- A list of answers can be found item by item. -/
lemma exists_forall₂_iff {R : α → β → Prop} :
    (∃ answers, List.Forall₂ R items answers) ↔ ∀ item ∈ items, ∃ answer, R item answer := by
  induction items with
  | nil => simp
  | cons item items ih =>
    simp only [List.forall_mem_cons, ← ih]
    constructor
    · rintro ⟨_, _ | ⟨hitem, hitems⟩⟩
      exact ⟨⟨_, hitem⟩, ⟨_, hitems⟩⟩
    · rintro ⟨⟨answer, hitem⟩, ⟨answers, hitems⟩⟩
      exact ⟨answer :: answers, .cons hitem hitems⟩

/-- Every answer is the answer for one of the items. -/
lemma exists_of_forall₂ {R : α → β → Prop} {answers : List β} (h : List.Forall₂ R items answers) :
    ∀ answer ∈ answers, ∃ item ∈ items, R item answer := by
  induction h with
  | nil => simp
  | cons hitem _ ih =>
    refine List.forall_mem_cons.2 ⟨⟨_, by simp, hitem⟩, fun answer hanswer => ?_⟩
    obtain ⟨other, hother, heq⟩ := ih answer hanswer
    exact ⟨other, List.mem_cons_of_mem _ hother, heq⟩

/-- If items have a property exactly when their answers do, then so does one of the items exactly
when one of the answers does. -/
lemma exists_mem_iff_of_forall₂ {R : α → β → Prop} {p : α → Prop} {q : β → Prop}
    {answers : List β} (h : List.Forall₂ R items answers)
    (hpq : ∀ item ∈ items, ∀ answer, R item answer → (p item ↔ q answer)) :
    (∃ item ∈ items, p item) ↔ ∃ answer ∈ answers, q answer := by
  induction h with
  | nil => simp
  | @cons item answer items answers hitem _ ih =>
    rw [List.exists_mem_cons_iff, List.exists_mem_cons_iff,
      hpq item List.mem_cons_self answer hitem,
      ih fun other hother => hpq other (List.mem_cons_of_mem _ hother)]

/-- What follows for the answer of each single item follows for the pass. -/
lemma forall₂_imp_of_mem {R S : α → β → Prop} {answers : List β} (h : List.Forall₂ R items answers)
    (himp : ∀ item ∈ items, ∀ answer, R item answer → S item answer) :
    List.Forall₂ S items answers := by
  have hboth := (List.forall₂_and_left _ _).2 ⟨himp, h⟩
  exact hboth.imp fun _ _ hitem => hitem.1 _ hitem.2

/-- What is taken from the items and what is taken from the answers corresponds, if something is
taken from an item whenever something is taken from its answer. -/
lemma forall₂_filterMap {γ δ : Type} {R : α → β → Prop} {S : γ → δ → Prop} {f : α → Option γ}
    {g : β → Option δ} {answers : List β} (h : List.Forall₂ R items answers)
    (hboth : ∀ item ∈ items, ∀ answer, R item answer →
      (∃ a b, f item = some a ∧ g answer = some b ∧ S a b) ∨ (f item = none ∧ g answer = none)) :
    List.Forall₂ S (items.filterMap f) (answers.filterMap g) := by
  induction h with
  | nil => exact .nil
  | @cons item answer items answers hitem _ ih =>
    have hrest := ih fun other hother => hboth other (List.mem_cons_of_mem _ hother)
    rcases hboth item List.mem_cons_self answer hitem with ⟨a, b, ha, hb, hS⟩ | ⟨ha, hb⟩
    · rw [List.filterMap_cons_some ha, List.filterMap_cons_some hb]
      exact .cons hS hrest
    · rw [List.filterMap_cons_none ha, List.filterMap_cons_none hb]
      exact hrest

/-- Two lists of answers agree if they agree on every item. -/
lemma eq_of_forall₂ {R S : α → β → Prop} {answers others : List β}
    (hanswers : List.Forall₂ R items answers) (hothers : List.Forall₂ S items others)
    (h : ∀ item ∈ items, ∀ answer other, R item answer → S item other → answer = other) :
    answers = others := by
  induction hanswers generalizing others with
  | nil => exact (List.forall₂_nil_left_iff.1 hothers).symm
  | @cons item answer items answers hitem _ ih =>
    obtain ⟨other, rest, hother, hrest, rfl⟩ := List.forall₂_cons_left_iff.1 hothers
    rw [h item (by simp) answer other hitem hother,
      ih hrest fun later hlater => h later (List.mem_cons_of_mem _ hlater)]

/-- Two passes one after the other are one pass. -/
lemma forall₂_trans_of_mem {α β γ : Type} {R : α → β → Prop} {S : β → γ → Prop} {T : α → γ → Prop}
    {items : List α} {answers : List β} {results : List γ} (hR : List.Forall₂ R items answers)
    (hS : List.Forall₂ S answers results)
    (h : ∀ item ∈ items, ∀ answer result, R item answer → S answer result → T item result) :
    List.Forall₂ T items results := by
  induction hR generalizing results with
  | nil =>
    cases hS
    exact .nil
  | @cons item answer items answers hitem _ ih =>
    cases hS with
    | @cons _ result _ results hresult hresults =>
      exact .cons (h item List.mem_cons_self answer result hitem hresult)
        (ih hresults fun other hother => h other (List.mem_cons_of_mem _ hother))

/-- The answer with an index is the answer for the item with that index. -/
lemma exists_getElem?_of_forall₂ {R : α → β → Prop} {answers : List β} {index : ℕ} {answer : β}
    (h : List.Forall₂ R items answers) (hanswer : answers[index]? = some answer) :
    ∃ item, items[index]? = some item ∧ R item answer := by
  obtain ⟨hlt, rfl⟩ := List.getElem?_eq_some_iff.1 hanswer
  have hitem : index < items.length := by rwa [h.length_eq]
  exact ⟨items[index], List.getElem?_eq_getElem hitem, h.get hitem hlt⟩

/-- The last answer is the answer for the last item. -/
lemma exists_getLast?_of_forall₂ {R : α → β → Prop} {answers : List β} {answer : β}
    (h : List.Forall₂ R items answers) (hlast : answers.getLast? = some answer) :
    ∃ item, items.getLast? = some item ∧ R item answer := by
  rw [← List.head?_reverse, List.head?_eq_some_iff] at hlast
  obtain ⟨before, hbefore⟩ := hlast
  have hreverse := List.forall₂_reverse_iff.2 h
  rw [hbefore] at hreverse
  obtain ⟨item, rest, hitem, -, hitems⟩ := List.forall₂_cons_right_iff.1 hreverse
  refine ⟨item, ?_, hitem⟩
  rw [← List.head?_reverse, hitems]
  rfl

lemma mapM_eq_some_iff {f : α → Option β} {answers : List β} :
    items.mapM f = some answers ↔
      List.Forall₂ (fun item answer => f item = some answer) items answers := by
  induction items generalizing answers with
  | nil => cases answers <;> simp
  | cons item items ih =>
    rw [List.mapM_cons]
    cases hitem : f item with
    | none => cases answers <;> simp [hitem]
    | some answer =>
      cases hitems : items.mapM f with
      | none => cases answers <;> simp [← ih, hitems]
      | some rest => cases answers <;> simp [← ih, hitems, hitem]

/-! ## Passes that say why they fail -/

section Failing

variable {ε κ : Type} {fail : κ → ε}

/-- An answer that fails with what is reported does not fail if nothing is. -/
lemma exists_ok_iff {answer : Except ε β} {report : Option κ}
    (h : ∀ e, answer = .error e ↔ ∃ kind, report = some kind ∧ e = fail kind) :
    (∃ value, answer = .ok value) ↔ report = none := by
  cases hreport : report with
  | none =>
    cases hanswer : answer with
    | error e =>
      obtain ⟨kind, hkind, -⟩ := (h e).1 hanswer
      rw [hreport] at hkind
      cases hkind
    | ok value => simp
  | some kind =>
    rw [(h (fail kind)).2 ⟨kind, hreport, rfl⟩]
    simp

/-- A pass fails with what is reported of the first item that is refused. -/
lemma mapM_eq_error_iff {f : α → Except ε β} {report : α → Option κ}
    (h : ∀ item ∈ items, ∀ e, f item = .error e ↔ ∃ kind, report item = some kind ∧ e = fail kind)
    (e : ε) :
    items.mapM f = .error e ↔ ∃ kind, items.findSome? report = some kind ∧ e = fail kind := by
  induction items with
  | nil => simp [pure, Except.pure]
  | cons item items ih =>
    have hitem := h item List.mem_cons_self
    have hitems := ih fun other hother => h other (List.mem_cons_of_mem _ hother)
    rw [List.mapM_cons, List.findSome?_cons]
    cases hanswer : f item with
    | error e' =>
      obtain ⟨kind, hkind, rfl⟩ := (hitem e').1 hanswer
      rw [hkind]
      simp [bind, Except.bind, eq_comm]
    | ok answer =>
      rw [(exists_ok_iff hitem).1 ⟨answer, hanswer⟩]
      cases hanswers : items.mapM f with
      | error e' => simp [bind, Except.bind, ← hitems, hanswers]
      | ok answers => simp [bind, Except.bind, pure, Except.pure, ← hitems, hanswers]

lemma mapM_eq_ok_iff {f : α → Except ε β} {answers : List β} :
    items.mapM f = .ok answers ↔
      List.Forall₂ (fun item answer => f item = .ok answer) items answers := by
  induction items generalizing answers with
  | nil => cases answers <;> simp [pure, Except.pure]
  | cons item items ih =>
    rw [List.mapM_cons]
    cases hitem : f item with
    | error e => cases answers <;> simp [bind, Except.bind, hitem]
    | ok answer =>
      cases hitems : items.mapM f with
      | error e => cases answers <;> simp [bind, Except.bind, ← ih, hitems]
      | ok rest => cases answers <;> simp [bind, Except.bind, pure, Except.pure, ← ih, hitems, hitem]

end Failing

end SiblingQuery
